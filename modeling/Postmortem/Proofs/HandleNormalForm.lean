import Mathlib.Algebra.Group.Nat.Defs
import Postmortem.Proofs.HandleToken
set_option autoImplicit false

/-!
# Handle tokens: one way to take them apart, and a normal form

A token that writes a handle can be taken apart in one way only: a name may hold brackets, spaces and digits, but what
stands in front of it ends at the first bracket.  So the written form of the handle is a normal form of the token.  The
main statement is `readHandle_grammar_and_normalForm`.
-/

namespace Postmortem

open Postmortem.Text

namespace Handle

/-! ## Parts of a token -/

/-- The parts of a token: hexadecimal digits behind their mark, spaces, and a name in brackets on one line. -/
structure Parts (token : String) (digits spaces name : List Char) : Prop where
  text : token.toList = '0' :: 'x' :: (digits ++ (spaces ++ '[' :: (name ++ [']'])))
  nonempty : digits ≠ []
  hex : ∀ c ∈ digits, Numeral.isHex c = true
  blank : ∀ c ∈ spaces, c = ' '
  line : '\n' ∉ name

theorem takeWhile_space_append {spaces : List Char} (hspaces : ∀ c ∈ spaces, c = ' ') (behind : List Char) :
    (spaces ++ '[' :: behind).takeWhile (· == ' ') = spaces ∧
      (spaces ++ '[' :: behind).dropWhile (· == ' ') = '[' :: behind := by
  have hall : ∀ c ∈ spaces, (c == ' ') = true := by simpa using hspaces
  constructor
  · rw [List.takeWhile_append_of_pos hall]
    simp
  · rw [List.dropWhile_append_of_pos hall]
    rfl

/-- Digits, spaces and a name in brackets stand in a text in one way only, whatever the name is. -/
theorem parts_inj {digits digits' spaces spaces' name name' : List Char}
    (hdigits : ∀ c ∈ digits, Numeral.isHex c = true) (hdigits' : ∀ c ∈ digits', Numeral.isHex c = true)
    (hspaces : ∀ c ∈ spaces, c = ' ') (hspaces' : ∀ c ∈ spaces', c = ' ')
    (h : digits ++ (spaces ++ '[' :: (name ++ [']'])) = digits' ++ (spaces' ++ '[' :: (name' ++ [']']))) :
    digits = digits' ∧ spaces = spaces' ∧ name = name' := by
  obtain ⟨htake, hdrop⟩ := takeWhile_isHex_append hdigits (isHex_head_eq_false hspaces (name ++ [']']))
  obtain ⟨htake', hdrop'⟩ := takeWhile_isHex_append hdigits' (isHex_head_eq_false hspaces' (name' ++ [']']))
  rw [h] at htake hdrop
  obtain rfl : digits = digits' := htake.symm.trans htake'
  have hrest := hdrop.symm.trans hdrop'
  obtain ⟨hblank, hname⟩ := takeWhile_space_append hspaces (name ++ [']'])
  obtain ⟨hblank', hname'⟩ := takeWhile_space_append hspaces' (name' ++ [']'])
  rw [hrest] at hblank hname
  refine ⟨rfl, hblank.symm.trans hblank', ?_⟩
  have hbehind := (List.cons.inj (hname.symm.trans hname')).2
  exact List.append_cancel_right hbehind

/-- A token has one kind of each part. -/
theorem Parts.unique {token : String} {digits digits' spaces spaces' name name' : List Char}
    (h : Parts token digits spaces name) (h' : Parts token digits' spaces' name') :
    digits = digits' ∧ spaces = spaces' ∧ name = name' := by
  refine parts_inj h.hex h'.hex h.blank h'.blank ?_
  exact (List.cons.inj (List.cons.inj (h.text.symm.trans h'.text)).2).2

/-- A token that writes a handle is one with parts whose number has 64 bits. -/
theorem isHandle_iff_parts {token : String} {h : Handle} :
    IsHandle token h ↔ ∃ digits spaces, Parts token digits spaces h.name.toList ∧
      Numeral.value 16 digits = h.value ∧ h.value < 2 ^ 64 := by
  constructor
  · rintro ⟨digits, spaces, name, htext, hne, hdigits, hspaces, hline, hsmall, rfl⟩
    refine ⟨digits, spaces, ⟨?_, hne, hdigits, hspaces, ?_⟩, rfl, hsmall⟩
    · rw [String.toList_ofList]
      exact htext
    · rw [String.toList_ofList]
      exact hline
  · rintro ⟨digits, spaces, hparts, hvalue, hsmall⟩
    obtain ⟨value, name⟩ := h
    obtain rfl : Numeral.value 16 digits = value := hvalue
    refine ⟨digits, spaces, name.toList, hparts.text, hparts.nonempty, hparts.hex, hparts.blank, hparts.line, hsmall,
      ?_⟩
    rw [String.ofList_toList]

/-! ## Written handles -/

theorem toList_toText (h : Handle) :
    h.toText.toList = '0' :: 'x' :: (Numeral.digits 16 h.value ++ ([' '] ++ '[' :: (h.name.toList ++ [']']))) := by
  simp [toText, written, Numeral.signedHex, Numeral.hex]

/-- If the written form of a handle is read, it is read to that handle, whose number has 64 bits and whose name has no
line feed. -/
theorem eq_of_isHandle_toText {h other : Handle} (hread : IsHandle h.toText other) :
    other = h ∧ h.value < 2 ^ 64 ∧ '\n' ∉ h.name.toList := by
  obtain ⟨digits, spaces, name, htext, _, hdigits, hspaces, hline, hsmall, rfl⟩ := hread
  have hwritten : ∀ c ∈ Numeral.digits 16 h.value, Numeral.isHex c = true :=
    Node.forall_mem_digits (by decide) Node.isHex_digitChar _
  rw [toList_toText] at htext
  have hbehind := (List.cons.inj (List.cons.inj htext).2).2
  obtain ⟨rfl, _, rfl⟩ := parts_inj hwritten hdigits (by simp) hspaces hbehind
  rw [Numeral.value_digits (by decide) (by decide) h.value] at hsmall ⊢
  rw [String.ofList_toList]
  exact ⟨rfl, hsmall, hline⟩

end Handle

namespace Node

/-! ## Normal form -/

/-- The written form of the handle that a token writes. -/
def normalToken (token : String) : Except Cause String :=
  match readHandle token with
  | .ok h => .ok h.toText
  | .error cause => .error cause

theorem readHandle_toText {h : Handle} (hvalue : h.value < 2 ^ 64) (hname : '\n' ∉ h.name.toList) :
    readHandle h.toText = .ok h :=
  readHandle_eq_ok_iff.mpr (Handle.parse?_eq_some_iff.mp (Handle.parse?_toText hvalue hname))

/-- A handle that was read has a number of 64 bits and a name without a line feed. -/
theorem bounds_of_readHandle {token : String} {h : Handle} (hread : readHandle token = .ok h) :
    h.value < 2 ^ 64 ∧ '\n' ∉ h.name.toList := by
  obtain ⟨digits, spaces, hparts, _, hsmall⟩ := Handle.isHandle_iff_parts.mp (readHandle_eq_ok_iff.mp hread)
  exact ⟨hsmall, hparts.line⟩

theorem normalToken_of_readHandle {token : String} {h : Handle} (hread : readHandle token = .ok h) :
    normalToken token = .ok h.toText := by
  rw [normalToken, hread]

/-- The normal form of a token is its own normal form. -/
theorem normalToken_idem {token normal : String} (h : normalToken token = .ok normal) :
    normalToken normal = .ok normal := by
  unfold normalToken at h
  split at h
  · rename_i handle hread
    obtain ⟨hvalue, hname⟩ := bounds_of_readHandle hread
    rw [← Except.ok.inj h]
    exact normalToken_of_readHandle (readHandle_toText hvalue hname)
  · cases h

/-- Tokens have the same normal form if they are read to the same handle. -/
theorem normalToken_eq_iff {token token' : String} {h h' : Handle} (hread : readHandle token = .ok h)
    (hread' : readHandle token' = .ok h') : normalToken token = normalToken token' ↔ h = h' := by
  rw [normalToken_of_readHandle hread, normalToken_of_readHandle hread']
  constructor
  · intro heq
    obtain ⟨hvalue, hname⟩ := bounds_of_readHandle hread
    have hwritten := readHandle_toText hvalue hname
    obtain ⟨hvalue', hname'⟩ := bounds_of_readHandle hread'
    rw [Except.ok.inj heq, readHandle_toText hvalue' hname'] at hwritten
    exact (Except.ok.inj hwritten).symm
  · rintro rfl
    rfl

/-- A token is read to a handle exactly if it has the parts of one whose number has 64 bits, which it has in one way
only, and it is refused with its own text otherwise.  The written form of a handle reads back to the handle if its
number has 64 bits and its name is on one line, and is refused if not.  It is a normal form of the tokens that are read
to the handle. -/
theorem readHandle_grammar_and_normalForm :
    (∀ token value name, readHandle token = .ok ⟨value, name⟩ ↔
      ∃ digits spaces, Handle.Parts token digits spaces name.toList ∧ Numeral.value 16 digits = value ∧
        value < 2 ^ 64) ∧
    (∀ token digits spaces name digits' spaces' name', Handle.Parts token digits spaces name →
      Handle.Parts token digits' spaces' name' → digits = digits' ∧ spaces = spaces' ∧ name = name') ∧
    (∀ token, (∀ h, readHandle token ≠ .ok h) → readHandle token = .error (.malformedHandle token)) ∧
    (∀ h : Handle, h.value < 2 ^ 64 → '\n' ∉ h.name.toList → readHandle h.toText = .ok h) ∧
    (∀ h : Handle, '\n' ∈ h.name.toList ∨ 2 ^ 64 ≤ h.value →
      readHandle h.toText = .error (.malformedHandle h.toText)) ∧
    (∀ token normal, normalToken token = .ok normal → normalToken normal = .ok normal) ∧
    (∀ token token' h h', readHandle token = .ok h → readHandle token' = .ok h' →
      (normalToken token = normalToken token' ↔ h = h')) := by
  have hother : ∀ token, (∀ h, readHandle token ≠ .ok h) → readHandle token = .error (.malformedHandle token) := by
    intro token hnone
    refine readHandle_eq_error_iff.mpr ⟨rfl, ?_⟩
    intro h hhandle
    exact hnone h (readHandle_eq_ok_iff.mpr hhandle)
  refine ⟨?_, fun _ _ _ _ _ _ _ => Handle.Parts.unique, hother, fun _ => readHandle_toText, ?_,
    fun _ _ => normalToken_idem, fun _ _ _ _ => normalToken_eq_iff⟩
  · intro token value name
    exact readHandle_eq_ok_iff.trans Handle.isHandle_iff_parts
  · intro h hbad
    apply hother
    intro other hread
    obtain ⟨_, hsmall, hline⟩ := Handle.eq_of_isHandle_toText (readHandle_eq_ok_iff.mp hread)
    rcases hbad with hmem | hlarge
    · exact hline hmem
    · exact absurd hsmall (Nat.not_lt_of_le hlarge)

/-- Two tokens for a handle whose name holds brackets and digits have one normal form, and a name with a line feed is
written to a token that is refused. -/
theorem readHandle_grammar_and_normalForm_bracketed :
    readHandle "0x007F   [0x1 []]" = .ok ⟨127, "0x1 []"⟩ ∧ readHandle "0x7f[0x1 []]" = .ok ⟨127, "0x1 []"⟩ ∧
      normalToken "0x007F   [0x1 []]" = normalToken "0x7f[0x1 []]" ∧
      normalToken "0x7f [0x1 []]" = .ok "0x7f [0x1 []]" ∧
      readHandle (Handle.toText ⟨1, "a\nb"⟩) = .error (.malformedHandle "0x1 [a\nb]") := by
  obtain ⟨_, _, _, hreads, hrefused, hidem, hequal⟩ := readHandle_grammar_and_normalForm
  have hfirst : readHandle "0x007F   [0x1 []]" = .ok ⟨127, "0x1 []"⟩ := by decide +kernel
  have hsecond : readHandle "0x7f[0x1 []]" = .ok ⟨127, "0x1 []"⟩ := by decide +kernel
  refine ⟨hfirst, hsecond, (hequal _ _ _ _ hfirst hsecond).mpr rfl, ?_, ?_⟩
  · refine hidem "0x7f[0x1 []]" _ ?_
    rw [normalToken_of_readHandle hsecond]
    decide +kernel
  · have hlinefeed : '\n' ∈ (Handle.name ⟨1, "a\nb"⟩).toList := by decide +kernel
    have h := hrefused ⟨1, "a\nb"⟩ (Or.inl hlinefeed)
    have htext : Handle.toText ⟨1, "a\nb"⟩ = "0x1 [a\nb]" := by decide +kernel
    rw [h, htext]

end Node

end Postmortem
