import Mathlib.Data.List.TakeWhile
import Postmortem.Proofs.Numeral
set_option autoImplicit false

/-!
# Handle tokens: their grammar and round trip

The written form of a handle as a relation that mentions no parser: a marked hexadecimal numeral of 64 bits, spaces,
and a name in brackets that ends the token.  The main statements are `parse?_eq_some_iff`, that the parser accepts
exactly this form, and `parse?_toText`, that it undoes the writer.
-/

namespace Postmortem

open Postmortem.Text

/-- A token that writes a handle. -/
def IsHandle (token : String) (h : Handle) : Prop :=
  ∃ digits spaces name : List Char,
    token.toList = '0' :: 'x' :: (digits ++ (spaces ++ '[' :: (name ++ [']']))) ∧
    digits ≠ [] ∧ (∀ c ∈ digits, Numeral.isHex c = true) ∧ (∀ c ∈ spaces, c = ' ') ∧ '\n' ∉ name ∧
    Numeral.value 16 digits < Nat.pow 2 64 ∧ h = ⟨Numeral.value 16 digits, String.ofList name⟩

namespace Handle

theorem bracketedName?_eq_some_iff {text name : List Char} :
    bracketedName? text = some name ↔ text = '[' :: (name ++ [']']) ∧ '\n' ∉ name := by
  constructor
  · intro h
    unfold bracketedName? at h
    split at h
    · rename_i more
      split at h
      · rename_i hok
        obtain ⟨hlast, hline⟩ := hok
        obtain ⟨front, rfl⟩ := List.getLast?_eq_some_iff.mp hlast
        rw [List.dropLast_concat] at h hline
        rw [← Option.some.inj h]
        exact ⟨rfl, hline⟩
      · exact absurd h (by simp)
    · exact absurd h (by simp)
  · rintro ⟨rfl, hline⟩
    simp [bracketedName?, hline]

theorem takeWhile_isHex_append {digits rest : List Char} (hdigits : ∀ c ∈ digits, Numeral.isHex c = true)
    (hrest : ∀ c ∈ rest.head?, Numeral.isHex c = false) :
    (digits ++ rest).takeWhile Numeral.isHex = digits ∧ (digits ++ rest).dropWhile Numeral.isHex = rest := by
  have htake : rest.takeWhile Numeral.isHex = [] := by
    cases rest with
    | nil => rfl
    | cons c more => simp [List.takeWhile, hrest c (by simp)]
  have hdrop : rest.dropWhile Numeral.isHex = rest := by
    cases rest with
    | nil => rfl
    | cons c more => simp [List.dropWhile, hrest c (by simp)]
  constructor
  · rw [List.takeWhile_append_of_pos hdigits, htake, List.append_nil]
  · rw [List.dropWhile_append_of_pos hdigits, hdrop]

/-- What stands behind the digits of a handle does not begin with another digit. -/
theorem isHex_head_eq_false {spaces : List Char} (hspaces : ∀ c ∈ spaces, c = ' ') (behind : List Char) :
    ∀ c ∈ (spaces ++ '[' :: behind).head?, Numeral.isHex c = false := by
  intro c hc
  cases spaces with
  | nil =>
    have hbracket : c = '[' := by simpa using hc.symm
    rw [hbracket]
    decide
  | cons d more =>
    have hspace : c = ' ' := by
      rw [← hspaces d (by simp)]
      simpa using hc.symm
    rw [hspace]
    decide

/-- The parser accepts exactly the written form. -/
theorem parse?_eq_some_iff {token : String} {h : Handle} : parse? token = some h ↔ IsHandle token h := by
  constructor
  · intro hp
    unfold parse? at hp
    split at hp
    · rename_i text htoken
      split at hp
      · rename_i name hname
        obtain ⟨hbehind, hline⟩ := bracketedName?_eq_some_iff.mp hname
        dsimp only at hp
        split at hp
        · rename_i hok
          obtain ⟨hne, hfits⟩ := hok
          refine ⟨text.takeWhile Numeral.isHex, (text.dropWhile Numeral.isHex).takeWhile (· == ' '), name,
            ?_, hne, fun c hc => List.mem_takeWhile_imp hc, ?_, hline, hfits, (Option.some.inj hp).symm⟩
          · rw [← hbehind, List.takeWhile_append_dropWhile, List.takeWhile_append_dropWhile]
            exact htoken
          · intro c hc
            simpa using List.mem_takeWhile_imp hc
        · exact absurd hp (by simp)
      · exact absurd hp (by simp)
    · exact absurd hp (by simp)
  · rintro ⟨digits, spaces, name, htoken, hne, hdigits, hspaces, hline, hfits, rfl⟩
    obtain ⟨htake, hdrop⟩ := takeWhile_isHex_append hdigits (isHex_head_eq_false hspaces (name ++ [']']))
    have hblank : (spaces ++ '[' :: (name ++ [']'])).dropWhile (· == ' ') = '[' :: (name ++ [']']) := by
      rw [List.dropWhile_append_of_pos (by simpa using hspaces)]
      rfl
    unfold parse?
    rw [htoken]
    simp only [htake, hdrop, hblank, bracketedName?_eq_some_iff.mpr ⟨rfl, hline⟩]
    exact if_pos ⟨hne, hfits⟩

/-- The written form of a handle of 64 bits whose name has no line feed reads back to the handle. -/
theorem parse?_toText {h : Handle} (hvalue : h.value < Nat.pow 2 64) (hname : '\n' ∉ h.name.toList) :
    parse? h.toText = some h := by
  have hdigits : Numeral.value 16 (Numeral.digits 16 h.value) = h.value :=
    Numeral.value_digits (by decide) (by decide) h.value
  refine parse?_eq_some_iff.mpr ⟨Numeral.digits 16 h.value, [' '], h.name.toList, ?_, Nat.toDigits_ne_nil,
    Node.forall_mem_digits (by decide) Node.isHex_digitChar _, by simp, hname, ?_, ?_⟩
  · simp [toText, written, Numeral.signedHex, Numeral.hex]
  · rw [hdigits]
    exact hvalue
  · rw [hdigits, String.ofList_toList]

end Handle

/-- A handle is read exactly from a token that writes it. -/
theorem Node.readHandle_eq_ok_iff {token : String} {h : Handle} :
    Node.readHandle token = .ok h ↔ IsHandle token h := by
  rw [← Handle.parse?_eq_some_iff]
  unfold Node.readHandle
  cases Handle.parse? token <;> simp

/-- A handle is refused exactly for a token that writes none. -/
theorem Node.readHandle_eq_error_iff {token : String} {cause : Cause} :
    Node.readHandle token = .error cause ↔ cause = .malformedHandle token ∧ ∀ h, ¬ IsHandle token h := by
  simp only [← Handle.parse?_eq_some_iff]
  unfold Node.readHandle
  cases Handle.parse? token <;> simp [eq_comm]

end Postmortem
