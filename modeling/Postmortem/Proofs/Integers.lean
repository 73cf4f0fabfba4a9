import Mathlib.Algebra.Group.Nat.Defs
import Postmortem.Node.Site
import Postmortem.Proofs.Numeral
set_option autoImplicit false

/-!
# Integers: what a scalar is read to as an unsigned number

Which scalars are read as a number of 32 or of 64 bits, to which number, and what is said of the others.  The main
statement is `uint_of_numeral`: it goes by the text without its padding, which is one text only, and by the numeral that
this is, if it is one.
-/

namespace Postmortem.Node

open Postmortem.Text

/-! ## Text without padding -/

/-- A core of a text that has no padding at its own ends, while the rest of the text is padding. -/
structure Strips (core text : List Char) : Prop where
  pads : Pads core text
  first : ∀ c ∈ core.head?, isBlank c = false
  last : ∀ c ∈ core.getLast?, isBlank c = false

/-- Without the padding at its end, a text begins as before. -/
theorem head?_trimEnd {text : List Char} {c : Char} (h : c ∈ (trimEnd text).head?) : c ∈ text.head? := by
  cases text with
  | nil => exact absurd h (by simp [trimEnd])
  | cons d rest =>
    rw [trimEnd] at h
    split at h
    · split at h
      · exact absurd h (by simp)
      · exact h
    · exact h

/-- Without the padding at its end, a text does not end with padding. -/
theorem isBlank_getLast?_trimEnd {text : List Char} : ∀ c ∈ (trimEnd text).getLast?, isBlank c = false := by
  induction text with
  | nil => simp [trimEnd]
  | cons d rest ih =>
    intro c hc
    rw [trimEnd] at hc
    split at hc
    · split at hc
      · exact absurd hc (by simp)
      · rename_i hd
        obtain rfl : d = c := by simpa using hc
        simpa using hd
    · rename_i hkept
      rw [List.getLast?_cons_of_ne_nil hkept] at hc
      exact ih c hc

/-- Trimming leaves the core of a text, which has no other core. -/
theorem strips_iff_eq_trim {core text : List Char} : Strips core text ↔ core = trim text := by
  constructor
  · rintro ⟨⟨before, after, hbefore, hafter, rfl⟩, hfirst, hlast⟩
    rw [trim_append_of_blank hbefore hafter, trim_of_ends hfirst hlast]
  · rintro rfl
    refine ⟨pads_trim text, ?_, isBlank_getLast?_trimEnd⟩
    intro c hc
    have hhead : c ∈ (text.dropWhile isBlank).head? := head?_trimEnd hc
    have hstop := List.head?_dropWhile_not isBlank text
    rw [Option.mem_def.mp hhead] at hstop
    simpa using hstop

/-- Padding that is put around a text is no part of its core. -/
theorem trim_eq_trim_of_pads {text padded : List Char} (h : Pads text padded) : trim padded = trim text := by
  obtain ⟨before, after, hbefore, hafter, rfl⟩ := h
  exact trim_append_of_blank hbefore hafter text

/-! ## Numerals -/

theorem isNumeral_iff_signed_trim {text : String} {n : Literal} : IsNumeral text n ↔ Signed (trim text.toList) n := by
  rw [← ofText?_eq_some_iff, Literal.ofText?, ofUnsigned?_dropPlus_eq_some_iff]

/-- Texts with one core write the same numeral. -/
theorem isNumeral_congr {text padded : String} (h : Pads text.toList padded.toList) {n : Literal} :
    IsNumeral padded n ↔ IsNumeral text n := by
  rw [isNumeral_iff_signed_trim, isNumeral_iff_signed_trim, trim_eq_trim_of_pads h]

/-- The marked hexadecimal numeral of a number writes it. -/
theorem isNumeral_hex (n : Nat) : IsNumeral ("0x" ++ Numeral.hex n) ⟨16, Numeral.digits 16 n⟩ := by
  refine ⟨'0' :: 'x' :: Numeral.digits 16 n, ⟨[], [], by simp, by simp, by simp [Numeral.hex]⟩, ?_⟩
  exact Signed.bare (Unsigned.hex (Or.inl rfl) Nat.toDigits_ne_nil
    (forall_mem_digits (by decide) isHex_digitChar n))

/-- A number of a width reads back from its marked hexadecimal numeral. -/
theorem readUint_hex {width : Width} {n : Nat} (h : n < width.limit) :
    readUint width ("0x" ++ Numeral.hex n) = .ok n := by
  have hvalue : Numeral.value 16 (Numeral.digits 16 n) = n := Numeral.value_digits (by decide) (by decide) n
  refine readUint_eq_ok_iff.mpr ⟨_, isNumeral_hex n, ?_, ?_, hvalue⟩
  · intro hbase
    exact absurd hbase (by simp)
  · rw [Literal.value, hvalue]
    exact h

theorem limit_w32_le_limit (width : Width) : Width.limit .w32 ≤ width.limit := by
  cases width <;> decide

/-- A number of 32 bits is a number of any width. -/
theorem readUint_of_w32 {text : String} {value : Nat} (h : readUint .w32 text = .ok value) (width : Width) :
    readUint width text = .ok value := by
  obtain ⟨n, hn, hshort, hsmall, hvalue⟩ := readUint_eq_ok_iff.mp h
  exact readUint_eq_ok_iff.mpr ⟨n, hn, hshort, Nat.lt_of_lt_of_le hsmall (limit_w32_le_limit width), hvalue⟩

/-- Padding changes nothing about the number that is read. -/
theorem readUint_eq_ok_of_pads {text padded : String} (h : Pads text.toList padded.toList) {width : Width}
    {value : Nat} : readUint width padded = .ok value ↔ readUint width text = .ok value := by
  simp only [readUint_eq_ok_iff, isNumeral_congr h]

/-! ## Scalars as nodes -/

/-- What a scalar is read to as a number of a width, if `core` is its text without padding. -/
structure ReadsUint (core : List Char) (text path : String) (width : Width) (result : Except Fault Nat) : Prop where
  /-- a numeral of up to 4300 digits, or a hexadecimal one of any length, is read to its number -/
  small : ∀ n, Signed core n → (n.base = 10 → n.digits.length ≤ 4300) → n.value < 2 ^ width.bits → result = .ok n.value
  /-- unless that has too many bits -/
  large : ∀ n, Signed core n → (n.base = 10 → n.digits.length ≤ 4300) → 2 ^ width.bits ≤ n.value →
    result = .error (.node (.badScalar text (.uint width)) path)
  /-- a longer decimal numeral is a fault that is not about the format -/
  long : ∀ n, Signed core n → n.base = 10 → 4300 < n.digits.length →
    result = .error (.node (.numeralTooLong n.digits.length) path) ∧
      (Fault.node (.numeralTooLong n.digits.length) path).isFormat = false
  /-- any other text is no number -/
  other : (∀ n, ¬ Signed core n) → result = .error (.node (.badScalar text (.uint width)) path)

section

variable {α : Type} {graph : Graph α} {node : α} {text : String}

theorem uint_of_scalar (h : graph node = .scalar text) (path : String) (width : Width) :
    Site.uint graph ⟨some node, path⟩ width =
      match readUint width text with
      | .ok value => .ok value
      | .error cause => .error (.node cause path) := by
  simp only [Site.uint, Site.readWith, Option.map_some, h, Shape.readWith, Shape.text, Site.fault]
  cases readUint width text <;> rfl

theorem uint_eq_ok_iff (h : graph node = .scalar text) {path : String} {width : Width} {value : Nat} :
    Site.uint graph ⟨some node, path⟩ width = .ok value ↔ readUint width text = .ok value := by
  rw [uint_of_scalar h]
  cases readUint width text <;> simp

theorem uint_eq_error_of_unreadable (h : graph node = .scalar text) {width : Width} {cause : Cause}
    (hcause : Unreadable readable width text cause) (path : String) :
    Site.uint graph ⟨some node, path⟩ width = .error (.node cause path) := by
  rw [uint_of_scalar h, readUint_eq_error_iff.mpr hcause]

theorem within_readable_iff {n : Literal} : n.Within readable ↔ (n.base = 10 → n.digits.length ≤ 4300) := by
  simp [Literal.Within, readable, Numeral.maxDecimalDigits]

theorem readsUint_of_scalar (h : graph node = .scalar text) (path : String) (width : Width) :
    ReadsUint (trim text.toList) text path width (Site.uint graph ⟨some node, path⟩ width) := by
  constructor
  · intro n hn hshort hsmall
    rw [← isNumeral_iff_signed_trim] at hn
    rw [← within_readable_iff] at hshort
    exact (uint_eq_ok_iff h).mpr (readUint_eq_ok_iff.mpr ⟨n, hn, hshort, hsmall, rfl⟩)
  · intro n hn hshort hlarge
    rw [← isNumeral_iff_signed_trim] at hn
    rw [← within_readable_iff] at hshort
    refine uint_eq_error_of_unreadable h (.unfit ?_) path
    intro m hm
    rw [← hn.unique hm]
    exact ⟨hshort, hlarge⟩
  · intro n hn hbase hlong
    rw [← isNumeral_iff_signed_trim] at hn
    refine ⟨uint_eq_error_of_unreadable h (.long hn ?_) path, rfl⟩
    rw [within_readable_iff]
    intro hshort
    exact absurd (hshort hbase) (Nat.not_le_of_lt hlong)
  · intro hnone
    refine uint_eq_error_of_unreadable h (.unfit ?_) path
    intro n hn
    exact absurd (isNumeral_iff_signed_trim.mp hn) (hnone n)

end

/-- A scalar is read as a number of a width by its text without padding, of which there is one: to the number that it
writes, if this has few enough bits and not too many decimal digits.  So a number of 32 bits is read as one of 64 bits
too, padding makes no difference, and both numerals of a number of the width read back to it. -/
theorem uint_of_numeral {α : Type} {graph : Graph α} {node : α} {text : String} (h : graph node = .scalar text)
    (path : String) (width : Width) :
    (∃ core, (∀ other, Strips other text.toList ↔ other = core) ∧
      ReadsUint core text path width (Site.uint graph ⟨some node, path⟩ width)) ∧
    (∀ value, Site.uint graph ⟨some node, path⟩ .w32 = .ok value → Site.uint graph ⟨some node, path⟩ .w64 = .ok value) ∧
    (∀ padded other place value, graph other = .scalar padded → Pads text.toList padded.toList →
      (Site.uint graph ⟨some other, place⟩ width = .ok value ↔ Site.uint graph ⟨some node, path⟩ width = .ok value)) ∧
    (∀ n, n < 2 ^ width.bits → text = Numeral.decimal n ∨ text = "0x" ++ Numeral.hex n →
      Site.uint graph ⟨some node, path⟩ width = .ok n) := by
  refine ⟨⟨trim text.toList, fun _ => strips_iff_eq_trim, readsUint_of_scalar h path width⟩, ?_, ?_, ?_⟩
  · intro value hread
    rw [uint_eq_ok_iff h] at hread ⊢
    exact readUint_of_w32 hread .w64
  · intro padded other place value hother hpads
    rw [uint_eq_ok_iff hother, uint_eq_ok_iff h]
    exact readUint_eq_ok_of_pads hpads
  · intro n hn htext
    rw [uint_eq_ok_iff h]
    rcases htext with rfl | rfl
    · exact readUint_decimal hn
    · exact readUint_hex hn

/-- Two scalars with one numeral, the second with padding around it, and a third with the least number that has too many
bits. -/
def paddedNumerals : Graph Nat
  | 0 => .scalar "+0X00fF"
  | 1 => .scalar "\u2028+0X00fF\n"
  | _ => .scalar "4294967296"

/-- Padding of any script is left out, and the width is a limit. -/
theorem uint_of_numeral_padded :
    Site.uint paddedNumerals ⟨some 0, "a"⟩ .w32 = .ok 255 ∧ Site.uint paddedNumerals ⟨some 0, "a"⟩ .w64 = .ok 255 ∧
      Site.uint paddedNumerals ⟨some 1, "b"⟩ .w32 = .ok 255 ∧
      Site.uint paddedNumerals ⟨some 2, "c"⟩ .w32 = .error (.node (.badScalar "4294967296" (.uint .w32)) "c") ∧
      Site.uint paddedNumerals ⟨some 2, "c"⟩ .w64 = .ok 4294967296 := by
  have hfirst : paddedNumerals 0 = .scalar "+0X00fF" := rfl
  have hsecond : paddedNumerals 1 = .scalar "\u2028+0X00fF\n" := rfl
  have hthird : paddedNumerals 2 = .scalar "4294967296" := rfl
  obtain ⟨⟨core, hcore, hreads⟩, hwide, hpadded, _⟩ := uint_of_numeral hfirst "a" .w32
  obtain rfl := (hcore "+0X00fF".toList).mp (strips_iff_eq_trim.mpr (by decide))
  have hhex : "00fF".toList.all Numeral.isHex = true := by decide
  have hsigned : Signed "+0X00fF".toList ⟨16, "00fF".toList⟩ :=
    .plus (.hex (Or.inr rfl) (by decide) (List.all_eq_true.mp hhex))
  have hread : Site.uint paddedNumerals ⟨some 0, "a"⟩ .w32 = .ok 255 :=
    hreads.small _ hsigned (by simp) (by decide)
  have hblank : ['\u2028'].all isBlank = true ∧ ['\n'].all isBlank = true := by decide
  have hpads : Pads "+0X00fF".toList "\u2028+0X00fF\n".toList :=
    ⟨['\u2028'], ['\n'], List.all_eq_true.mp hblank.1, List.all_eq_true.mp hblank.2, by decide⟩
  obtain ⟨⟨large, hlarge, hrefused⟩, _⟩ := uint_of_numeral hthird "c" .w32
  obtain rfl := (hlarge "4294967296".toList).mp (strips_iff_eq_trim.mpr (by decide))
  have hdigits : "4294967296".toList.all Numeral.isDecimal = true := by decide
  have hdecimal : Signed "4294967296".toList ⟨10, "4294967296".toList⟩ :=
    .bare (.decimal (by decide) (List.all_eq_true.mp hdigits))
  obtain ⟨_, _, _, hback⟩ := uint_of_numeral hthird "c" .w64
  refine ⟨hread, hwide 255 hread, (hpadded _ 1 "b" 255 hsecond hpads).mpr hread, ?_, ?_⟩
  · exact hrefused.large _ hdecimal (by decide) (by decide)
  · exact hback 4294967296 (by decide) (Or.inl (by decide +kernel))

end Postmortem.Node
