import Mathlib.Data.List.TakeWhile
import Postmortem.Node.Scalar
set_option autoImplicit false

/-!
# Numerals: the grammar of numbers and truth words

The grammar of the padded scalars as relations that mention no reader, and the proof that the readers follow them.  A
numeral is padding around an optional plus sign and digits; a truth word is padding around one of eight words.  The
main statements are `ofText?_eq_some_iff`, `readUint_eq_ok_iff` and `readBool_eq_ok_iff`.
-/

namespace Postmortem.Node

open Postmortem.Text

/-! ## Padding -/

/-- A text that is a core with padding at its ends. -/
def Pads (core text : List Char) : Prop :=
  ∃ before after : List Char,
    (∀ c ∈ before, isBlank c = true) ∧ (∀ c ∈ after, isBlank c = true) ∧ text = before ++ core ++ after

theorem exists_trimEnd_append (text : List Char) :
    ∃ after : List Char, (∀ c ∈ after, isBlank c = true) ∧ text = trimEnd text ++ after := by
  induction text with
  | nil => exact ⟨[], by simp, rfl⟩
  | cons c rest ih =>
    obtain ⟨after, hafter, hrest⟩ := ih
    rw [trimEnd]
    cases hkept : trimEnd rest with
    | nil =>
      have hblank : rest = after := by rw [hrest, hkept]; simp
      by_cases hc : isBlank c = true
      · refine ⟨c :: after, ?_, by simp [hc, hblank]⟩
        intro d hd
        cases List.mem_cons.mp hd with
        | inl heq => rw [heq]; exact hc
        | inr hmem => exact hafter d hmem
      · exact ⟨after, hafter, by simp [hc, hblank]⟩
    | cons d kept =>
      refine ⟨after, hafter, ?_⟩
      rw [hkept] at hrest
      simp only [List.cons_append]
      rw [hrest, List.cons_append]

/-- A text is what trimming leaves of it, padded. -/
theorem pads_trim (text : List Char) : Pads (trim text) text := by
  obtain ⟨after, hafter, hdrop⟩ := exists_trimEnd_append (text.dropWhile isBlank)
  refine ⟨text.takeWhile isBlank, after, ?_, hafter, ?_⟩
  · intro c hc
    exact List.mem_takeWhile_imp hc
  · rw [trim, List.append_assoc, ← hdrop, List.takeWhile_append_dropWhile]

/-- Trimming gives back a core that holds no padding itself. -/
theorem trim_eq_of_pads {core text : List Char} (hpads : Pads core text)
    (hcore : ∀ c ∈ core, isBlank c = false) : trim text = core := by
  obtain ⟨before, after, hbefore, hafter, rfl⟩ := hpads
  rw [trim_append_of_blank hbefore hafter]
  apply trim_of_ends
  · intro c hc
    exact hcore c (List.mem_of_mem_head? hc)
  · intro c hc
    exact hcore c (List.mem_of_getLast? hc)

/-! ## Digits -/

theorem isBlank_of_isHex {c : Char} (h : Numeral.isHex c = true) : isBlank c = false := by
  simp only [Numeral.isHex, Numeral.isDecimal, Bool.or_eq_true, Bool.and_eq_true, decide_eq_true_eq,
    Char.le_def, UInt32.le_iff_toNat_le] at h
  simp only [isBlank, Char.toNat]
  simp at h ⊢
  omega

theorem isHex_of_isDecimal {c : Char} (h : Numeral.isDecimal c = true) : Numeral.isHex c = true := by
  simp [Numeral.isHex, h]

/-! ## Numerals -/

/-- The numerals without a sign: decimal digits, or hexadecimal digits behind their mark. -/
inductive Unsigned : List Char → Literal → Prop where
  | decimal {digits : List Char} (nonempty : digits ≠ [])
      (all : ∀ c ∈ digits, Numeral.isDecimal c = true) : Unsigned digits ⟨10, digits⟩
  | hex {mark : Char} {digits : List Char} (isMark : mark = 'x' ∨ mark = 'X') (nonempty : digits ≠ [])
      (all : ∀ c ∈ digits, Numeral.isHex c = true) : Unsigned ('0' :: mark :: digits) ⟨16, digits⟩

/-- The numerals with or without a plus sign. -/
inductive Signed : List Char → Literal → Prop where
  | bare {text : List Char} {n : Literal} : Unsigned text n → Signed text n
  | plus {text : List Char} {n : Literal} : Unsigned text n → Signed ('+' :: text) n

/-- A scalar that writes a numeral. -/
def IsNumeral (text : String) (n : Literal) : Prop :=
  ∃ core : List Char, Pads core text.toList ∧ Signed core n

theorem hexDigits?_eq_some_iff {text digits : List Char} :
    Literal.hexDigits? text = some digits ↔
      ∃ mark, (mark = 'x' ∨ mark = 'X') ∧ text = '0' :: mark :: digits := by
  constructor
  · intro h
    unfold Literal.hexDigits? at h
    split at h
    · exact ⟨'x', Or.inl rfl, by simp_all⟩
    · exact ⟨'X', Or.inr rfl, by simp_all⟩
    · simp at h
  · rintro ⟨mark, rfl | rfl, rfl⟩ <;> rfl

/-- Decimal digits are not taken for digits behind a mark. -/
theorem hexDigits?_of_decimal {text : List Char} (h : ∀ c ∈ text, Numeral.isDecimal c = true) :
    Literal.hexDigits? text = none := by
  cases hd : Literal.hexDigits? text with
  | none => rfl
  | some digits =>
    obtain ⟨mark, hmark, rfl⟩ := hexDigits?_eq_some_iff.mp hd
    have hdec := h mark (by simp)
    rcases hmark with rfl | rfl <;> simp [Numeral.isDecimal] at hdec

theorem ofUnsigned?_eq_some_iff {text : List Char} {n : Literal} :
    Literal.ofUnsigned? text = some n ↔ Unsigned text n := by
  constructor
  · intro h
    unfold Literal.ofUnsigned? at h
    split at h
    · rename_i digits hdigits
      obtain ⟨mark, hmark, rfl⟩ := hexDigits?_eq_some_iff.mp hdigits
      split at h
      · rename_i hok
        have hn : n = ⟨16, digits⟩ := by simpa using h.symm
        rw [hn]
        exact Unsigned.hex hmark hok.1 (List.all_eq_true.mp hok.2)
      · simp at h
    · split at h
      · rename_i hok
        have hn : n = ⟨10, text⟩ := by simpa using h.symm
        rw [hn]
        exact Unsigned.decimal hok.1 (List.all_eq_true.mp hok.2)
      · simp at h
  · intro h
    cases h with
    | decimal nonempty all =>
      rw [Literal.ofUnsigned?, hexDigits?_of_decimal all]
      simp [nonempty, List.all_eq_true.mpr all]
    | @hex mark digits isMark nonempty all =>
      rw [Literal.ofUnsigned?, hexDigits?_eq_some_iff.mpr ⟨mark, isMark, rfl⟩]
      simp [nonempty, List.all_eq_true.mpr all]

/-- No character of a numeral without a sign is padding or a sign. -/
theorem Unsigned.plain {text : List Char} {n : Literal} (h : Unsigned text n) :
    ∀ c ∈ text, isBlank c = false ∧ c ≠ '+' := by
  have hplain : ∀ c, Numeral.isHex c = true → isBlank c = false ∧ c ≠ '+' := by
    intro c hc
    refine ⟨isBlank_of_isHex hc, ?_⟩
    rintro rfl
    simp [Numeral.isHex, Numeral.isDecimal] at hc
  cases h with
  | decimal nonempty all => exact fun c hc => hplain c (isHex_of_isDecimal (all c hc))
  | hex isMark nonempty all =>
    intro c hc
    simp only [List.mem_cons] at hc
    rcases hc with rfl | rfl | hc
    · exact ⟨by decide, by decide⟩
    · rcases isMark with rfl | rfl <;> exact ⟨by decide, by decide⟩
    · exact hplain c (all c hc)

theorem ofUnsigned?_dropPlus_eq_some_iff {text : List Char} {n : Literal} :
    Literal.ofUnsigned? (Literal.dropPlus text) = some n ↔ Signed text n := by
  rw [ofUnsigned?_eq_some_iff]
  constructor
  · intro h
    unfold Literal.dropPlus at h
    split at h
    · exact Signed.plus h
    · exact Signed.bare h
  · intro h
    cases h with
    | plus h => exact h
    | bare h =>
      have hdrop : Literal.dropPlus text = text := by
        unfold Literal.dropPlus
        split
        · exact absurd rfl (h.plain '+' (by simp)).2
        · rfl
      rwa [hdrop]

theorem Signed.unpadded {text : List Char} {n : Literal} (h : Signed text n) :
    ∀ c ∈ text, isBlank c = false := by
  cases h with
  | bare h => exact fun c hc => (h.plain c hc).1
  | plus h =>
    intro c hc
    cases List.mem_cons.mp hc with
    | inl heq => rw [heq]; decide
    | inr hmem => exact (h.plain c hmem).1

/-- The reader of numerals accepts exactly the grammar, with the digits that it names. -/
theorem ofText?_eq_some_iff {text : String} {n : Literal} :
    Literal.ofText? text = some n ↔ IsNumeral text n := by
  rw [Literal.ofText?, ofUnsigned?_dropPlus_eq_some_iff]
  constructor
  · intro h
    exact ⟨trim text.toList, pads_trim _, h⟩
  · rintro ⟨core, hpads, hcore⟩
    rwa [trim_eq_of_pads hpads hcore.unpadded]

/-- A text writes one numeral at most. -/
theorem IsNumeral.unique {text : String} {n m : Literal} (hn : IsNumeral text n) (hm : IsNumeral text m) :
    n = m := by
  rw [← ofText?_eq_some_iff] at hn hm
  exact Option.some.inj (hn.symm.trans hm)

/-- A numeral that has no more decimal digits than a limit allows. -/
def Literal.Within (limit : Option Nat) (n : Literal) : Prop :=
  n.base = 10 → ∀ most ∈ limit, n.digits.length ≤ most

/-- The numerals that are read: those with up to 4300 decimal digits. -/
def readable : Option Nat := some Numeral.maxDecimalDigits

theorem isTooLong_eq_false_iff {n : Literal} : n.isTooLong = false ↔ n.Within readable := by
  simp [Literal.isTooLong, Literal.Within, readable]

/-- A number is read exactly from the numerals for it that are short and small enough. -/
theorem readUint_eq_ok_iff {width : Width} {text : String} {value : Nat} :
    readUint width text = .ok value ↔
      ∃ n, IsNumeral text n ∧ n.Within readable ∧ n.value < width.limit ∧ n.value = value := by
  constructor
  · intro h
    unfold readUint at h
    split at h
    · exact absurd h (by simp)
    · rename_i n hn
      split at h
      · exact absurd h (by simp)
      · rename_i hshort
        split at h
        · rename_i hsmall
          refine ⟨n, ofText?_eq_some_iff.mp hn, ?_, hsmall, Except.ok.inj h⟩
          exact isTooLong_eq_false_iff.mp (Bool.eq_false_iff.mpr hshort)
        · exact absurd h (by simp)
  · rintro ⟨n, hn, hshort, hsmall, rfl⟩
    unfold readUint
    rw [ofText?_eq_some_iff.mpr hn]
    simp only [isTooLong_eq_false_iff.mpr hshort, Bool.false_eq_true, if_false, if_pos hsmall]

/-- Why a text is no number of a width that can be read: it is no numeral or the number is too large, or its numeral
has too many digits. -/
inductive Unreadable (limit : Option Nat) (width : Width) (text : String) : Cause → Prop where
  | unfit (h : ∀ n, IsNumeral text n → n.Within limit ∧ width.limit ≤ n.value) :
      Unreadable limit width text (.badScalar text (.uint width))
  | long {n : Literal} (isNumeral : IsNumeral text n) (long : ¬ n.Within limit) :
      Unreadable limit width text (.numeralTooLong n.digits.length)

theorem readUint_eq_error_iff {width : Width} {text : String} {cause : Cause} :
    readUint width text = .error cause ↔ Unreadable readable width text cause := by
  constructor
  · intro h
    unfold readUint at h
    split at h
    · rename_i hnone
      rw [← Except.error.inj h]
      refine Unreadable.unfit fun n hn => ?_
      rw [ofText?_eq_some_iff.mpr hn] at hnone
      exact absurd hnone (by simp)
    · rename_i n hn
      have hnum := ofText?_eq_some_iff.mp hn
      split at h
      · rename_i hlong
        rw [← Except.error.inj h]
        refine Unreadable.long hnum ?_
        rw [← isTooLong_eq_false_iff, hlong]
        simp
      · rename_i hshort
        split at h
        · exact absurd h (by simp)
        · rename_i hlarge
          rw [← Except.error.inj h]
          refine Unreadable.unfit fun m hm => ?_
          rw [← hnum.unique hm]
          exact ⟨isTooLong_eq_false_iff.mp (Bool.eq_false_iff.mpr hshort), Nat.le_of_not_lt hlarge⟩
  · intro h
    unfold readUint
    cases h with
    | unfit h =>
      cases hn : Literal.ofText? text with
      | none => rfl
      | some n =>
        obtain ⟨hshort, hlarge⟩ := h n (ofText?_eq_some_iff.mp hn)
        simp only [isTooLong_eq_false_iff.mpr hshort, Bool.false_eq_true, if_false,
          if_neg (Nat.not_lt_of_le hlarge)]
    | @long n hnum hlong =>
      rw [← isTooLong_eq_false_iff, Bool.not_eq_false] at hlong
      rw [ofText?_eq_some_iff.mpr hnum]
      simp only [hlong, if_true]

/-! ## Written numbers -/

theorem isHex_digitChar : ∀ n < 16, Numeral.isHex (Nat.digitChar n) = true := by decide

theorem isDecimal_digitChar : ∀ n < 10, Numeral.isDecimal (Nat.digitChar n) = true := by decide

/-- The digits of a number have the properties of the digits below the base. -/
theorem forall_mem_digits {base : Nat} (hb : 1 < base) {p : Char → Prop}
    (hp : ∀ n < base, p (Nat.digitChar n)) (n : Nat) : ∀ c ∈ Numeral.digits base n, p c := by
  induction n using Nat.strongRecOn with
  | _ n ih =>
    intro c hc
    by_cases h : n < base
    · rw [Numeral.digits, Nat.toDigits_of_lt_base h, List.mem_singleton] at hc
      rw [hc]
      exact hp n h
    · have hle : base ≤ n := Nat.le_of_not_lt h
      rw [Numeral.digits, Nat.toDigits_of_base_le hb hle, List.mem_append, List.mem_singleton] at hc
      cases hc with
      | inl hfront => exact ih (n / base) (Nat.div_lt_self (by omega) hb) c hfront
      | inr hlast =>
        rw [hlast]
        exact hp (n % base) (Nat.mod_lt n (by omega))

/-- The decimal numeral of a number writes it. -/
theorem isNumeral_decimal (n : Nat) : IsNumeral (Numeral.decimal n) ⟨10, Numeral.digits 10 n⟩ := by
  refine ⟨Numeral.digits 10 n, ⟨[], [], by simp, by simp, by simp [Numeral.decimal]⟩, ?_⟩
  exact Signed.bare (Unsigned.decimal Nat.toDigits_ne_nil
    (forall_mem_digits (by decide) isDecimal_digitChar n))

theorem limit_le (width : Width) : width.limit ≤ 18446744073709551616 := by
  cases width <;> decide

/-- A number of a width reads back from its decimal numeral, which is short. -/
theorem readUint_decimal {width : Width} {n : Nat} (h : n < width.limit) :
    readUint width (Numeral.decimal n) = .ok n := by
  have hvalue : Numeral.value 10 (Numeral.digits 10 n) = n := Numeral.value_digits (by decide) (by decide) n
  refine readUint_eq_ok_iff.mpr ⟨_, isNumeral_decimal n, ?_, ?_, hvalue⟩
  · intro _ most hmost
    have hlength : (Nat.toDigits 10 n).length ≤ 20 := by
      rw [Nat.length_toDigits_le_iff (by decide) (by decide)]
      exact Nat.lt_of_lt_of_le (Nat.lt_of_lt_of_le h (limit_le width)) (by decide)
    have hmost : most = 4300 := (Option.some.inj hmost).symm
    rw [hmost]
    exact Nat.le_trans hlength (by decide)
  · rw [Literal.value, hvalue]
    exact h

/-! ## Truth words -/

/-- The words for a truth value. -/
def truthWords : Bool → List String
  | true => ["true", "yes", "on", "y"]
  | false => ["false", "no", "off", "n"]

/-- A scalar that writes a truth value: one of the words for it in any case, padded. -/
def IsTruth (text : String) (value : Bool) : Prop :=
  ∃ core : List Char, Pads core text.toList ∧ lowerCase core ∈ truthWords value

theorem toLower_of_isBlank {c : Char} (h : isBlank c = true) : c.toLower = c := by
  have hupper : ¬ (c.val ≥ 'A'.val ∧ c.val ≤ 'Z'.val) := by
    simp only [isBlank, Bool.or_eq_true, Bool.and_eq_true, decide_eq_true_eq, beq_iff_eq] at h
    rw [ge_iff_le, UInt32.le_iff_toNat_le, UInt32.le_iff_toNat_le]
    change ¬ (65 ≤ c.toNat ∧ c.toNat ≤ 90)
    omega
  exact dif_neg hupper

/-- No character of a truth word is padding. -/
theorem not_isBlank_of_truthWord {word : String} {value : Bool} (h : word ∈ truthWords value) :
    ∀ c ∈ word.toList, isBlank c = false := by
  intro c hc
  have hall : word.toList.all (fun c => !isBlank c) = true := by
    cases value <;> simp only [truthWords, List.mem_cons, List.not_mem_nil, or_false] at h <;>
      rcases h with rfl | rfl | rfl | rfl <;> decide
  simpa using List.all_eq_true.mp hall c hc

theorem trim_of_truth {core text : List Char} {value : Bool} (hpads : Pads core text)
    (hword : lowerCase core ∈ truthWords value) : trim text = core := by
  apply trim_eq_of_pads hpads
  intro c hc
  cases hblank : isBlank c with
  | false => rfl
  | true =>
    have hmem : c ∈ (lowerCase core).toList := by
      rw [lowerCase, String.toList_ofList]
      exact List.mem_map.mpr ⟨c, hc, toLower_of_isBlank hblank⟩
    rw [not_isBlank_of_truthWord hword c hmem] at hblank
    exact absurd hblank (by simp)

theorem isTruth_iff {text : String} {value : Bool} :
    IsTruth text value ↔ lowerCase (trim text.toList) ∈ truthWords value := by
  constructor
  · rintro ⟨core, hpads, hword⟩
    rwa [trim_of_truth hpads hword]
  · intro h
    exact ⟨trim text.toList, pads_trim _, h⟩

/-- No word is for both truth values. -/
theorem truthWords_disjoint {word : String} (h : word ∈ truthWords true) : word ∉ truthWords false := by
  simp only [truthWords, List.mem_cons, List.not_mem_nil, or_false] at h
  rcases h with rfl | rfl | rfl | rfl <;> decide

/-- A truth value is read exactly from the words for it. -/
theorem readBool_eq_ok_iff {text : String} {value : Bool} :
    readBool text = .ok value ↔ IsTruth text value := by
  rw [isTruth_iff]
  show (if lowerCase (trim text.toList) ∈ truthWords true then Except.ok true
    else if lowerCase (trim text.toList) ∈ truthWords false then Except.ok false
    else Except.error (Cause.badScalar text .bool)) = Except.ok value ↔ _
  by_cases ht : lowerCase (trim text.toList) ∈ truthWords true
  · have hf := truthWords_disjoint ht
    cases value <;> simp [ht, hf]
  · by_cases hf : lowerCase (trim text.toList) ∈ truthWords false <;> cases value <;> simp [ht, hf]

/-- A truth value is refused exactly for a text that is no truth word. -/
theorem readBool_eq_error_iff {text : String} {cause : Cause} :
    readBool text = .error cause ↔ cause = .badScalar text .bool ∧ ∀ value, ¬ IsTruth text value := by
  simp only [isTruth_iff, Bool.forall_bool]
  show (if lowerCase (trim text.toList) ∈ truthWords true then Except.ok true
    else if lowerCase (trim text.toList) ∈ truthWords false then Except.ok false
    else Except.error (Cause.badScalar text .bool)) = Except.error cause ↔ _
  by_cases ht : lowerCase (trim text.toList) ∈ truthWords true
  · simp [ht]
  · by_cases hf : lowerCase (trim text.toList) ∈ truthWords false <;> simp [ht, hf, eq_comm]

end Postmortem.Node
