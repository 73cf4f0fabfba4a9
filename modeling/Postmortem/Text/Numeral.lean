set_option autoImplicit false

/-!
# Text: numerals

Digits, the value of a digit string, and the two ways numbers are written: in base ten, and in base sixteen with
lower case letters.  The main statement is `value_digits`: a numeral reads back to its number.
-/

namespace Postmortem.Text.Numeral

/-- A digit of base ten. -/
def isDecimal (c : Char) : Bool := '0' ≤ c && c ≤ '9'

/-- A digit of base sixteen, in either case. -/
def isHex (c : Char) : Bool :=
  isDecimal c || ('a' ≤ c && c ≤ 'f') || ('A' ≤ c && c ≤ 'F')

/-- The value of a digit of base sixteen; other characters count as zero. -/
def digitValue (c : Char) : Nat :=
  if isDecimal c then c.toNat - '0'.toNat
  else if 'a' ≤ c && c ≤ 'f' then c.toNat - 'a'.toNat + 10
  else if 'A' ≤ c && c ≤ 'F' then c.toNat - 'A'.toNat + 10
  else 0

/-- The value of a digit string in a base, the first digit being the heaviest. -/
def value (base : Nat) (digits : List Char) : Nat :=
  digits.foldl (fun v c => v * base + digitValue c) 0

/-- The length of the longest digit string that is read as a decimal number. -/
def maxDecimalDigits : Nat := 4300

/-- The digits of a number in a base up to sixteen, without leading zeros. -/
def digits (base n : Nat) : List Char :=
  Nat.toDigits base n

/-- The decimal numeral of a number. -/
def decimal (n : Nat) : String := String.ofList (digits 10 n)

/-- The numeral of a number in base sixteen, without a mark of the base. -/
def hex (n : Nat) : String := String.ofList (digits 16 n)

/-- The numeral of an integer in base sixteen: the base is marked, and the sign stands behind the mark. -/
def signedHex : Int → String
  | .ofNat n => "0x" ++ hex n
  | .negSucc n => "0x-" ++ hex (n + 1)

theorem value_append (base : Nat) (front back : List Char) :
    value base (front ++ back) = back.foldl (fun v c => v * base + digitValue c) (value base front) := by
  simp [value, List.foldl_append]

theorem value_concat (base : Nat) (front : List Char) (c : Char) :
    value base (front ++ [c]) = value base front * base + digitValue c := by
  simp [value_append]

/-- The digit written for a value below sixteen has that value. -/
theorem digitValue_digitChar : ∀ n < 16, digitValue (Nat.digitChar n) = n := by decide

/-- A numeral reads back to its number. -/
theorem value_digits {base : Nat} (hb : 1 < base) (hs : base ≤ 16) (n : Nat) :
    value base (digits base n) = n := by
  induction n using Nat.strongRecOn with
  | _ n ih =>
    by_cases h : n < base
    · rw [digits, Nat.toDigits_of_lt_base h]
      simp [value, digitValue_digitChar n (by omega)]
    · have hle : base ≤ n := by omega
      rw [digits, Nat.toDigits_of_base_le hb hle, value_concat]
      have := ih (n / base) (Nat.div_lt_self (by omega) hb)
      rw [digits] at this
      rw [this, digitValue_digitChar _ (by have := Nat.mod_lt n (by omega : 0 < base); omega)]
      exact Nat.div_add_mod' n base

end Postmortem.Text.Numeral
