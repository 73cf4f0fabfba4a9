import Postmortem.Dump.Cause
import Postmortem.Text.Blank
set_option autoImplicit false

/-!
# Node: scalars

How the text of a scalar is read as a number, a truth value or a handle.  Numbers and truth values may be padded; a
refusal shows the text with its padding.
-/

namespace Postmortem.Node

open Postmortem.Text

/-! ## Numbers -/

/-- An unsigned numeral: its base and its digits. -/
structure Literal where
  base : Nat
  digits : List Char
  deriving DecidableEq, Repr

namespace Literal

/-- The number that a numeral writes. -/
def value (n : Literal) : Nat := Numeral.value n.base n.digits

/-- A text without its plus sign, if it has one. -/
def dropPlus : List Char → List Char
  | '+' :: more => more
  | text => text

/-- The digits behind a mark of base sixteen. -/
def hexDigits? : List Char → Option (List Char)
  | '0' :: 'x' :: more => some more
  | '0' :: 'X' :: more => some more
  | _ => none

/-- The numeral that a text without a sign is: digits of base sixteen behind their mark, or decimal digits. -/
def ofUnsigned? (text : List Char) : Option Literal :=
  match hexDigits? text with
  | some digits => if digits ≠ [] ∧ digits.all Numeral.isHex then some ⟨16, digits⟩ else none
  | none => if text ≠ [] ∧ text.all Numeral.isDecimal then some ⟨10, text⟩ else none

/-- The numeral that a text is, padding and a plus sign aside. -/
def ofText? (text : String) : Option Literal :=
  ofUnsigned? (dropPlus (trim text.toList))

/-- Whether a numeral has more decimal digits than are read.  Digits of base sixteen are not counted. -/
def isTooLong (n : Literal) : Bool :=
  n.base == 10 && Numeral.maxDecimalDigits < n.digits.length

end Literal

/-- The unsigned number that a text writes. -/
def readUint (width : Width) (text : String) : Except Cause Nat :=
  match Literal.ofText? text with
  | none => .error (.badScalar text (.uint width))
  | some literal =>
    if literal.isTooLong then .error (.numeralTooLong literal.digits.length)
    else if literal.value < width.limit then .ok literal.value
    else .error (.badScalar text (.uint width))

/-! ## Truth values -/

/-- A text with its ASCII letters in lower case.  No other letter has a lower case that a truth word uses. -/
def lowerCase (text : List Char) : String := String.ofList (text.map Char.toLower)

/-- The words for true. -/
def trueWords : List String := ["true", "yes", "on", "y"]

/-- The words for false. -/
def falseWords : List String := ["false", "no", "off", "n"]

/-- The truth value that a text writes, padding and case aside. -/
def readBool (text : String) : Except Cause Bool :=
  let word := lowerCase (trim text.toList)
  if word ∈ trueWords then .ok true
  else if word ∈ falseWords then .ok false
  else .error (.badScalar text .bool)

/-! ## Handles -/

/-- The handle that a text writes. -/
def readHandle (text : String) : Except Cause Handle :=
  match Handle.parse? text with
  | some handle => .ok handle
  | none => .error (.malformedHandle text)

/-! ## Scalars as nodes -/

/-- The text of a scalar that will be read as `target`. -/
def Shape.text {α : Type} (target : Target) : Shape α → Except Cause String
  | .scalar text => .ok text
  | shape => .error (.wrongShape (.scalar target) shape.kind)

/-- Reads the text of a scalar. -/
def Shape.readWith {α τ : Type} (target : Target) (read : String → Except Cause τ) (shape : Shape α) :
    Except Cause τ :=
  match shape.text target with
  | .error cause => .error cause
  | .ok text => read text

end Postmortem.Node
