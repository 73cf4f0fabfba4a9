import Postmortem.Text.Numeral
set_option autoImplicit false

/-!
# Handles and versions

A handle is the address of an object of the graphics interface with the debug name of the object, written as
`0x7f3a2c10 [VkInstance]`.  A version is a text that is kept as it is, because each producer has a format of its own.
-/

namespace Postmortem

open Postmortem.Text

/-- An object of the graphics interface. -/
structure Handle where
  /-- the address -/
  value : Nat := 0
  /-- the debug name, as it stands between the brackets -/
  name : String := ""
  deriving DecidableEq, Repr

namespace Handle

/-- The handle that stands for no object. -/
def isNull (h : Handle) : Bool := h.value == 0

/-- The written form of a handle with any number as its address. -/
def written (value : Int) (name : String) : String :=
  Numeral.signedHex value ++ " [" ++ name ++ "]"

/-- The written form of a handle. -/
def toText (h : Handle) : String := written h.value h.name

/-- Addresses have 64 bits. -/
def addressLimit : Nat := Nat.pow 2 64

/-- The name between an opening bracket and a closing bracket that ends the text.  A name may hold anything but a
line feed. -/
def bracketedName? : List Char → Option (List Char)
  | '[' :: more =>
    if more.getLast? = some ']' ∧ '\n' ∉ more.dropLast then some more.dropLast else none
  | _ => none

/-- The handle that a text writes: a marked hexadecimal numeral below the limit, spaces, and a name in brackets. -/
def parse? (token : String) : Option Handle :=
  match token.toList with
  | '0' :: 'x' :: text =>
    let numeral := text.takeWhile Numeral.isHex
    let value := Numeral.value 16 numeral
    match bracketedName? ((text.dropWhile Numeral.isHex).dropWhile (· == ' ')) with
    | some name =>
      if numeral ≠ [] ∧ value < addressLimit then some ⟨value, String.ofList name⟩ else none
    | none => none
  | _ => none

end Handle

/-- A version in the format of its producer. -/
structure Version where
  /-- the text as it was written -/
  text : String := ""
  deriving DecidableEq, Repr

namespace Version

/-- Any text is a version. -/
def ofText (token : String) : Version := ⟨token⟩

end Version

end Postmortem
