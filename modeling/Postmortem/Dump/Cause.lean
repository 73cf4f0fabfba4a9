import Postmortem.Dump.Entity
import Postmortem.Node.Shape
import Postmortem.Text.Quoted
set_option autoImplicit false

/-!
# Dump: why a node is refused

A node is refused for a cause.  The cause says what was expected or found; where the node stands is kept beside it.
-/

namespace Postmortem

open Postmortem.Node

/-- The widths of unsigned numbers. -/
inductive Width where
  | w32
  | w64
  deriving DecidableEq, Repr

/-- The number of bits of a width. -/
def Width.bits : Width → Nat
  | .w32 => 32
  | .w64 => 64

/-- The least number that has too many bits for a width. -/
def Width.limit (w : Width) : Nat := Nat.pow 2 w.bits

/-- What a scalar is read as. -/
inductive Target where
  | string
  | bool
  | uint (width : Width)
  deriving DecidableEq, Repr

/-- How a target is named in messages. -/
def Target.name : Target → String
  | .string => "string"
  | .bool => "bool"
  | .uint .w32 => "uint32"
  | .uint .w64 => "uint64"

/-- What is expected of a node. -/
inductive Expected where
  | map
  | sequence
  | scalarKey
  | scalar (target : Target)
  | entityMap (entity : Entity)
  deriving DecidableEq, Repr

/-- How an expectation is named in messages. -/
def Expected.name : Expected → String
  | .map => "map"
  | .sequence => "sequence"
  | .scalarKey => "scalar key"
  | .scalar target => "scalar (" ++ target.name ++ ")"
  | .entityMap entity => entity.label ++ " map"

/-- Why a node is refused. -/
inductive Cause where
  /-- a map has a key that its entity does not know -/
  | unknownKey (entity : Entity) (key : String)
  /-- a scalar is no handle -/
  | malformedHandle (token : String)
  /-- a node has the wrong kind -/
  | wrongShape (expected : Expected) (found : Kind)
  /-- a scalar cannot be read as what it should be -/
  | badScalar (text : String) (target : Target)
  /-- a setting is given twice -/
  | duplicateSetting (key : String)
  /-- a device has command buffers in both listings -/
  | bothListings (incomplete all : Nat)
  /-- a decimal numeral has more digits than are read -/
  | numeralTooLong (digits : Nat)
  deriving DecidableEq, Repr

namespace Cause

/-- The message about a numeral with too many digits. -/
def numeralMessage (digits : Nat) : String :=
  "Exceeds the limit (" ++ Text.Numeral.decimal Text.Numeral.maxDecimalDigits
    ++ " digits) for integer string conversion: value has " ++ Text.Numeral.decimal digits
    ++ " digits; use sys.set_int_max_str_digits() to increase the limit"

/-- The message about a cause, without the place. -/
def message : Cause → String
  | .unknownKey entity key => "Unknown " ++ entity.label ++ " key: " ++ key
  | .malformedHandle token => "Bad handle value: " ++ Text.quote token
  | .wrongShape expected found => "Expected " ++ expected.name ++ " node, found " ++ found.name
  | .badScalar text target => "Cannot convert " ++ Text.quote text ++ " to " ++ target.name
  | .duplicateSetting key => "Duplicate settings key: " ++ key
  | .bothListings incomplete all =>
    "Device reports both IncompleteCommandBuffers (" ++ Text.Numeral.decimal incomplete
      ++ ") and AllCommandBuffers (" ++ Text.Numeral.decimal all ++ ")"
  | .numeralTooLong digits => numeralMessage digits

/-- Whether a cause lies in the format of the dump.  The length of numerals is a limit of the reader. -/
def isFormat : Cause → Bool
  | .numeralTooLong _ => false
  | _ => true

end Cause

end Postmortem
