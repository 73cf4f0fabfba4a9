import Postmortem.Fault
set_option autoImplicit false

/-!
# Configuration

What can be chosen about finding and reading a dump: the name of its file, the encoding, and whether remarks are kept.
The name is a bare file name, because the search compares it with single components of paths.
-/

namespace Postmortem

/-- The file name that dumps have by default. -/
def defaultFileName : String := "cdl_dump.yaml"

/-- Whether a name has no directory in front and is not empty. -/
def isBareFileName (name : String) : Bool :=
  name != "" && !name.toList.contains '/' && !name.toList.contains '\\'

theorem isBareFileName_default : isBareFileName defaultFileName = true := by
  decide +kernel

/-- How a dump is found and read. -/
structure Config where
  fileName : String := defaultFileName
  encoding : String := "utf-8"
  /-- a remark is kept for each value that is not looked at -/
  recordIgnored : Bool := true
  bare : isBareFileName fileName = true := by first | exact isBareFileName_default | decide +kernel
  deriving DecidableEq, Repr

namespace Config

/-- The configuration with the given choices, unless the name is not a bare file name. -/
def make (fileName encoding : String) (recordIgnored : Bool) : Except Fault Config :=
  if h : isBareFileName fileName = true then .ok ⟨fileName, encoding, recordIgnored, h⟩
  else .error (.badFileName (some fileName))

/-- A choice about one field. -/
inductive Choice where
  | fileName (name : String)
  | encoding (name : String)
  | recordIgnored (choice : Bool)
  /-- there is no field with this name -/
  | unknown (field : String)
  deriving DecidableEq, Repr

/-- The name that stands for the configuration itself, which is given already. -/
def ownName : String := "self"

/-- The fault of a choice that is about no field. -/
def misnamed (field : String) : Fault :=
  if field = ownName then .givenTwice field else .unknownField field

/-- The name of the first choice that is about no field. -/
def unknownField? (choices : List Choice) : Option String :=
  choices.findSome? fun
    | .unknown field => some field
    | _ => none

/-- The configuration with some choices.  The last choice about a field counts, and fields without one have their
default. -/
def ofChoices (choices : List Choice) : Except Fault Config :=
  match unknownField? choices with
  | some field => .error (misnamed field)
  | none =>
    let last {τ : Type} (default : τ) (pick : Choice → Option τ) : τ :=
      (choices.reverse.findSome? pick).getD default
    make
      (last defaultFileName fun | .fileName name => some name | _ => none)
      (last "utf-8" fun | .encoding name => some name | _ => none)
      (last true fun | .recordIgnored choice => some choice | _ => none)

/-- The choices that a configuration stands for. -/
def choices (c : Config) : List Choice :=
  [.fileName c.fileName, .encoding c.encoding, .recordIgnored c.recordIgnored]

/-- A configuration is what its choices make. -/
theorem ofChoices_choices (c : Config) : ofChoices c.choices = .ok c := by
  simp [ofChoices, choices, unknownField?, make, c.bare]

end Config

end Postmortem
