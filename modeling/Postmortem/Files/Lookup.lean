import Postmortem.Fault
import Postmortem.Files.Tree
set_option autoImplicit false

/-!
# Files: what stands at a location

A location is looked up name by name.  Whatever has more of the path behind it has to be a directory, a link is
followed wherever it stands, and the system sets limits: to the length of a name, to the length of the whole path, and
to the number of links on the way.
-/

namespace Postmortem.Files

/-- Why nothing is found at a location. -/
inductive Obstacle where
  /-- there is nothing with a name on the way -/
  | missing
  /-- something on the way is no directory -/
  | notDirectory
  /-- there are more links on the way than are followed -/
  | tooManyLinks
  /-- a name, or the whole path, is longer than it can be -/
  | tooLong
  /-- a path ends at a null character, so none can be in it -/
  | nullCharacter
  deriving DecidableEq, Repr

/-- The number of links that are followed on the way to a location. -/
def maxLinks : Nat := 40

/-- The number of octets that a name can have. -/
def maxNameOctets : Nat := 255

/-- The number of octets that a path can have. -/
def maxPathOctets : Nat := 4095

/-- Whether a text holds a null character. -/
def hasNull (text : String) : Bool := text.toList.contains '\x00'

namespace Tree

/-- Looks names up from a directory on.  `follow` goes on with the names that a link brings in. -/
def lookParts (t : Tree) (follow : Location → List String → Except Obstacle Entry) :
    Location → List String → Except Obstacle Entry
  | here, [] =>
    match t.entry? here with
    | some entry => .ok entry
    | none => .error .missing
  | here, name :: rest =>
    match t.entry? here with
    | none => .error .missing
    | some (.directory _) =>
      if name = "" ∨ name = "." then lookParts t follow here rest
      else if name = ".." then lookParts t follow here.dropLast rest
      else if maxNameOctets < name.utf8ByteSize then .error .tooLong
      else
        match t.link? (here ++ [name]) with
        | none => lookParts t follow (here ++ [name]) rest
        | some target => follow (if isAbsolute target then [] else here) (pathParts target ++ rest)
    | some _ => .error .notDirectory

/-- Looks names up from a directory on, following at most `links` links. -/
def lookFrom (t : Tree) : (links : Nat) → Location → List String → Except Obstacle Entry
  | 0, here, parts => lookParts t (fun _ _ => .error .tooManyLinks) here parts
  | links + 1, here, parts => lookParts t (lookFrom t links) here parts

/-- What stands at a location when links are followed: a file or a directory. -/
def look (t : Tree) (l : Location) : Except Obstacle Entry :=
  if hasNull l.path then .error .nullCharacter
  else if maxPathOctets < l.path.utf8ByteSize then .error .tooLong
  else lookFrom t maxLinks [] l

/-- What stands at a location, nothing if there is nothing.  Only a path that is too long to be looked up is a fault. -/
def target (t : Tree) (l : Location) : Except Fault (Option Entry) :=
  match t.look l with
  | .ok entry => .ok (some entry)
  | .error .tooLong => .error (.pathTooLong l.path)
  | .error _ => .ok none

/-- Whether a location is that of a regular file or of a link that leads to one. -/
def isFile (t : Tree) (l : Location) : Except Fault Bool :=
  match t.target l with
  | .error fault => .error fault
  | .ok (some (.file _)) => .ok true
  | .ok _ => .ok false

end Tree

end Postmortem.Files
