import Postmortem.Files.Lookup
set_option autoImplicit false

/-!
# Files: where a path leads

A path that begins with a tilde begins with a home directory.  Every path is resolved to a location without links before
it is used.  The names are taken one after the other, and nothing needs to exist: a name that is no link stays, and two
full stops undo the name before them, whatever it is.  Where a link leads is found out once.  A link that leads back to
itself cannot be resolved; its own place and the rest of the way are then left as they are written.
-/

namespace Postmortem.Files

/-- Where a path leads. -/
inductive Resolved where
  /-- a location that no link leads away from; there need not be anything -/
  | place (location : Location)
  /-- the place of a link that leads to itself, with the rest of the path followed as it is written -/
  | loop (location : Location)
  /-- nowhere, because a name holds a null character -/
  | nullCharacter
  deriving DecidableEq, Repr

/-! ## The way -/

/-- A part of the way to a place. -/
inductive Errand where
  /-- to follow a name -/
  | name (name : String)
  /-- to note where a link leads, its own path being at its end -/
  | arrive (link : Location)
  deriving DecidableEq, Repr

/-- The links that were met, the latest news first, each with the place that it leads to; nothing for a link that is
still being followed. -/
abbrev Known : Type := List (Location × Option Location)

/-- Follows a name as it is written. -/
def plainStep (here : Location) (name : String) : Location :=
  if name = "" ∨ name = "." then here else if name = ".." then here.dropLast else here ++ [name]

/-- Whether a name follows. -/
def hasName : List Errand → Bool
  | .name _ :: _ => true
  | _ => false

/-- Follows what is left of the way as it is written.  At the start of what is left of one path, `fresh`, an empty name
with more behind it goes back to the top. -/
def plainly (fresh : Bool) (here : Location) : List Errand → Location
  | [] => here
  | .arrive _ :: rest => plainly true here rest
  | .name name :: rest =>
    plainly false (plainStep (if fresh && name = "" && hasName rest then [] else here) name) rest

/-- The names of a path that lead from one place to another. -/
def steps (path : String) : List String := (pathParts path).filter fun name => name ≠ "" ∧ name ≠ "."

/-! ## Home directories -/

/-- The user whose home directory a path begins with, and the names behind it. -/
def homeUser? (path : String) : Option (String × List String) :=
  if isAbsolute path then none
  else
    match steps path with
    | [] => none
    | first :: rest =>
      match first.toList with
      | '~' :: user => some (String.ofList user, rest)
      | _ => none

namespace Homes

/-- The path of the home directory of a user; the user who looks goes without a name.  An empty path is that of the top,
and one that begins with a tilde itself is of no use. -/
def of? (homes : Homes) (user : String) : Option String :=
  match if user = "" then homes.own else homes.named.lookup user with
  | none => none
  | some "" => some "/"
  | some home => if home.toList.head? = some '~' then none else some home

/-- The path of the home directory of a user, if the user can be asked for and the directory is known. -/
def find (homes : Homes) (user : String) : Except Fault String :=
  if hasNull user then .error .nullInPath
  else
    match homes.of? user with
    | none => .error .noHome
    | some home => .ok home

/-- The path with the home directory in place of the tilde that it begins with, and of the name of a user behind it. -/
def expand (homes : Homes) (path : String) : Except Fault String :=
  match homeUser? path with
  | none => .ok path
  | some (user, rest) =>
    match homes.find user with
    | .error fault => .error fault
    | .ok home => .ok ("/".intercalate (home :: rest))

end Homes

/-! ## Resolving -/

namespace Tree

/-- Goes the way from a place on.  `follow` goes on when a link is met for the first time. -/
def walk (t : Tree) (follow : Known → Location → List Errand → Resolved) :
    Known → Location → List Errand → Resolved
  | _, here, [] => .place here
  | known, here, .arrive link :: rest => walk t follow ((link, some here) :: known) here rest
  | known, here, .name name :: rest =>
    if name = "" ∨ name = "." then walk t follow known here rest
    else if name = ".." then walk t follow known here.dropLast rest
    else if hasNull name then .nullCharacter
    else
      let next := here ++ [name]
      match t.link? next, known.lookup next with
      | none, _ => walk t follow known next rest
      | some _, some (some there) => walk t follow known there rest
      | some _, some none => .loop (plainly true next rest)
      | some target, none =>
        follow ((next, none) :: known) (if isAbsolute target then [] else here)
          ((pathParts target).map .name ++ .arrive next :: rest)

/-- Goes the way from a place on; at most `links` links are still to be met. -/
def walkWithin (t : Tree) : (links : Nat) → Known → Location → List Errand → Resolved
  | 0 => walk t fun _ here rest => .loop (plainly true here rest)
  | links + 1 => walk t (walkWithin t links)

/-- Where names lead from a place.  Each link is followed once, so no more are met than there are. -/
def resolveFrom (t : Tree) (start : Location) (parts : List String) : Resolved :=
  walkWithin t (linkCount t.top) [] start (parts.map .name)

/-- The place that a path starts from. -/
def startOf (t : Tree) (path : String) : Location := if isAbsolute path then [] else t.workingDirectory

/-- Where a path leads. -/
def resolve (t : Tree) (path : String) : Resolved := t.resolveFrom (t.startOf path) (steps path)

/-- A location unless it cannot be looked up: because a link leads to itself, or because of a null character. -/
def reachable (t : Tree) (l : Location) : Except Fault Location :=
  match t.look l with
  | .error .tooManyLinks => .error (.linkLoop l.path)
  | .error .nullCharacter => .error .nullInPath
  | _ => .ok l

/-- The location that a path leads to as it is written. -/
def destination (t : Tree) (path : String) : Except Fault Location :=
  match t.resolve path with
  | .place l => t.reachable l
  | .loop l => t.reachable l
  | .nullCharacter => .error .nullInPath

/-- The location that a path leads to. -/
def place (t : Tree) (path : String) : Except Fault Location :=
  match t.homes.expand path with
  | .error fault => .error fault
  | .ok path => t.destination path

/-! ## Growth -/

/-- The tree with an entry at a location, unless the location is unknown. -/
def putAt (t : Tree) (entry : Entry) : Resolved → Tree
  | .place l => { t with top := Entries.put entry t.top l }
  | _ => t

/-- The tree with an entry at a path.  A file goes where links lead, a directory that is there already stays as it is,
and a link stands where its own name says. -/
def add (t : Tree) (path : String) (entry : Entry) : Tree :=
  match entry with
  | .file _ => t.putAt entry (t.resolve path)
  | .directory _ =>
    match t.resolve path with
    | .place l =>
      match t.entry? l with
      | some (.directory _) => t
      | _ => t.putAt entry (.place l)
    | _ => t
  | .link _ =>
    match t.resolveFrom (t.startOf path) (steps path).dropLast, (steps path).getLast? with
    | .place directory, some name => t.putAt entry (.place (directory ++ [name]))
    | _, _ => t

end Tree

end Postmortem.Files
