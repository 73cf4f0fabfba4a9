set_option autoImplicit false

/-!
# Files: trees

A tree of files, directories and links, and the names that paths are made of.  Directories list their entries by name,
in the order of code points.  A link is a path of its own, read from the directory that the link stands in.
-/

namespace Postmortem.Files

/-- Something with a name in a directory. -/
inductive Entry where
  | file (octets : List UInt8)
  | directory (entries : List (String × Entry))
  | link (target : String)
  deriving Repr

/-- The entries of a directory, by name. -/
abbrev Entries : Type := List (String × Entry)

/-- A place in the tree: the names on the way from the top. -/
abbrev Location : Type := List String

/-- The home directories that are known, by their paths. -/
structure Homes where
  /-- that of the user who looks -/
  own : Option String := none
  /-- those of users by their names -/
  named : List (String × String) := []
  deriving Repr

/-- A tree of files with the directory that relative paths start from, and the home directories. -/
structure Tree where
  top : Entries
  workingDirectory : Location := []
  homes : Homes := {}
  deriving Repr

/-! ## Entries -/

namespace Entries

/-- The entries with one added at its place, or replaced. -/
def insert (name : String) (entry : Entry) : Entries → Entries
  | [] => [(name, entry)]
  | (other, old) :: rest =>
    if name < other then (name, entry) :: (other, old) :: rest
    else if name = other then (name, entry) :: rest
    else (other, old) :: insert name entry rest

/-- The entry at a location; links are not followed. -/
def find? : Entries → Location → Option Entry
  | _, [] => none
  | entries, [name] => entries.lookup name
  | entries, name :: more =>
    match entries.lookup name with
    | some (.directory inner) => find? inner more
    | _ => none

/-- The entries with one put at a location.  Directories on the way are made if they are missing. -/
def put (entry : Entry) : Entries → Location → Entries
  | entries, [] => entries
  | entries, [name] => insert name entry entries
  | entries, name :: more =>
    let inner : Entries :=
      match entries.lookup name with
      | some (.directory inner) => inner
      | _ => []
    insert name (.directory (put entry inner more)) entries

end Entries

mutual

/-- The number of links among some entries and below them. -/
def linkCount : List (String × Entry) → Nat
  | [] => 0
  | (_, entry) :: rest => linkCountOf entry + linkCount rest

/-- The number of links in an entry. -/
def linkCountOf : Entry → Nat
  | .link _ => 1
  | .directory entries => linkCount entries
  | .file _ => 0

end

/-! ## Paths -/

/-- The parts of a text between its slashes. -/
def splitSlashes : List Char → List (List Char)
  | [] => [[]]
  | c :: rest =>
    if c = '/' then [] :: splitSlashes rest
    else
      match splitSlashes rest with
      | first :: more => (c :: first) :: more
      | [] => [[c]]

/-- The names that a path is made of. -/
def pathParts (path : String) : List String := (splitSlashes path.toList).map String.ofList

/-- Whether a path starts from the top. -/
def isAbsolute (path : String) : Bool := path.toList.head? == some '/'

/-- A location as an absolute path. -/
def Location.path (l : Location) : String := "/" ++ "/".intercalate l

namespace Tree

/-- The entry at a location; at the top stands a directory. -/
def entry? (t : Tree) (l : Location) : Option Entry :=
  if l.isEmpty then some (.directory t.top) else Entries.find? t.top l

/-- The target of the link at a location, if a link stands there. -/
def link? (t : Tree) (l : Location) : Option String :=
  match t.entry? l with
  | some (.link target) => some target
  | _ => none

end Tree

end Postmortem.Files
