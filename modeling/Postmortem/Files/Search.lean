import Postmortem.Files.Place
set_option autoImplicit false

/-!
# Files: the search for a dump

Exactly one file below a directory may have the name of the dump.  The search looks at every entry below the
directory, hidden ones too, but does not go through links to directories.  It ends at the second match, so that a
stale dump is noticed.
-/

namespace Postmortem.Files

/-! ## Walk -/

mutual

/-- The locations below the directories among some entries, directory by directory. -/
def walkInner (here : Location) : List (String × Entry) → List Location
  | [] => []
  | (name, entry) :: rest => walkEntry (here ++ [name]) entry ++ walkInner here rest

/-- The locations below an entry: those in a directory, and then those in its subdirectories. -/
def walkEntry (here : Location) : Entry → List Location
  | .directory entries => entries.map (fun e => here ++ [e.1]) ++ walkInner here entries
  | .file _ => []
  | .link _ => []

end

/-! ## The one match -/

/-- Goes through a walk from a root for the only file with a name; `found` is the one that was met already. -/
def decideWalk (t : Tree) (name : String) (root : Location) :
    (found : Option Location) → List Location → Except Fault Location
  | none, [] => .error (.noDump name root.path)
  | some l, [] => .ok l
  | found, l :: rest =>
    match t.isFile l with
    | .error fault => .error fault
    | .ok isFile =>
      if isFile && l.getLast? == some name then
        match found with
        | none => decideWalk t name root (some l) rest
        | some first => .error (.ambiguous name first.path l.path)
      else decideWalk t name root found rest

/-- The location of the only file with a name below a directory. -/
def locate (t : Tree) (name directory : String) : Except Fault Location :=
  match t.place directory with
  | .error fault => .error fault
  | .ok root =>
    match t.target root with
    | .error fault => .error fault
    | .ok (some (.directory entries)) => decideWalk t name root none (walkEntry root (.directory entries))
    | .ok _ => .error (.notDirectory root.path)

end Postmortem.Files
