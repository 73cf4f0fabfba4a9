import Postmortem.CommandLine.Run
set_option autoImplicit false

/-!
# The command

Takes a picture of the directory that is to be searched, runs the command on it, and prints what it leaves behind.  Of
the files in the picture only those with the searched name have their octets.  Home directories are taken from the
environment and from the list of users.
-/

namespace Postmortem.Disk

open Postmortem.Files

/-- What the links below a directory lead to. -/
abbrev Targets : Type := List (Location × Entry)

/-- The location of an absolute path. -/
def locationOf (path : String) : Location := (pathParts path).filter (· ≠ "")

/-- A file, with its octets if they are wanted. -/
def fileEntry (wanted : Bool) (path : String) : IO Entry := do
  if wanted then
    let octets ← IO.FS.readBinFile path
    return .file octets.toList
  else return .file []

/-- A link and what it leads to.  One that leads nowhere is shown as leading to itself. -/
def linkEntry (wanted : Bool) (path : String) : IO (Entry × Targets) := do
  try
    let target ← IO.FS.realPath path
    let metadata ← target.metadata
    let place := locationOf target.toString
    match metadata.type with
    | .file =>
      let file ← fileEntry wanted target.toString
      return (.link target.toString, [(place, file)])
    | _ => return (.link target.toString, [(place, .directory [])])
  catch _ => return (.link path, [])

/-- The entries of a directory, and what the links in it and below it lead to. -/
partial def picture (name directory : String) : IO (Entries × Targets) := do
  let mut entries : Entries := []
  let mut targets : Targets := []
  for found in ← (← IO.FS.realPath directory).readDir do
    let path := found.path.toString
    let metadata ← found.path.symlinkMetadata
    let wanted := found.fileName == name
    match metadata.type with
    | .dir =>
      let (inner, more) ← picture name path
      entries := entries.insert found.fileName (.directory inner)
      targets := targets ++ more
    | .file => entries := entries.insert found.fileName (← fileEntry wanted path)
    | .symlink =>
      let (link, more) ← linkEntry wanted path
      entries := entries.insert found.fileName link
      targets := targets ++ more
    | .other => pure ()
  return (entries, targets)

/-- A tree with what a link leads to.  What is there already stays as it is, but a file gets its octets. -/
def addTarget (t : Tree) (target : Location × Entry) : Tree :=
  match target.2, t.entry? target.1 with
  | .directory _, some _ => t
  | .file [], some _ => t
  | entry, _ => { t with top := Entries.put entry t.top target.1 }

/-- The home directories: the one that the environment names, and those in the list of users. -/
def knownHomes : IO Homes := do
  let users ← try IO.FS.lines "/etc/passwd" catch _ => pure #[]
  let named := users.toList.filterMap fun line =>
    match line.splitOn ":" with
    | [user, _, _, _, _, home, _] => some (user, home)
    | _ => none
  return { own := ← IO.getEnv "HOME", named := named }

/-- The tree that a search for a name below a directory needs, and the directory's own path. -/
def treeFor (homes : Homes) (name directory : String) : IO (Tree × String) := do
  let workingDirectory := locationOf (← IO.currentDir).toString
  let start : Tree :=
    { top := Entries.put (.directory []) [] workingDirectory, workingDirectory := workingDirectory, homes := homes }
  let expanded := match homes.expand directory with
    | .ok path => path
    | .error _ => directory
  try
    let path := (← IO.FS.realPath (if expanded == "" then "." else expanded)).toString
    let metadata ← (← IO.FS.realPath path).metadata
    match metadata.type with
    | .dir =>
      let (entries, targets) ← picture name path
      let top := if path == "/" then entries else Entries.put (.directory entries) start.top (locationOf path)
      return (targets.foldl addTarget { start with top := top }, path)
    | _ => return (addTarget start (locationOf path, .file []), path)
  catch _ => return (start, directory)

/-- Prints what a run leaves behind.  A fault that stops the run is printed by its message. -/
def leave : CommandLine.Ending → IO UInt32
  | .finished result => do
    IO.print result.stdout
    IO.eprint result.stderr
    return result.exit.toUInt32
  | .stopped fault => do
    IO.eprintln fault.message
    return 1

end Postmortem.Disk

open Postmortem in
/-- Runs the command with its arguments. -/
def main (arguments : List String) : IO UInt32 := do
  match CommandLine.Request.ofArguments arguments with
  | .run options =>
    let homes ← Disk.knownHomes
    let (tree, directory) ← Disk.treeFor homes (options.fileName.getD "") options.directory
    Disk.leave (CommandLine.runWith tree { options with directory := directory })
  | request => Disk.leave (CommandLine.perform { top := [] } request)
