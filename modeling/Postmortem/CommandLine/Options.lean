import Postmortem.Config
import Postmortem.Text.Digit
set_option autoImplicit false

/-!
# Command line: options

The arguments of the command.  There is one directory to search, and options may stand before or behind it.  A long
option can be cut short as long as it stays unambiguous, its value can follow an equals sign, and two hyphens end the
options.  What an argument is, is decided for all arguments before any is acted on; the options are then gone through
in order, so the request for help wins over any fault behind it.
-/

namespace Postmortem.CommandLine

/-- What the command is asked to do. -/
structure Options where
  directory : String
  /-- nothing if the name was to be the mark that ends the options, which is no name -/
  fileName : Option String := some defaultFileName
  quietIgnored : Bool := false
  checkProgress : Bool := false
  deriving DecidableEq, Repr

/-- Why arguments are not understood. -/
inductive Misuse where
  /-- an option could be meant in several ways -/
  | ambiguous (argument : String) (candidates : List String)
  /-- the directory is missing -/
  | noDirectory
  /-- arguments are left over -/
  | unrecognized (arguments : List String)
  /-- an option lacks its value -/
  | noValue (option : String)
  /-- an option has a value that it does not take -/
  | strayValue (option value : String)
  deriving DecidableEq, Repr

/-- The message about arguments that are not understood. -/
def Misuse.message : Misuse → String
  | .ambiguous argument candidates =>
    "ambiguous option: " ++ argument ++ " could match " ++ ", ".intercalate candidates
  | .noDirectory => "the following arguments are required: search_dir"
  | .unrecognized arguments => "unrecognized arguments: " ++ " ".intercalate arguments
  | .noValue option => "argument " ++ option ++ ": expected one argument"
  | .strayValue option value => "argument " ++ option ++ ": ignored explicit argument " ++ Text.quote value

/-- What the arguments ask for. -/
inductive Request where
  | run (options : Options)
  | help
  | misuse (fault : Misuse)
  deriving DecidableEq, Repr

/-! ## Kinds of arguments -/

/-- The options that there are. -/
inductive Switch where
  | help
  | name
  | quietIgnored
  | checkProgress
  deriving DecidableEq, Repr

/-- The spellings of the options, in the order in which they are tried. -/
def spellings : List (String × Switch) := [
  ("-h", .help), ("--help", .help), ("--name", .name), ("--quiet-ignored", .quietIgnored),
  ("--check-progress", .checkProgress)]

/-- How an option is named in messages. -/
def Switch.title : Switch → String
  | .help => "-h/--help"
  | .name => "--name"
  | .quietIgnored => "--quiet-ignored"
  | .checkProgress => "--check-progress"

/-- What an argument is. -/
inductive Argument where
  /-- a directory or a value -/
  | plain (text : String)
  /-- the mark that ends the options -/
  | separator
  /-- an option, whether it is spelled with one hyphen, and the value that is joined to it -/
  | switch (option : Switch) (short : Bool) (joined : Option String)
  /-- an option that there is none of -/
  | unknown (text : String)
  deriving DecidableEq, Repr

/-- A text before its first equals sign, and the text behind it if there is one. -/
def splitValue (text : List Char) : List Char × Option (List Char) :=
  match text.dropWhile (· != '=') with
  | [] => (text, none)
  | _ :: value => (text.takeWhile (· != '='), some value)

/-- The options that a text with two hyphens in front can be cut short from. -/
def longMatches (text : List Char) : List (String × Argument) :=
  let (stem, value) := splitValue text
  (spellings.filter fun s => stem.isPrefixOf s.1.toList).map fun (spelling, option) =>
    (spelling, .switch option false (value.map String.ofList))

/-- The options that a text with one hyphen in front can be: a letter with a value joined to it, or a short form. -/
def shortMatches (text : List Char) : List (String × Argument) :=
  spellings.filterMap fun (spelling, option) =>
    if spelling.toList = text.take 2 then
      some (spelling, .switch option true (some (String.ofList (text.drop 2))))
    else if text.isPrefixOf spelling.toList then some (spelling, .switch option false none)
    else none

/-- A text without the line feed at its end. -/
def dropFinalBreak (text : List Char) : List Char :=
  if text.getLast? = some '\n' then text.dropLast else text

/-- A minus sign and digits of any script, with at most one full stop before the last of them.  A line feed may
follow. -/
def isNegativeNumber : List Char → Bool
  | '-' :: text =>
    let number := dropFinalBreak text
    let whole := number.takeWhile Text.isDigit
    match number.dropWhile Text.isDigit with
    | [] => !whole.isEmpty
    | '.' :: decimals => !decimals.isEmpty && decimals.all Text.isDigit
    | _ => false
  | _ => false

/-- The option that is spelled exactly so, or so before an equals sign. -/
def exactSwitch? (argument : String) : Option Argument :=
  let short : Bool := argument.toList.take 2 != ['-', '-']
  match spellings.lookup argument with
  | some option => some (.switch option short none)
  | none =>
    match splitValue argument.toList with
    | (stem, some value) =>
      (spellings.lookup (String.ofList stem)).map fun option => .switch option short (some (String.ofList value))
    | (_, none) => none

/-- What an argument is that begins with a hyphen, has more characters, and is no option in its exact spelling. -/
def classifyCut (argument : String) : Except Misuse Argument :=
  let text := argument.toList
  let found := if text.take 2 = ['-', '-'] then longMatches text else shortMatches text
  match found with
  | [(_, option)] => .ok option
  | _ :: _ :: _ => .error (.ambiguous argument (found.map Prod.fst))
  | [] =>
    if isNegativeNumber text || text.contains ' ' then .ok (.plain argument) else .ok (.unknown argument)

/-- What an argument is, in front of the mark that ends the options. -/
def classify (argument : String) : Except Misuse Argument :=
  match argument.toList with
  | '-' :: _ :: _ =>
    match exactSwitch? argument with
    | some option => .ok option
    | none => classifyCut argument
  | _ => .ok (.plain argument)

/-- What the arguments are. -/
def classifyAll : List String → Except Misuse (List Argument)
  | [] => .ok []
  | argument :: rest =>
    if argument = "--" then .ok (.separator :: rest.map .plain)
    else
      match classify argument with
      | .error fault => .error fault
      | .ok kind =>
        match classifyAll rest with
        | .error fault => .error fault
        | .ok kinds => .ok (kind :: kinds)

/-! ## Options in order -/

/-- What is known from the arguments that were gone through. -/
structure Progress where
  directory : Option String := none
  fileName : Option String := some defaultFileName
  quietIgnored : Bool := false
  checkProgress : Bool := false
  /-- the arguments that were of no use, the latest first -/
  leftOver : List String := []

/-- The request, once all arguments have been gone through. -/
def Progress.finish (p : Progress) : Request :=
  match p.directory with
  | none => .misuse .noDirectory
  | some directory =>
    if p.leftOver.isEmpty then .run ⟨directory, p.fileName, p.quietIgnored, p.checkProgress⟩
    else .misuse (.unrecognized p.leftOver.reverse)

/-- An option without a value. -/
def Progress.turnOn (p : Progress) : Switch → Progress
  | .quietIgnored => { p with quietIgnored := true }
  | .checkProgress => { p with checkProgress := true }
  | _ => p

/-- The file name behind the option for it. -/
def Progress.named (p : Progress) (name : String) : Progress := { p with fileName := some name }

/-- The file name that is joined to the option for it.  The mark that ends the options takes the name away. -/
def Progress.namedJoined (p : Progress) (name : String) : Progress :=
  { p with fileName := if name = "--" then none else some name }

/-- What letters joined to a short option ask for.  Only more letters for help may follow. -/
def joinedLetters (value : String) : Request :=
  match value.toList.dropWhile (· = 'h') with
  | [] => .help
  | rest => .misuse (.strayValue Switch.help.title (String.ofList rest))

/-- Goes through the arguments.  The first plain one is the directory, which the mark that ends the options may
stand before or behind. -/
def goThrough (p : Progress) : List Argument → Request
  | [] => p.finish
  | .plain text :: .separator :: rest =>
    match p.directory with
    | none => goThrough { p with directory := some text } rest
    | some _ => goThrough { p with leftOver := "--" :: text :: p.leftOver } rest
  | .plain text :: rest =>
    match p.directory with
    | none => goThrough { p with directory := some text } rest
    | some _ => goThrough { p with leftOver := text :: p.leftOver } rest
  | .separator :: .plain text :: rest =>
    match p.directory with
    | none => goThrough { p with directory := some text } rest
    | some _ => goThrough { p with leftOver := text :: "--" :: p.leftOver } rest
  | .separator :: rest => goThrough { p with leftOver := "--" :: p.leftOver } rest
  | .unknown text :: rest => goThrough { p with leftOver := text :: p.leftOver } rest
  | .switch .name _ (some value) :: rest => goThrough (p.namedJoined value) rest
  | .switch .name _ none :: .plain value :: rest => goThrough (p.named value) rest
  | .switch .name _ none :: _ => .misuse (.noValue Switch.name.title)
  | .switch .help _ none :: _ => .help
  | .switch .help true (some value) :: _ =>
    if value = "" then .misuse (.strayValue Switch.help.title value) else joinedLetters value
  | .switch option _ (some value) :: _ => .misuse (.strayValue option.title value)
  | .switch option _ none :: rest => goThrough (p.turnOn option) rest

/-- What the arguments of the command ask for. -/
def Request.ofArguments (arguments : List String) : Request :=
  match classifyAll arguments with
  | .error fault => .misuse fault
  | .ok kinds => goThrough {} kinds

end Postmortem.CommandLine
