import Postmortem.CommandLine.Options
import Postmortem.Progress.Check
import Postmortem.Summary
set_option autoImplicit false

/-!
# Command line: runs

A run finds the dump below a directory, prints its summary and the remarks, and checks the progress counters if it is
asked to.  It exits with 0 if nothing is wrong, with 1 if the dump is malformed or a check fails, and with 2 if there
is no single dump or the arguments are not understood.
-/

namespace Postmortem.CommandLine

open Postmortem.Text

/-- What a run leaves behind. -/
structure Result where
  exit : Nat
  stdout : String
  stderr : String
  deriving DecidableEq, Repr

/-- How a run ends.  A fault that is neither about the search nor about the format of the dump stops it, and so does an
escape for a surrogate in the dump. -/
inductive Ending where
  | finished (result : Result)
  | stopped (fault : Fault)
  deriving DecidableEq, Repr

/-! ## Fixed texts -/

/-- How the command is called. -/
def usage : String :=
  "usage: validate-cdl-dump [-h] [--name NAME] [--quiet-ignored]\n" ++
  "                         [--check-progress]\n" ++
  "                         search_dir\n"

/-- What the request for help prints. -/
def helpText : String :=
  usage ++
  "\nStrictly read a crash dump and print a summary.\n" ++
  "\npositional arguments:\n" ++
  "  search_dir        Directory searched recursively for the dump file.\n" ++
  "\noptions:\n" ++
  "  -h, --help        show this help message and exit\n" ++
  "  --name NAME       Dump file name (default: " ++ defaultFileName ++ ").\n" ++
  "  --quiet-ignored   Do not report deliberately ignored keys.\n" ++
  "  --check-progress  Also check command buffer progress counters.\n"

/-- The result of a call that is not understood. -/
def misused (message : String) : Result :=
  ⟨2, "", usage ++ "validate-cdl-dump: error: " ++ message ++ "\n"⟩

/-! ## Lines -/

/-- Lines as they are printed, each with a break behind it. -/
def printed (lines : List String) : String := String.join (lines.map (· ++ "\n"))

/-- A warning as a line. -/
def warningLine (text : String) : String := "WARNING: " ++ text

/-- An error as a line. -/
def errorLine (text : String) : String := "ERROR: " ++ text

/-- The command buffers of a dump with the places of their devices. -/
def checkedBuffers (dump : Dump) : List (Nat × CommandBuffer) :=
  dump.devices.zipIdx.flatMap fun (d, device) => d.commandBuffers.map fun cb => (device, cb)

/-- A message about a command buffer of a device. -/
def aboutBuffer (device : Nat) (cb : CommandBuffer) (message : String) : String :=
  "device[" ++ Numeral.decimal device ++ "] " ++ cb.handle.toText ++ ": " ++ message

/-- The warnings of the check of all command buffers. -/
def progressWarnings (dump : Dump) : List String :=
  (checkedBuffers dump).flatMap fun (device, cb) =>
    (Progress.check cb).warnings.map fun w => warningLine (aboutBuffer device cb w.message)

/-- The errors of the check of all command buffers. -/
def progressErrors (dump : Dump) : List String :=
  (checkedBuffers dump).flatMap fun (device, cb) =>
    (Progress.check cb).errors.map fun e => errorLine (aboutBuffer device cb e.message)

/-! ## The run -/

/-- The result for a dump that was read. -/
def report (checkProgress : Bool) (f : DumpFile) : Result :=
  let lines := Summary.entries f ++ f.warnings.map warningLine
  if checkProgress then
    let errors := progressErrors f.content
    ⟨if errors.isEmpty then 0 else 1, printed (lines ++ progressWarnings f.content), printed errors⟩
  else ⟨0, printed lines, ""⟩

/-- The ending for a fault. -/
def failure (fault : Fault) : Ending :=
  if fault.isSearch then .finished ⟨2, "", printed [errorLine fault.message]⟩
  else if fault.isFormat then .finished ⟨1, "", printed [errorLine fault.message]⟩
  else .stopped fault

/-- The configuration that the options ask for. -/
def Options.config (options : Options) : Except Fault Config :=
  match options.fileName with
  | some name => Config.make name "utf-8" (!options.quietIgnored)
  | none => .error (.badFileName none)

/-- Runs the command with its options. -/
def runWith (t : Files.Tree) (options : Options) (parser : Yaml.Parser := {}) : Ending :=
  match options.config with
  | .error fault => .finished (misused fault.message)
  | .ok config =>
    match Reader.ofDirectory config t options.directory parser with
    | .error fault => failure fault
    | .ok f => .finished (report options.checkProgress f)

/-- Does what the arguments ask for. -/
def perform (t : Files.Tree) (request : Request) (parser : Yaml.Parser := {}) : Ending :=
  match request with
  | .help => .finished ⟨0, helpText, ""⟩
  | .misuse fault => .finished (misused fault.message)
  | .run options => runWith t options parser

/-- Runs the command with its arguments. -/
def run (t : Files.Tree) (arguments : List String) (parser : Yaml.Parser := {}) : Ending :=
  perform t (Request.ofArguments arguments) parser

end Postmortem.CommandLine
