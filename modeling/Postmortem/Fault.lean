import Postmortem.Dump.Cause
import Postmortem.Text.Encoding
import Postmortem.Yaml.Cursor
set_option autoImplicit false

/-!
# Faults

Everything that can keep a dump from being found or read, or from passing a check, with the message for each.  Most
faults are about the format of the dump; the others are about files, settings of the reader, and limits.
-/

namespace Postmortem

open Postmortem.Text

/-- Why a dump was not found or not read. -/
inductive Fault where
  /-- a node of the document is refused -/
  | node (cause : Cause) (path : String)
  /-- a text is no YAML document; more may have been said about it -/
  | yaml (fault : Yaml.Fault) (source : String) (complaint : Option String)
  /-- a file is not in its encoding -/
  | garbled (file encoding : String) (detail : Garbled)
  /-- a command buffer has inconsistent counters -/
  | progress (errors : List String)
  /-- there is no such encoding -/
  | unknownEncoding (name : String)
  /-- what has this name turns octets into octets -/
  | noTextEncoding (name : String)
  /-- the name of an encoding holds a null character -/
  | nullInEncoding
  /-- a file lacks the mark that tells its byte order -/
  | noByteOrder
  /-- there is no such file -/
  | missingFile (path : String)
  /-- a directory stands where a file should -/
  | isDirectory (path : String)
  /-- the home directory that a path begins with is unknown -/
  | noHome
  /-- a link leads to itself -/
  | linkLoop (path : String)
  /-- a path, or a name in it, is longer than it can be -/
  | pathTooLong (path : String)
  /-- a path holds a null character -/
  | nullInPath
  /-- the configuration has no such field -/
  | unknownField (name : String)
  /-- the configuration is given this already -/
  | givenTwice (name : String)
  /-- a dump file cannot have this name, or has been given no name at all -/
  | badFileName (name : Option String)
  /-- the search has no directory to start from -/
  | notDirectory (path : String)
  /-- no file has the name that is searched -/
  | noDump (name root : String)
  /-- two files have the name that is searched -/
  | ambiguous (name first second : String)
  /-- a device has no queue with a handle -/
  | noQueue (value : Int) (device : String)
  /-- a dump has no command buffer with a handle -/
  | noCommandBuffer (value : Int)
  deriving DecidableEq, Repr

namespace Fault

/-- A message with the path of the node that it is about, unless that is the root. -/
def located (message path : String) : String :=
  if path = "" then message else message ++ " (at " ++ path ++ ")"

/-- The message about a text that is no document, with what more was said if it is malformed. -/
def yamlMessage (source : String) (complaint : Option String) : Yaml.Fault → String
  | .malformed =>
    match complaint with
    | some words => "Invalid YAML in " ++ source ++ ": " ++ words
    | none => "Invalid YAML in " ++ source
  | .codePoint number =>
    if number < 0x80000000 then "chr() arg not in range(0x110000)"
    else "Python int too large to convert to C int"
  | .surrogate _ => "surrogates not allowed"
  | .versionDigits count => Cause.numeralMessage count

/-- How many octets of the name of an encoding are shown at most. -/
def shownNameOctets : Nat := 400

/-- The message about a fault. -/
def message : Fault → String
  | .node cause path => if cause.isFormat then located cause.message path else cause.message
  | .yaml fault source complaint => yamlMessage source complaint fault
  | .garbled file encoding detail =>
    "Cannot decode " ++ file ++ " as " ++ encoding ++ ": " ++ detail.message
  | .progress errors => "Progress check failed:\n" ++ "\n".intercalate (errors.map ("- " ++ ·))
  | .unknownEncoding name => "unknown encoding: " ++ name
  | .noTextEncoding name =>
    "'" ++ String.ofList (firstOctets shownNameOctets name.toList)
      ++ "' is not a text encoding; use codecs.open() to handle arbitrary codecs"
  | .nullInEncoding => "embedded null character"
  | .noByteOrder => "UTF-16 stream does not start with BOM"
  | .missingFile path => path
  | .isDirectory path => "[Errno 21] Is a directory: " ++ quote path
  | .noHome => "Could not determine home directory."
  | .linkLoop path => "Symlink loop from " ++ quote path
  | .pathTooLong path => "[Errno 36] File name too long: " ++ quote path
  | .nullInPath => "embedded null byte"
  | .unknownField name =>
    "DumpReaderConfig.__init__() got an unexpected keyword argument '" ++ name ++ "'"
  | .givenTwice name => "DumpReaderConfig.__init__() got multiple values for argument '" ++ name ++ "'"
  | .badFileName name => "dump_file_name must be a bare file name, got " ++ (name.map quote).getD "[]"
  | .notDirectory path => "Not a directory: " ++ path
  | .noDump name root => "No '" ++ name ++ "' found under '" ++ root ++ "'."
  | .ambiguous name first second =>
    "More than one '" ++ name ++ "' found: '" ++ first ++ "' and '" ++ second ++ "'."
  | .noQueue value device =>
    "No queue with handle " ++ Numeral.signedHex value ++ " on device '" ++ device ++ "'."
  | .noCommandBuffer value => "No command buffer with handle " ++ Numeral.signedHex value ++ "."

/-- Whether a fault lies in the format of the dump. -/
def isFormat : Fault → Bool
  | .node cause _ => cause.isFormat
  | .yaml fault _ _ => fault == .malformed
  | .garbled .. => true
  | .progress _ => true
  | _ => false

/-- Whether a fault says that there is no single dump file to read. -/
def isSearch : Fault → Bool
  | .notDirectory _ | .noDump .. | .ambiguous .. => true
  | _ => false

end Fault

end Postmortem
