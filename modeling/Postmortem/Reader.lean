import Postmortem.Config
import Postmortem.Dump.Reading
import Postmortem.Files.Search
import Postmortem.Text.Encoding.Name
import Postmortem.Yaml.Parser
set_option autoImplicit false

/-!
# Reader

Reads a dump from a text, from a file, or from the only dump file below a directory.  The first thing that is wrong
ends the reading; there is no partial result.
-/

namespace Postmortem

/-- A dump that has been read. -/
structure DumpFile where
  content : Dump
  /-- the path of the file, unless a text was read -/
  source : Option String := none
  /-- a line for each value that was not looked at -/
  warnings : List String := []
  deriving DecidableEq, Repr

namespace Reader

/-- The dump in a graph of nodes. -/
def ofGraph {α : Type} (config : Config) (graph : Node.Graph α) (root : Option α) : Except Fault DumpFile :=
  match readDump graph root with
  | .error refusal => .error (.node refusal.cause (Node.render "" refusal.location))
  | .ok (content, remarks) =>
    .ok { content := content, warnings := if config.recordIgnored then remarks.map (·.line "") else [] }

/-- The document in a text that is known by the name `source`. -/
def document (text source : String) (parser : Yaml.Parser := {}) : Except Fault Yaml.Document :=
  match parser.parse text with
  | .error fault => .error (.yaml fault source (parser.complaint text))
  | .ok document => .ok document

/-- The dump in a text that is known by the name `source`. -/
def ofText (config : Config) (text source : String) (parser : Yaml.Parser := {}) : Except Fault DumpFile :=
  match document text source parser with
  | .error fault => .error fault
  | .ok document => ofGraph config document.graph document.root

/-- How a text without a file is known. -/
def anonymous : String := "<string>"

/-- The text of a file with unified line breaks. -/
def decode (config : Config) (path : String) (octets : List UInt8) : Except Fault String :=
  match Text.Encoding.ofName? config.encoding with
  | none =>
    if Text.Encoding.isTransformation config.encoding then .error (.noTextEncoding config.encoding)
    else .error (.unknownEncoding config.encoding)
  | some encoding =>
    match encoding.decode octets with
    | .ok text => .ok (String.ofList (Text.unifyBreaks text))
    | .error (.garbled detail) => .error (.garbled path config.encoding detail)
    | .error .noByteOrder => .error .noByteOrder

/-- The dump in a file. -/
def ofFile (config : Config) (path : String) (octets : List UInt8) (parser : Yaml.Parser := {}) :
    Except Fault DumpFile :=
  match decode config path octets with
  | .error fault => .error fault
  | .ok text =>
    match ofText config text path parser with
    | .error fault => .error fault
    | .ok file => .ok { file with source := some path }

open Files in
/-- The dump in what stands at a location. -/
def ofEntry (config : Config) (parser : Yaml.Parser) (l : Location) : Option Entry → Except Fault DumpFile
  | some (.file octets) =>
    if hasNull config.encoding then .error .nullInEncoding else ofFile config l.path octets parser
  | some (.directory _) => .error (if hasNull config.encoding then .nullInEncoding else .isDirectory l.path)
  | _ => .error (.missingFile l.path)

open Files in
/-- The dump in the file that a path leads to. -/
def ofPath (config : Config) (t : Tree) (path : String) (parser : Yaml.Parser := {}) : Except Fault DumpFile :=
  match t.place path with
  | .error fault => .error fault
  | .ok l =>
    match t.target l with
    | .error fault => .error fault
    | .ok entry => ofEntry config parser l entry

open Files in
/-- The dump in the only dump file below a directory. -/
def ofDirectory (config : Config) (t : Tree) (directory : String) (parser : Yaml.Parser := {}) :
    Except Fault DumpFile :=
  match locate t config.fileName directory with
  | .error fault => .error fault
  | .ok l => ofPath config t l.path parser

end Reader

end Postmortem
