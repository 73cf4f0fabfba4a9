import Postmortem.Yaml.Cursor
set_option autoImplicit false

/-!
# Yaml: tokens

The tokens of a text and the stream that they come in.  The stream is read from the front, and a fault stands at
the place where it is met: a reader that stops before it never learns of it.
-/

namespace Postmortem.Yaml

/-- A line at the head of a document that begins with a percent sign. -/
inductive Directive where
  /-- the version of the language -/
  | version (major : Nat)
  /-- the meaning of a tag handle -/
  | tagHandle (handle : String)
  /-- any other directive is skipped -/
  | reserved
  deriving DecidableEq, Repr

/-- A token. -/
inductive Token where
  | directive (content : Directive)
  | documentStart
  | documentEnd
  | blockSequenceStart
  | blockMappingStart
  | blockEnd
  | flowSequenceStart
  | flowSequenceEnd
  | flowMappingStart
  | flowMappingEnd
  | blockEntry
  | flowEntry
  | key
  | value
  | alias (name : String)
  | anchor (name : String)
  /-- a tag, with its handle unless it is written in full -/
  | tag (handle : Option String)
  | scalar (text : String)
  deriving DecidableEq, Repr

/-- The tokens of a text in order, up to its end or to the first fault. -/
inductive Tokens where
  | next (token : Token) (rest : Tokens)
  | finished
  | broken (fault : Fault)
  deriving Repr

namespace Tokens

/-- The tokens of a list before those of a stream. -/
def prepend (front : List Token) (stream : Tokens) : Tokens :=
  front.foldr .next stream

/-- The number of tokens before the end or the fault. -/
def length : Tokens → Nat
  | .next _ rest => rest.length + 1
  | .finished => 0
  | .broken _ => 0

/-- The first token, left in the stream. -/
def peek : Tokens → Except Fault (Option Token)
  | .next token _ => .ok (some token)
  | .finished => .ok none
  | .broken fault => .error fault

end Tokens

end Postmortem.Yaml
