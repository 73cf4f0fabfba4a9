import Postmortem.Yaml.Directive
import Postmortem.Yaml.Scalar.Block
import Postmortem.Yaml.Scalar.Plain
import Postmortem.Yaml.Scalar.Quoted
set_option autoImplicit false

/-!
# Yaml: tokens of a text

Indentation opens and closes blocks, and a key is recognised only by the colon behind it.  So a layout carries the
columns of the open blocks, and for the block level and for each open bracket the place where a key may have begun.
The tokens from such a place on are held back until the colon comes or the place is given up; a place is given up
when its line ends or when the text goes on for more than 1024 characters.
-/

namespace Postmortem.Yaml

/-- A place where a key may have begun. -/
structure Candidate where
  /-- the block can only go on with a key here -/
  required : Bool
  position : Position
  /-- the tokens from that place on -/
  held : List Token
  deriving Repr

namespace Candidate

/-- The length of the longest key that is recognised by the colon behind it. -/
def reach : Nat := 1024

/-- Whether the text at `here` is beyond the reach of a candidate. -/
def isStale (k : Candidate) (here : Position) : Bool :=
  k.position.line != here.line || reach < here.index - k.position.index

end Candidate

/-- The candidates of the levels, the innermost level first; the last one is the block level. -/
abbrev Levels : Type := List (Option Candidate)

namespace Levels

/-- Hands tokens to the innermost candidate.  Without one they are free, and are given back. -/
def hold (tokens : List Token) : Levels → List Token × Levels
  | [] => (tokens, [])
  | some k :: outer => ([], some { k with held := k.held ++ tokens } :: outer)
  | none :: outer =>
    let (free, outer) := hold tokens outer
    (free, none :: outer)

/-- Gives up the candidate of the innermost level; a required one may not be given up. -/
def giveUp : Levels → Except Fault (List Token × Levels)
  | some k :: outer =>
    if k.required then .error .malformed
    else
      let (free, outer) := hold k.held outer
      .ok (free, none :: outer)
  | levels => .ok ([], levels)

/-- Gives up the candidates that are out of reach. -/
def giveUpStale (here : Position) : Levels → Except Fault (List Token × Levels)
  | [] => .ok ([], [])
  | level :: outer =>
    match giveUpStale here outer with
    | .error fault => .error fault
    | .ok (freed, outer) =>
      match level with
      | none => .ok (freed, none :: outer)
      | some k =>
        if k.isStale here then
          match giveUp (some k :: outer) with
          | .error fault => .error fault
          | .ok (more, levels) => .ok (freed ++ more, levels)
        else .ok (freed, some k :: outer)

/-- All tokens that are held back, in order. -/
def allHeld (levels : Levels) : List Token :=
  levels.reverse.flatMap fun level => (level.map Candidate.held).getD []

end Levels

/-- How far a text has been cut into tokens. -/
structure Layout where
  cursor : Cursor
  /-- the columns of the open blocks, the innermost first -/
  indents : List Nat
  /-- a key may begin here -/
  keyAllowed : Bool
  levels : Levels
  /-- the tokens that are not held back, as far as they have not been handed on -/
  free : List Token
  deriving Repr

namespace Layout

/-- The layout before a text.  A byte order mark in front of it is dropped. -/
def ofText (text : List Char) : Layout :=
  let start := Cursor.ofText text
  let cursor := if start.peek == some '\ufeff' then start.next else start
  ⟨cursor, [], true, [none], []⟩

/-- Whether a bracket is open. -/
def context (s : Layout) : Context := if s.levels.length ≤ 1 then .block else .flow

/-- The column from which the lines of the innermost block count as inside it. -/
def inside (s : Layout) : Nat :=
  match s.indents with
  | [] => 0
  | column :: _ => column + 1

/-- Adds tokens behind those that there are. -/
def emit (s : Layout) (tokens : List Token) : Layout :=
  let (free, levels) := s.levels.hold tokens
  { s with free := s.free ++ free, levels := levels }

/-- Gives up the candidate of the innermost level. -/
def giveUp (s : Layout) : Except Fault Layout :=
  match s.levels.giveUp with
  | .error fault => .error fault
  | .ok (free, levels) => .ok { s with free := s.free ++ free, levels := levels }

/-- Gives up the candidates that are out of reach. -/
def giveUpStale (s : Layout) : Except Fault Layout :=
  match s.levels.giveUpStale s.cursor.position with
  | .error fault => .error fault
  | .ok (free, levels) => .ok { s with free := s.free ++ free, levels := levels }

/-- Closes the blocks that are open at a column further right than `column`, or all blocks.  Inside brackets
indentation has no meaning. -/
def closeBlocks (s : Layout) (column : Option Nat) : Layout :=
  match s.context with
  | .flow => s
  | .block =>
    let deeper : Nat → Bool := fun c => column.all (· < c)
    { s.emit ((s.indents.takeWhile deeper).map fun _ => .blockEnd) with
      indents := s.indents.dropWhile deeper }

/-- Whether a block at this column would be a new one. -/
def opensBlock (s : Layout) (column : Nat) : Bool := s.inside ≤ column

/-- Opens a block at a column, unless the innermost one already stands there. -/
def openBlock (s : Layout) (column : Nat) (token : Token) : Layout :=
  if s.opensBlock column then { s.emit [token] with indents := column :: s.indents } else s

/-- Notes that a key may begin here. -/
def noteCandidate (s : Layout) : Except Fault Layout :=
  if s.keyAllowed then
    match s.giveUp with
    | .error fault => .error fault
    | .ok s =>
      let required := s.context == .block && s.indents.head? == some s.cursor.column
      .ok { s with levels := some ⟨required, s.cursor.position, []⟩ :: s.levels.drop 1 }
  else .ok s

/-- The cursor at the next token, and whether a line break was passed.  Spaces, comments and line breaks are
skipped; `comment` tells whether a comment runs here. -/
def skipToToken (comment : Bool) : List Char → Position → Bool × Cursor
  | [], here => (false, ⟨[], here⟩)
  | x :: more, here =>
    if isBreak x then (true, (skipToToken false more (here.after x more.head?)).2)
    else if comment then skipToToken true more (here.after x more.head?)
    else if x == ' ' then skipToToken false more (here.after x more.head?)
    else if x == '#' then skipToToken true more (here.after x more.head?)
    else (false, ⟨x :: more, here⟩)

/-- Moves to the next token.  In a block, a key may begin on a new line. -/
def advance (s : Layout) : Layout :=
  let (crossed, cursor) := skipToToken false s.cursor.rest s.cursor.position
  { s with cursor := cursor, keyAllowed := s.keyAllowed || (crossed && s.context == .block) }

/-! ## One token -/

/-- Closes all blocks before something that stands outside the document's content. -/
def leaveContent (s : Layout) : Except Fault Layout :=
  match (s.closeBlocks none).giveUp with
  | .error fault => .error fault
  | .ok s => .ok { s with keyAllowed := false }

/-- A directive. -/
def readDirective (s : Layout) : Except Fault Layout :=
  match s.leaveContent with
  | .error fault => .error fault
  | .ok s =>
    match Yaml.readDirective s.cursor with
    | .error fault => .error fault
    | .ok (content, below) => .ok { s.emit [.directive content] with cursor := below }

/-- A mark between documents. -/
def readDocumentMark (s : Layout) (token : Token) : Except Fault Layout :=
  match s.leaveContent with
  | .error fault => .error fault
  | .ok s => .ok { s.emit [token] with cursor := s.cursor.skip 3 }

/-- An opening bracket, which may begin a key. -/
def openBracket (s : Layout) (token : Token) : Except Fault Layout :=
  match s.noteCandidate with
  | .error fault => .error fault
  | .ok s =>
    let s := s.emit [token]
    .ok { s with cursor := s.cursor.next, levels := none :: s.levels, keyAllowed := true }

/-- A closing bracket; one that closes nothing is refused. -/
def closeBracket (s : Layout) (token : Token) : Except Fault Layout :=
  match s.giveUp with
  | .error fault => .error fault
  | .ok s =>
    match s.levels with
    | _ :: outer :: more =>
      let s := { s with levels := outer :: more }
      .ok { s.emit [token] with cursor := s.cursor.next, keyAllowed := false }
    | _ => .error .malformed

/-- A comma between the parts of a collection in brackets. -/
def readComma (s : Layout) : Except Fault Layout :=
  match s.giveUp with
  | .error fault => .error fault
  | .ok s => .ok { s.emit [.flowEntry] with cursor := s.cursor.next, keyAllowed := true }

/-- A hyphen before an entry of a sequence.  A block sequence can only begin where a key could. -/
def readHyphen (s : Layout) : Except Fault Layout :=
  if s.context == .block && !s.keyAllowed then .error .malformed
  else
    let s := if s.context == .block then s.openBlock s.cursor.column .blockSequenceStart else s
    match s.giveUp with
    | .error fault => .error fault
    | .ok s => .ok { s.emit [.blockEntry] with cursor := s.cursor.next, keyAllowed := true }

/-- A question mark before a key. -/
def readQuestionMark (s : Layout) : Except Fault Layout :=
  if s.context == .block && !s.keyAllowed then .error .malformed
  else
    let s := if s.context == .block then s.openBlock s.cursor.column .blockMappingStart else s
    match s.giveUp with
    | .error fault => .error fault
    | .ok s => .ok { s.emit [.key] with cursor := s.cursor.next, keyAllowed := s.context == .block }

/-- A colon that shows a candidate to be a key: the key token goes in front of the tokens held since. -/
def confirmKey (s : Layout) (k : Candidate) : Layout :=
  let s := { s with levels := none :: s.levels.drop 1 }
  let opens := s.context == .block && s.opensBlock k.position.column
  let front : List Token := if opens then [.blockMappingStart, .key] else [.key]
  let indents := if opens then k.position.column :: s.indents else s.indents
  { s.emit (front ++ k.held) with indents := indents, keyAllowed := false }

/-- A colon without a candidate: the value of a key that was written with a question mark, or of no key. -/
def readLoneColon (s : Layout) : Except Fault Layout :=
  if s.context == .block && !s.keyAllowed then .error .malformed
  else
    let s := if s.context == .block then s.openBlock s.cursor.column .blockMappingStart else s
    match s.giveUp with
    | .error fault => .error fault
    | .ok s => .ok { s with keyAllowed := s.context == .block }

/-- A colon before a value. -/
def readColon (s : Layout) : Except Fault Layout :=
  let before : Except Fault Layout :=
    match s.levels with
    | some k :: _ => .ok (s.confirmKey k)
    | _ => s.readLoneColon
  match before with
  | .error fault => .error fault
  | .ok s => .ok { s.emit [.value] with cursor := s.cursor.next }

/-- A token that may begin a key. -/
def readNodePart (s : Layout) (read : Step Token) : Except Fault Layout :=
  match s.noteCandidate with
  | .error fault => .error fault
  | .ok s =>
    match read s.cursor with
    | .error fault => .error fault
    | .ok (token, behind) => .ok { s.emit [token] with cursor := behind, keyAllowed := false }

/-- A plain scalar, which may begin a key; a key may begin behind it if it left its line. -/
def readPlain (s : Layout) : Except Fault Layout :=
  match s.noteCandidate with
  | .error fault => .error fault
  | .ok s =>
    let (text, keyAllowed, behind) := Plain.read s.context s.inside s.cursor
    .ok { s.emit [.scalar text] with cursor := behind, keyAllowed := keyAllowed }

/-- A block scalar, which cannot be a key. -/
def readBlockScalar (s : Layout) (folded : Bool) : Except Fault Layout :=
  match s.giveUp with
  | .error fault => .error fault
  | .ok s =>
    match Block.read folded s.inside s.cursor with
    | .error fault => .error fault
    | .ok (text, below) => .ok { s.emit [.scalar text] with cursor := below, keyAllowed := true }

/-- A reader whose value becomes a token. -/
def asToken {α : Type} (token : α → Token) (read : Step α) : Step Token := fun c =>
  match read c with
  | .error fault => .error fault
  | .ok (content, behind) => .ok (token content, behind)

/-- Reads the token that begins with `x`, which is the next character. -/
def readToken (s : Layout) (x : Char) : Except Fault Layout :=
  let following := s.cursor.peekAt 1
  let flow := s.context == .flow
  if x == '%' && s.cursor.column == 0 then s.readDirective
  else if s.cursor.column == 0 && s.cursor.atDocumentMark then
    s.readDocumentMark (if x == '-' then .documentStart else .documentEnd)
  else if x == '[' then s.openBracket .flowSequenceStart
  else if x == '{' then s.openBracket .flowMappingStart
  else if x == ']' then s.closeBracket .flowSequenceEnd
  else if x == '}' then s.closeBracket .flowMappingEnd
  else if x == ',' then s.readComma
  else if x == '-' && endsToken following then s.readHyphen
  else if x == '?' && (flow || endsToken following) then s.readQuestionMark
  else if x == ':' && (flow || endsToken following) then s.readColon
  else if x == '*' then s.readNodePart (asToken .alias fun c => readAnchorName c.next)
  else if x == '&' then s.readNodePart (asToken .anchor fun c => readAnchorName c.next)
  else if x == '!' then s.readNodePart (asToken .tag readTag)
  else if x == '|' && !flow then s.readBlockScalar false
  else if x == '>' && !flow then s.readBlockScalar true
  else if x == '\'' then s.readNodePart (asToken .scalar (Quoted.read .single))
  else if x == '"' then s.readNodePart (asToken .scalar (Quoted.read .double))
  else if Plain.opens s.context x following then s.readPlain
  else .error .malformed

/-- Moves to the next token and reads it; nothing when the text is at its end. -/
def step (s : Layout) : Except Fault (Option Layout × Layout) :=
  match s.advance.giveUpStale with
  | .error fault => .error fault
  | .ok s =>
    let s := s.closeBlocks (some s.cursor.column)
    match s.cursor.peek with
    | none => .ok (none, s)
    | some x =>
      match s.readToken x with
      | .error fault => .error fault
      | .ok after => .ok (some after, s)

/-- The tokens at the end of the text: all blocks are closed and nothing is held back any more. -/
def finish (s : Layout) : Tokens :=
  let s := s.closeBlocks none
  match s.levels.giveUp with
  | .error fault => .broken fault
  | .ok _ => .prepend (s.free ++ s.levels.allHeld) .finished

/-- The tokens from here on, of which at most `fuel` are read. -/
def run : (fuel : Nat) → Layout → Tokens
  | 0, _ => .broken .malformed
  | fuel + 1, s =>
    match s.step with
    | .error fault => .broken fault
    | .ok (none, s) => s.finish
    | .ok (some after, _) =>
      match after.giveUpStale with
      | .error fault => .broken fault
      | .ok s => .prepend s.free (run fuel { s with free := [] })

end Layout

/-- The tokens of a text.  A text with a character that YAML does not allow has none. -/
def Tokens.ofText (text : String) : Tokens :=
  if text.toList.all isAllowed then (Layout.ofText text.toList).run (text.length + 1)
  else .broken .malformed

end Postmortem.Yaml
