import Postmortem.Text.Numeral
import Postmortem.Yaml.Cursor
set_option autoImplicit false

/-!
# Yaml: block scalars

A block scalar is the indented lines below a header.  A vertical bar keeps its line breaks, a greater-than sign
folds those between two lines of text.  The header can fix the indentation and what happens to the breaks at the
end.
-/

namespace Postmortem.Yaml.Block

open Postmortem.Text

/-- What becomes of the line breaks at the end. -/
inductive Chomping where
  /-- none is kept -/
  | strip
  /-- the last line keeps its break -/
  | clip
  /-- all are kept -/
  | keep
  deriving DecidableEq, Repr

/-- The first line of a block scalar. -/
structure Header where
  folded : Bool
  chomping : Chomping
  /-- the indentation beyond that of the enclosing block, when it is written -/
  increment : Option Nat
  deriving DecidableEq, Repr

/-- The chomping indicator, if one stands here. -/
def readChomping (c : Cursor) : Option Chomping × Cursor :=
  match c.peek with
  | some '+' => (some .keep, c.next)
  | some '-' => (some .strip, c.next)
  | _ => (none, c)

/-- The indentation indicator, if one stands here; zero is none. -/
def readIncrement : Step (Option Nat) := fun c =>
  match c.peek with
  | some x =>
    if Numeral.isDecimal x then
      if x == '0' then .error .malformed else .ok (some (Numeral.digitValue x), c.next)
    else .ok (none, c)
  | none => .ok (none, c)

/-- The header from its first character on; the two indicators come in either order. -/
def readHeader (folded : Bool) : Step Header := fun c =>
  let (first, c) := readChomping c.next
  match readIncrement c with
  | .error fault => .error fault
  | .ok (increment, c) =>
    let (second, c) := if first.isSome then (none, c) else readChomping c
    if endsWord c.peek then
      match c.finishLine with
      | .error fault => .error fault
      | .ok below => .ok (⟨folded, (first.or second).getD .clip, increment⟩, below)
    else .error .malformed

/-- The spaces before column `indent`. -/
def skipIndent (indent : Nat) (c : Cursor) : Cursor :=
  c.skip ((c.rest.take (indent - c.column)).takeWhile (· == ' ')).length

/-- The empty lines in front of the next line of text, up to column `indent` of it. -/
def readBreaks (indent : Nat) : (fuel : List Char) → Cursor → List Char × Cursor
  | [], c => ([], c)
  | _ :: fuel, c =>
    let c := skipIndent indent c
    match c.lineBreak? with
    | none => ([], c)
    | some (lineBreak, below) =>
      let (more, stop) := readBreaks indent fuel below
      (lineBreak :: more, stop)

/-- The empty lines in front of the first line of text, and the largest column reached in them or before it. -/
def readIndentation : (fuel : List Char) → (deepest : Nat) → Cursor → List Char × Nat × Cursor
  | [], deepest, c => ([], deepest, c)
  | _ :: fuel, deepest, c =>
    let c := c.skipSpaces
    let deepest := max deepest c.column
    match c.lineBreak? with
    | none => ([], deepest, c)
    | some (lineBreak, below) =>
      let (more, deepest, stop) := readIndentation fuel deepest below
      (lineBreak :: more, deepest, stop)

/-- Whether a line of text stands at the cursor. -/
def atLine (indent : Nat) (c : Cursor) : Bool := c.column == indent && !c.rest.isEmpty

/-- The lines of text from here on, behind the empty lines `breaks`, ended as the header says. -/
def readLines (header : Header) (indent : Nat) :
    (fuel : List Char) → (breaks : List Char) → Cursor → List Char × Cursor
  | [], _, c => ([], c)
  | _ :: fuel, breaks, c =>
    let (line, stop) := c.spanLine
    let (ending, below) : List Char × Cursor :=
      match stop.lineBreak? with
      | some (lineBreak, below) => ([lineBreak], below)
      | none => ([], stop)
    let (others, behind) := readBreaks indent below.fuel below
    if atLine indent behind then
      let joint :=
        if header.folded && ending == ['\n'] && !c.peek.any isSpaceOrTab && !behind.peek.any isSpaceOrTab then
          if others.isEmpty then [' '] else []
        else ending
      let (more, last) := readLines header indent fuel others behind
      (breaks ++ line ++ joint ++ more, last)
    else
      let tail : List Char :=
        match header.chomping with
        | .strip => []
        | .clip => ending
        | .keep => ending ++ others
      (breaks ++ line ++ tail, behind)

/-- The empty lines in front of the first line of text, the column of the text, and where that line should stand.
The text is no further left than column `least`. -/
def readFront (header : Header) (least : Nat) (c : Cursor) : List Char × Nat × Cursor :=
  match header.increment with
  | none =>
    let (breaks, deepest, start) := readIndentation c.fuel 0 c
    (breaks, max least deepest, start)
  | some increment =>
    let indent := least + increment - 1
    let (breaks, start) := readBreaks indent c.fuel c
    (breaks, indent, start)

/-- A block scalar inside a block whose entries may stand at column `outer` or further right. -/
def read (folded : Bool) (outer : Nat) : Step String := fun c =>
  match readHeader folded c with
  | .error fault => .error fault
  | .ok (header, below) =>
    let (breaks, indent, start) := readFront header (max outer 1) below
    if atLine indent start then
      let (text, behind) := readLines header indent start.fuel breaks start
      .ok (String.ofList text, behind)
    else
      .ok (if header.chomping == .keep then String.ofList breaks else "", start)

end Postmortem.Yaml.Block
