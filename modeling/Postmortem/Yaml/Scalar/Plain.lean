import Postmortem.Yaml.Cursor
set_option autoImplicit false

/-!
# Yaml: plain scalars

A plain scalar has no quotes.  It runs over several lines when the lines below are indented, and the breaks between
its lines are folded.
-/

namespace Postmortem.Yaml

/-- Where a scalar stands: how many brackets enclose it does not matter, only whether any does. -/
inductive Context where
  | block
  | flow
  deriving DecidableEq, Repr

namespace Plain

/-- Whether a colon before this character separates a key from its value. -/
def separates (context : Context) (following : Option Char) : Bool :=
  endsToken following || (context == .flow && following.any isFlowIndicator)

/-- Whether a character belongs to the run that it continues. -/
def continues (context : Context) (c : Char) (following : Option Char) : Bool :=
  !isGap c && !(c == ':' && separates context following)
    && !(context == .flow && (isFlowIndicator c || c == '?'))

/-- Whether a character can open a plain scalar. -/
def opens (context : Context) (c : Char) (following : Option Char) : Bool :=
  (!isGap c && !isIndicator c)
    || (!endsToken following && (c == '-' || (context == .block && (c == '?' || c == ':'))))

/-- What separates two runs: the text that stands for it, and whether a line was left. -/
structure Gap where
  text : List Char
  crossed : Bool

/-- The breaks below a first one, with the spaces between them.  Nothing when a document mark is met; the cursor
then stands before the mark. -/
def readBreaks : (fuel : List Char) → Cursor → Option (List Char) × Cursor
  | [], c => (some [], c)
  | _ :: fuel, c =>
    let c := c.skipSpaces
    match c.lineBreak? with
    | none => (some [], c)
    | some (lineBreak, below) =>
      if below.atDocumentMark then (none, below)
      else
        match readBreaks fuel below with
        | (some more, stop) => (some (lineBreak :: more), stop)
        | (none, stop) => (none, stop)

/-- The gap behind a run.  An empty text means that the scalar ends here. -/
def readGap (c : Cursor) : Gap × Cursor :=
  let (spaces, stop) := c.span (· == ' ')
  match stop.lineBreak? with
  | none => (⟨spaces, false⟩, stop)
  | some (lineBreak, below) =>
    if below.atDocumentMark then (⟨[], true⟩, below)
    else
      match readBreaks below.fuel below with
      | (some others, stop) => (⟨foldBreaks lineBreak others, true⟩, stop)
      | (none, stop) => (⟨[], true⟩, stop)

/-- The runs of a scalar from the gap `pending` on, which is dropped when no run follows, and whether a key may
begin behind them. -/
def readRuns (context : Context) (indent : Nat) :
    (fuel : List Char) → (pending : List Char) → (keyAllowed : Bool) → Cursor → List Char × Bool × Cursor
  | [], _, keyAllowed, c => ([], keyAllowed, c)
  | _ :: fuel, pending, keyAllowed, c =>
    let (run, stop) := Cursor.spanWith (continues context) c.rest c.position
    if c.peek == some '#' || run.isEmpty then ([], keyAllowed, c)
    else
      let (gap, behind) := readGap stop
      let ended := gap.text.isEmpty || behind.peek == some '#'
        || (context == .block && behind.column < indent)
      if ended then (pending ++ run, gap.crossed, behind)
      else
        let (more, allowed, last) := readRuns context indent fuel gap.text gap.crossed behind
        (pending ++ run ++ more, allowed, last)

/-- A plain scalar whose lines have to stand at column `indent` or further right outside brackets: its text, whether
a key may begin behind it, and the cursor there. -/
def read (context : Context) (indent : Nat) (c : Cursor) : String × Bool × Cursor :=
  let (text, keyAllowed, behind) := readRuns context indent c.fuel [] false c
  (String.ofList text, keyAllowed, behind)

end Plain

end Postmortem.Yaml
