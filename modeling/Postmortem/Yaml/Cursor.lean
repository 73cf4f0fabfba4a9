import Postmortem.Yaml.Character
set_option autoImplicit false

/-!
# Yaml: reading position

A cursor is what remains of the text together with where it begins: the number of characters before it, its line
and its column.  Every reader of this library takes a cursor and gives back the cursor behind what it read.
-/

namespace Postmortem.Yaml

/-- Why a text has no document. -/
inductive Fault where
  /-- the text breaks the grammar -/
  | malformed
  /-- an escape names a number above the code points -/
  | codePoint (number : Nat)
  /-- an escape names a surrogate, a code point that no text of characters can hold -/
  | surrogate (number : Nat)
  /-- a version number has more digits than are read -/
  | versionDigits (count : Nat)
  deriving DecidableEq, Repr

/-- A place in the text. -/
structure Position where
  index : Nat
  line : Nat
  column : Nat
  deriving DecidableEq, Repr

namespace Position

/-- The start of the text. -/
def start : Position := ⟨0, 0, 0⟩

/-- The place behind a character.  A line break opens a line, a carriage return only when no line feed follows;
a byte order mark has no width. -/
def after (here : Position) (c : Char) (following : Option Char) : Position :=
  if (c == '\r' && following != some '\n') || (c != '\r' && isBreak c) then
    ⟨here.index + 1, here.line + 1, 0⟩
  else if c == '\ufeff' then
    ⟨here.index + 1, here.line, here.column⟩
  else
    ⟨here.index + 1, here.line, here.column + 1⟩

end Position

/-- What remains of the text, and where it begins. -/
structure Cursor where
  rest : List Char
  position : Position
  deriving DecidableEq, Repr

/-- A reader takes a value off the front of the text. -/
abbrev Step (α : Type) : Type := Cursor → Except Fault (α × Cursor)

namespace Cursor

/-- The cursor before a text. -/
def ofText (text : List Char) : Cursor := ⟨text, .start⟩

/-- The next character. -/
def peek (c : Cursor) : Option Char := c.rest.head?

/-- The character `n` places on. -/
def peekAt (c : Cursor) (n : Nat) : Option Char := c.rest[n]?

/-- Enough steps for a reader that takes at least one character at each: one for every character that remains, and one to
find the end.  They are a list, not a number, because the text need not be counted then. -/
def fuel (c : Cursor) : List Char := ' ' :: c.rest

/-- The column of the next character. -/
def column (c : Cursor) : Nat := c.position.column

/-- The cursor behind the next character; at the end of the text nothing changes. -/
def next (c : Cursor) : Cursor :=
  match c.rest with
  | [] => c
  | x :: more => ⟨more, c.position.after x more.head?⟩

/-- The cursor `n` characters on. -/
def skip (c : Cursor) : Nat → Cursor
  | 0 => c
  | n + 1 => c.next.skip n

/-- The longest run of characters that pass a test, the test also seeing the character behind, and the cursor
behind the run. -/
def spanWith (test : Char → Option Char → Bool) : List Char → Position → List Char × Cursor
  | [], here => ([], ⟨[], here⟩)
  | x :: more, here =>
    if test x more.head? then
      let (run, stop) := spanWith test more (here.after x more.head?)
      (x :: run, stop)
    else ([], ⟨x :: more, here⟩)

/-- The longest run of characters that pass a test, and the cursor behind it. -/
def span (c : Cursor) (test : Char → Bool) : List Char × Cursor :=
  spanWith (fun x _ => test x) c.rest c.position

/-- The cursor behind the longest run of characters that pass a test. -/
def dropWhile (c : Cursor) (test : Char → Bool) : Cursor := (c.span test).2

/-- The cursor behind the spaces. -/
def skipSpaces (c : Cursor) : Cursor := c.dropWhile (· == ' ')

/-- The rest of the line without its break, and the cursor before the break. -/
def spanLine (c : Cursor) : List Char × Cursor := c.span (fun x => !isBreak x)

/-- A line break off the front of the text: how it is read, and the cursor behind it.  A carriage return and a
line feed are one break. -/
def lineBreak? (c : Cursor) : Option (Char × Cursor) :=
  match c.rest with
  | [] => none
  | '\r' :: '\n' :: _ => some ('\n', c.next.next)
  | x :: _ =>
    if isPlainBreak x then some ('\n', c.next)
    else if isKeptBreak x then some (x, c.next)
    else none

/-- Whether a line of three hyphens or three full stops, which bounds a document, begins here. -/
def atDocumentMark (c : Cursor) : Bool :=
  (c.rest.take 3 == ['-', '-', '-'] || c.rest.take 3 == ['.', '.', '.']) && endsToken (c.peekAt 3)

/-- What may stand between a header and the end of its line: spaces, and a comment.  The break is consumed. -/
def finishLine (c : Cursor) : Except Fault Cursor :=
  let behind := c.skipSpaces
  let stop := if behind.peek == some '#' then behind.spanLine.2 else behind
  match stop.lineBreak? with
  | some (_, below) => .ok below
  | none => if stop.rest.isEmpty then .ok stop else .error .malformed

/-- A run and what is behind it make up the text. -/
theorem spanWith_append (test : Char → Option Char → Bool) (text : List Char) (here : Position) :
    (spanWith test text here).1 ++ (spanWith test text here).2.rest = text := by
  induction text generalizing here with
  | nil => simp [spanWith]
  | cons x more ih =>
    simp only [spanWith]
    split
    · simp [ih]
    · simp

end Cursor

/-- Breaks between two parts of a folded scalar: a single line feed becomes a space, of more the first is dropped,
and a break that is kept stays. -/
def foldBreaks (first : Char) (others : List Char) : List Char :=
  if first != '\n' then first :: others
  else if others.isEmpty then [' ']
  else others

end Postmortem.Yaml
