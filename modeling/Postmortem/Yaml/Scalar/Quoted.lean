import Postmortem.Text.Numeral
import Postmortem.Yaml.Cursor
set_option autoImplicit false

/-!
# Yaml: quoted scalars

Between single quotes a quote is written twice and nothing else is special.  Between double quotes a backslash opens
an escape.  In both, line breaks are folded and the spaces around them are dropped.
-/

namespace Postmortem.Yaml.Quoted

open Postmortem.Text

/-- The two kinds of quotes. -/
inductive Style where
  | single
  | double
  deriving DecidableEq, Repr

/-- The quote itself. -/
def Style.mark : Style → Char
  | .single => '\''
  | .double => '"'

/-- The character that a one-letter escape stands for. -/
def escape? : Char → Option Char
  | '0' => some '\x00'
  | 'a' => some '\x07'
  | 'b' => some '\x08'
  | 't' | '\t' => some '\t'
  | 'n' => some '\n'
  | 'v' => some '\x0b'
  | 'f' => some '\x0c'
  | 'r' => some '\r'
  | 'e' => some '\x1b'
  | ' ' => some ' '
  | '"' => some '"'
  | '\\' => some '\\'
  | '/' => some '/'
  | 'N' => some '\u0085'
  | '_' => some '\u00a0'
  | 'L' => some '\u2028'
  | 'P' => some '\u2029'
  | _ => none

/-- The number of hexadecimal digits behind the letter of an escape by code point. -/
def escapeWidth? : Char → Option Nat
  | 'x' => some 2
  | 'u' => some 4
  | 'U' => some 8
  | _ => none

/-- The character with a number.  A surrogate is a code point, but it is no character. -/
def charOfNumber (number : Nat) : Except Fault Char :=
  if h : number.isValidChar then .ok (Char.ofNatAux number h)
  else if number ≤ 0x10ffff then .error (.surrogate number)
  else .error (.codePoint number)

/-- An escape by code point, behind its letter. -/
def readCodePoint (width : Nat) : Step Char := fun c =>
  let digits := c.rest.take width
  if digits.length == width && digits.all Numeral.isHex then
    match charOfNumber (Numeral.value 16 digits) with
    | .error fault => .error fault
    | .ok x => .ok (x, c.skip width)
  else .error .malformed

/-- The breaks below a first one, with the blanks between them.  A document mark may not stand inside quotes. -/
def readBreaks : (fuel : List Char) → Step (List Char)
  | [], c => .ok ([], c)
  | _ :: fuel, c =>
    if c.atDocumentMark then .error .malformed
    else
      let c := c.dropWhile isSpaceOrTab
      match c.lineBreak? with
      | none => .ok ([], c)
      | some (lineBreak, below) =>
        match readBreaks fuel below with
        | .error fault => .error fault
        | .ok (more, stop) => .ok (lineBreak :: more, stop)

/-- A gap between two words: blanks as they are, or folded breaks. -/
def readGap : Step (List Char) := fun c =>
  let (blanks, stop) := c.span isSpaceOrTab
  match stop.lineBreak? with
  | none => .ok (blanks, stop)
  | some (lineBreak, below) =>
    match readBreaks below.fuel below with
    | .error fault => .error fault
    | .ok (others, behind) => .ok (foldBreaks lineBreak others, behind)

/-- An escape behind its backslash.  An escaped line break stands for the breaks that follow it. -/
def readEscape : Step (List Char) := fun c =>
  match c.peek with
  | none => .error .malformed
  | some letter =>
    match escape? letter with
    | some x => .ok ([x], c.next)
    | none =>
      match escapeWidth? letter with
      | some width =>
        match readCodePoint width c.next with
        | .error fault => .error fault
        | .ok (x, behind) => .ok ([x], behind)
      | none =>
        match c.lineBreak? with
        | some (_, below) => readBreaks below.fuel below
        | none => .error .malformed

/-- The next part of a quoted text, nothing when the closing quote stands here. -/
def readPart (style : Style) : Cursor → Except Fault (Option (List Char × Cursor)) := fun c =>
  match c.peek with
  | none => .error .malformed
  | some x =>
    if x == style.mark then
      if style == .single && c.peekAt 1 == some '\'' then .ok (some (['\''], c.next.next))
      else .ok none
    else if isGap x then
      match readGap c with
      | .error fault => .error fault
      | .ok (gap, behind) => .ok (some (gap, behind))
    else if x == '\\' && style == .double then
      match readEscape c.next with
      | .error fault => .error fault
      | .ok (text, behind) => .ok (some (text, behind))
    else .ok (some ([x], c.next))

/-- The parts up to the closing quote, and the cursor behind it. -/
def readParts (style : Style) : (fuel : List Char) → Step (List Char)
  | [], _ => .error .malformed
  | _ :: fuel, c =>
    match readPart style c with
    | .error fault => .error fault
    | .ok none => .ok ([], c.next)
    | .ok (some (part, behind)) =>
      match readParts style fuel behind with
      | .error fault => .error fault
      | .ok (more, stop) => .ok (part ++ more, stop)

/-- A quoted scalar, from its opening quote on. -/
def read (style : Style) : Step String := fun c =>
  match readParts style c.fuel c.next with
  | .error fault => .error fault
  | .ok (text, behind) => .ok (String.ofList text, behind)

end Postmortem.Yaml.Quoted
