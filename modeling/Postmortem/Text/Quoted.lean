import Postmortem.Text.Numeral
import Postmortem.Text.Printable
set_option autoImplicit false

/-!
# Text: quoted form

How a text is shown inside a message.  It stands between single quotes, or between double quotes when it holds a
single quote and no double quote.  The backslash and the enclosing quote get a backslash; line feed, carriage
return and tab are written as letters; any other character that is not printable is written by its number in two,
four or eight hexadecimal digits.  Where there is room for a certain number of octets only, the text is cut there.
-/

namespace Postmortem.Text

/-- The quote that encloses a text. -/
def enclosingQuote (text : List Char) : Char :=
  if text.contains '\'' && !text.contains '"' then '"' else '\''

/-- The lower case hexadecimal numeral of `n`, filled with zeros to a width. -/
def paddedHex (width n : Nat) : List Char :=
  let numeral := Numeral.digits 16 n
  List.replicate (width - numeral.length) '0' ++ numeral

/-- How one character is written between the given quotes. -/
def quoteChar (enclosing c : Char) : List Char :=
  if c == '\\' || c == enclosing then ['\\', c]
  else if c == '\n' then ['\\', 'n']
  else if c == '\r' then ['\\', 'r']
  else if c == '\t' then ['\\', 't']
  else if isPrintable c then [c]
  else if c.toNat < 0x100 then '\\' :: 'x' :: paddedHex 2 c.toNat
  else if c.toNat < 0x10000 then '\\' :: 'u' :: paddedHex 4 c.toNat
  else '\\' :: 'U' :: paddedHex 8 c.toNat

/-- The quoted form of a text. -/
def quote (text : String) : String :=
  let mark := enclosingQuote text.toList
  String.ofList (mark :: text.toList.flatMap (quoteChar mark) ++ [mark])

/-- The start of a text that takes up at most `room` octets in UTF-8.  One replacement character stands for a character
that is cut in two. -/
def firstOctets (room : Nat) : List Char → List Char
  | [] => []
  | c :: rest =>
    if c.utf8Size ≤ room then c :: firstOctets (room - c.utf8Size) rest
    else if room = 0 then [] else ['\ufffd']

example : firstOctets 3 ['a', 'b', 'é', 'c'] = ['a', 'b', '\ufffd'] := by decide
example : firstOctets 4 ['a', 'b', 'é', 'c'] = ['a', 'b', 'é'] := by decide

example : quote "it's" = "\"it's\"" := by decide +kernel
example : quote "q\"/'" = "'q\"/\\''" := by decide +kernel
example : quote "\n\x00\u200b" = "'\\n\\x00\\u200b'" := by decide +kernel

end Postmortem.Text
