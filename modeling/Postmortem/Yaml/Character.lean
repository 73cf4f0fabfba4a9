set_option autoImplicit false

/-!
# Yaml: character classes

The classes of YAML 1.1 that decide where tokens begin and end.  A look ahead may stand at the end of the text;
the classes with an optional argument count the end as a member, because the end closes a token as a blank does.
-/

namespace Postmortem.Yaml

/-- A character that may stand in a document at all, outside an escape. -/
def isAllowed (c : Char) : Bool :=
  let n := c.toNat
  n == 0x9 || n == 0xa || n == 0xd || (0x20 ≤ n && n ≤ 0x7e) || n == 0x85 || (0xa0 ≤ n && n ≤ 0xd7ff)
    || (0xe000 ≤ n && n ≤ 0xfffd) || 0x10000 ≤ n

/-- A line break that is read as a line feed. -/
def isPlainBreak (c : Char) : Bool := c == '\n' || c == '\r' || c == '\u0085'

/-- A line break that is kept as it is: the line separator and the paragraph separator. -/
def isKeptBreak (c : Char) : Bool := c == '\u2028' || c == '\u2029'

/-- Any line break. -/
def isBreak (c : Char) : Bool := isPlainBreak c || isKeptBreak c

/-- The space and the tab. -/
def isSpaceOrTab (c : Char) : Bool := c == ' ' || c == '\t'

/-- A space, a tab or a line break. -/
def isGap (c : Char) : Bool := isSpaceOrTab c || isBreak c

/-- The end of the text, a space or a line break. -/
def endsWord : Option Char → Bool
  | none => true
  | some c => c == ' ' || isBreak c

/-- The end of the text, a space, a tab or a line break. -/
def endsToken : Option Char → Bool
  | none => true
  | some c => isGap c

/-- A character of a name: an ASCII letter or digit, a hyphen or an underscore. -/
def isNameChar (c : Char) : Bool := c.isAlphanum || c == '-' || c == '_'

/-- A bracket or comma that separates the parts of a collection in brackets. -/
def isFlowIndicator (c : Char) : Bool := c == ',' || c == '[' || c == ']' || c == '{' || c == '}'

/-- A character that stands for itself, or opens an escape, in the address part of a tag. -/
def isAddressChar (c : Char) : Bool :=
  isNameChar c
    || [';', '/', '?', ':', '@', '&', '=', '+', '$', ',', '.', '!', '~', '*', '\'', '(', ')', '[', ']', '%'].contains c

/-- A character that has a meaning of its own at the start of a token. -/
def isIndicator (c : Char) : Bool :=
  ['-', '?', ':', ',', '[', ']', '{', '}', '#', '&', '*', '!', '|', '>', '\'', '"', '%', '@', '\x60'].contains c

end Postmortem.Yaml
