import Postmortem.Text.Encoding
import Postmortem.Yaml.Token
set_option autoImplicit false

/-!
# Yaml: names, tags and directives

Readers of the small grammars that stand before a node or before a document: names of anchors, tags with their
handles and addresses, and the lines that begin with a percent sign.
-/

namespace Postmortem.Yaml

open Postmortem.Text

/-! ## Names -/

/-- A name that is not empty. -/
def readName : Step String := fun c =>
  let (name, behind) := c.span isNameChar
  if name.isEmpty then .error .malformed else .ok (String.ofList name, behind)

/-- A character that can stand right behind the name of an anchor. -/
def closesAnchor (c : Char) : Bool := ['?', ':', ',', ']', '}', '%', '@', '\x60'].contains c

/-- The name of an anchor, behind its mark.  It has to be followed by a gap or by a character that can close it. -/
def readAnchorName : Step String := fun c =>
  match readName c with
  | .error fault => .error fault
  | .ok (name, behind) =>
    if endsToken behind.peek || behind.peek.any closesAnchor then .ok (name, behind) else .error .malformed

/-! ## Tags -/

/-- Whether octets are well-formed UTF-8. -/
def isUtf8 (octets : List Nat) : Bool :=
  match Utf8.decode 0 none (octets.map Nat.toUInt8) with
  | .ok _ => true
  | .error _ => false

/-- The octets of a run of escapes, each a percent sign and two hexadecimal digits. -/
def escapedOctets : List Char → Option (List Nat × List Char)
  | '%' :: high :: low :: more =>
    if Numeral.isHex high && Numeral.isHex low then
      (escapedOctets more).map fun (octets, rest) => (Numeral.value 16 [high, low] :: octets, rest)
    else none
  | '%' :: _ => none
  | rest => some ([], rest)

/-- Whether every run of escapes in an address is well-formed UTF-8; at most `fuel` runs are looked at. -/
def addressEscapesOk : (fuel : Nat) → List Char → Bool
  | 0, _ => true
  | fuel + 1, text =>
    match text.dropWhile (· != '%') with
    | [] => true
    | run =>
      match escapedOctets run with
      | none => false
      | some (octets, rest) => isUtf8 octets && addressEscapesOk fuel rest

/-- The cursor behind an address, which is not empty. -/
def skipAddress (c : Cursor) : Except Fault Cursor :=
  let (address, behind) := c.span isAddressChar
  if address.isEmpty || !addressEscapesOk (address.length + 1) address then .error .malformed
  else .ok behind

/-- A tag handle: an exclamation mark, and if anything but a space follows, a name (which may be empty) and a
second exclamation mark. -/
def readTagHandle : Step String := fun c =>
  if c.peek == some '!' then
    if c.peekAt 1 == some ' ' then .ok ("!", c.next)
    else
      let (name, behind) := c.next.span isNameChar
      if behind.peek == some '!' then .ok (String.ofList ('!' :: name ++ ['!']), behind.next)
      else .error .malformed
  else .error .malformed

/-- Whether a second exclamation mark stands before the next space or line break. -/
def hasSecondMark (text : List Char) : Bool :=
  (text.takeWhile fun x => !endsWord (some x)).contains '!'

/-- The handle of a tag that is not written in full: a single exclamation mark when the tag has no second one. -/
def readTagPrefix : Step String := fun c =>
  if hasSecondMark c.next.rest then readTagHandle c else .ok ("!", c.next)

/-- A tag up to its end.  It is written in full between angle brackets, or is a lone exclamation mark, or has a handle
and an address. -/
def readTagContent : Step (Option String) := fun c =>
  match c.peekAt 1 with
  | some '<' =>
    match skipAddress c.next.next with
    | .error fault => .error fault
    | .ok behind => if behind.peek == some '>' then .ok (none, behind.next) else .error .malformed
  | following =>
    if endsToken following then .ok (none, c.next)
    else
      match readTagPrefix c with
      | .error fault => .error fault
      | .ok (name, behind) =>
        match skipAddress behind with
        | .error fault => .error fault
        | .ok stop => .ok (some name, stop)

/-- A tag, which has to end at the end of a word. -/
def readTag : Step (Option String) := fun c =>
  match readTagContent c with
  | .error fault => .error fault
  | .ok (handle, behind) => if endsWord behind.peek then .ok (handle, behind) else .error .malformed

/-! ## Directives -/

/-- One of the two numbers of a version. -/
def readVersionNumber : Step Nat := fun c =>
  let (digits, behind) := c.span Numeral.isDecimal
  if digits.isEmpty then .error .malformed
  else if Numeral.maxDecimalDigits < digits.length then .error (.versionDigits digits.length)
  else .ok (Numeral.value 10 digits, behind)

/-- A version: two numbers with a full stop between them.  Only the first one matters. -/
def readVersion : Step Directive := fun c =>
  match readVersionNumber c.skipSpaces with
  | .error fault => .error fault
  | .ok (major, stop) =>
    if stop.peek == some '.' then
      match readVersionNumber stop.next with
      | .error fault => .error fault
      | .ok (_, behind) =>
        if endsWord behind.peek then .ok (.version major, behind) else .error .malformed
    else .error .malformed

/-- A tag handle and the address that it stands for. -/
def readHandleMeaning : Step Directive := fun c =>
  match readTagHandle c.skipSpaces with
  | .error fault => .error fault
  | .ok (handle, stop) =>
    if stop.peek == some ' ' then
      match skipAddress stop.skipSpaces with
      | .error fault => .error fault
      | .ok behind =>
        if endsWord behind.peek then .ok (.tagHandle handle, behind) else .error .malformed
    else .error .malformed

/-- A directive with the line that it stands on. -/
def readDirective : Step Directive := fun c =>
  match readName c.next with
  | .error fault => .error fault
  | .ok (name, stop) =>
    if endsWord stop.peek then
      let content : Except Fault (Directive × Cursor) :=
        if name == "YAML" then readVersion stop
        else if name == "TAG" then readHandleMeaning stop
        else .ok (.reserved, stop.spanLine.2)
      match content with
      | .error fault => .error fault
      | .ok (directive, behind) =>
        match behind.finishLine with
        | .error fault => .error fault
        | .ok below => .ok (directive, below)
    else .error .malformed

end Postmortem.Yaml
