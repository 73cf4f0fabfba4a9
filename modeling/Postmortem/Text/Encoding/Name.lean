import Postmortem.Text.Encoding
set_option autoImplicit false

/-!
# Text: names of encodings

An encoding has a name of its own and further names.  Case and the signs between the words of a name do not matter, and
neither does a full stop between the words of a further name.  Some names belong to transformations of octets, which
give no text.
-/

namespace Postmortem.Text.Encoding

/-! ## Normal names -/

/-- The parts of words: ASCII letters, digits and the full stop. -/
def isNameChar (c : Char) : Bool := c.isAlphanum || c == '.'

/-- Words in lower case, joined by low lines; `gap` tells that a sign stands between the last word and this. -/
def joinWords (gap : Bool) : List Char → List Char
  | [] => []
  | c :: rest =>
    if isNameChar c then (if gap then ['_', c.toLower] else [c.toLower]) ++ joinWords false rest
    else joinWords true rest

/-- A name in lower case, with one low line between its words and none at its ends. -/
def normalName (name : String) : List Char := joinWords false (name.toList.dropWhile (!isNameChar ·))

/-- A name with low lines for its full stops. -/
def withoutStops (name : List Char) : List Char := name.map fun c => if c = '.' then '_' else c

/-! ## Names -/

/-- The own name of something and its further names. -/
structure Names where
  own : String
  others : List String

/-- Whether a normal name is among some names.  A further name may have full stops for its low lines. -/
def Names.has (names : Names) (name : List Char) : Bool :=
  name == names.own.toList
    || names.others.any fun other => name == other.toList || withoutStops name == other.toList

/-- The encodings with their names. -/
def directory : List (Encoding × Names) := [
  (.utf8, ⟨"utf_8", ["u8", "utf", "utf8", "utf8_ucs2", "utf8_ucs4", "cp65001"]⟩),
  (.utf8Marked, ⟨"utf_8_sig", []⟩),
  (.ascii, ⟨"ascii", ["646", "ansi_x3.4_1968", "ansi_x3_4_1968", "ansi_x3.4_1986", "cp367", "csascii", "ibm367",
    "iso646_us", "iso_646.irv_1991", "iso_ir_6", "us", "us_ascii"]⟩),
  (.latin1, ⟨"latin_1", ["8859", "cp819", "csisolatin1", "ibm819", "iso8859", "iso8859_1", "iso_8859_1",
    "iso_8859_1_1987", "iso_ir_100", "l1", "latin", "latin1"]⟩),
  (.utf16, ⟨"utf_16", ["u16", "utf16"]⟩),
  (.utf16In .little, ⟨"utf_16_le", ["unicodelittleunmarked", "utf_16le"]⟩),
  (.utf16In .big, ⟨"utf_16_be", ["unicodebigunmarked", "utf_16be"]⟩)]

/-- The names of transformations of octets. -/
def transformations : List Names := [
  ⟨"base64_codec", ["base64", "base_64"]⟩, ⟨"bz2_codec", ["bz2"]⟩, ⟨"hex_codec", ["hex"]⟩,
  ⟨"quopri_codec", ["quopri", "quoted_printable", "quotedprintable"]⟩, ⟨"rot_13", ["rot13"]⟩,
  ⟨"uu_codec", ["uu"]⟩, ⟨"zlib_codec", ["zip", "zlib"]⟩]

/-- The name for the encoding of the system, which is UTF-8.  It has to be written just so. -/
def systemName : String := "locale"

/-- The encoding with a name. -/
def ofName? (name : String) : Option Encoding :=
  if name = systemName then some .utf8
  else (directory.find? fun entry => entry.2.has (normalName name)).map Prod.fst

/-- Whether a name is that of a transformation of octets. -/
def isTransformation (name : String) : Bool := transformations.any (·.has (normalName name))

end Postmortem.Text.Encoding
