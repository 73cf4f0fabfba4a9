import Postmortem.Text.Quoted
set_option autoImplicit false

/-!
# Text: encodings

How the octets of a file become a text.  A decoder goes through the octets from the front and refuses the first ones
that begin no character; the refusal says where they stand and why they are refused.  Line breaks are unified
afterwards.
-/

namespace Postmortem.Text

/-! ## Refusals -/

/-- Octets that are no text. -/
structure Garbled where
  /-- the encoding that refuses them -/
  codec : String
  /-- the position of the first refused octet -/
  start : Nat
  /-- the refused octets -/
  octets : List UInt8
  reason : String
  deriving DecidableEq, Repr

namespace Garbled

/-- Where the refused octets stand; a single one is shown. -/
def place (g : Garbled) : String :=
  match g.octets with
  | [octet] =>
    "byte 0x" ++ String.ofList (paddedHex 2 octet.toNat) ++ " in position " ++ Numeral.decimal g.start
  | octets =>
    "bytes in position " ++ Numeral.decimal g.start ++ "-" ++ Numeral.decimal (g.start + octets.length - 1)

/-- The message about refused octets. -/
def message (g : Garbled) : String :=
  "'" ++ g.codec ++ "' codec can't decode " ++ g.place ++ ": " ++ g.reason

end Garbled

/-- Why a file has no text. -/
inductive Undecodable where
  | garbled (detail : Garbled)
  /-- the octets do not begin with the mark that tells their order -/
  | noByteOrder
  deriving DecidableEq, Repr

/-! ## One octet for each character -/

/-- The characters whose numbers are the octets. -/
def decodeLatin1 (octets : List UInt8) : List Char := octets.map fun x => Char.ofNat x.toNat

/-- The ASCII characters from position `here` on. -/
def decodeAscii (here : Nat) : List UInt8 → Except Garbled (List Char)
  | [] => .ok []
  | x :: rest =>
    if x.toNat < 0x80 then
      match decodeAscii (here + 1) rest with
      | .error g => .error g
      | .ok text => .ok (Char.ofNat x.toNat :: text)
    else .error ⟨"ascii", here, [x], "ordinal not in range(128)"⟩

/-! ## UTF-8 -/

namespace Utf8

/-- The first octets of a character that has more. -/
structure Pending where
  /-- where they begin -/
  start : Nat
  octets : List UInt8
  /-- how many octets are still to come -/
  missing : Nat
  /-- the range of the next one -/
  least : Nat
  greatest : Nat
  /-- the bits collected so far -/
  bits : Nat

/-- What an octet begins that is no ASCII character. -/
def lead? (start : Nat) (x : UInt8) : Option Pending :=
  let n := x.toNat
  if n < 0xc2 then none
  else if n < 0xe0 then some ⟨start, [x], 1, 0x80, 0xbf, n - 0xc0⟩
  else if n < 0xf0 then
    some ⟨start, [x], 2, if n = 0xe0 then 0xa0 else 0x80, if n = 0xed then 0x9f else 0xbf, n - 0xe0⟩
  else if n < 0xf5 then
    some ⟨start, [x], 3, if n = 0xf0 then 0x90 else 0x80, if n = 0xf4 then 0x8f else 0xbf, n - 0xf0⟩
  else none

/-- A refusal of some octets. -/
def refuse (start : Nat) (octets : List UInt8) (reason : String) : Except Garbled (List Char) :=
  .error ⟨"utf-8", start, octets, reason⟩

/-- The characters from position `here` on, behind the first octets of one. -/
def decode (here : Nat) (pending : Option Pending) : List UInt8 → Except Garbled (List Char)
  | [] =>
    match pending with
    | none => .ok []
    | some p => refuse p.start p.octets "unexpected end of data"
  | x :: rest =>
    match pending with
    | none =>
      if x.toNat < 0x80 then
        match decode (here + 1) none rest with
        | .error g => .error g
        | .ok text => .ok (Char.ofNat x.toNat :: text)
      else
        match lead? here x with
        | none => refuse here [x] "invalid start byte"
        | some p => decode (here + 1) (some p) rest
    | some p =>
      if p.least ≤ x.toNat ∧ x.toNat ≤ p.greatest then
        let bits := p.bits * 64 + (x.toNat - 0x80)
        if p.missing ≤ 1 then
          match decode (here + 1) none rest with
          | .error g => .error g
          | .ok text => .ok (Char.ofNat bits :: text)
        else
          decode (here + 1) (some ⟨p.start, p.octets ++ [x], p.missing - 1, 0x80, 0xbf, bits⟩) rest
      else refuse p.start p.octets "invalid continuation byte"

/-- The mark that may stand in front of a text. -/
def mark : List UInt8 := [0xef, 0xbb, 0xbf]

/-- The text behind the mark, if it stands there.  A file that ends inside the mark is empty. -/
def decodeMarked (octets : List UInt8) : Except Garbled (List Char) :=
  if octets.take 3 = mark then decode 0 none (octets.drop 3)
  else if octets.length < 3 ∧ octets = mark.take octets.length then .ok []
  else decode 0 none octets

end Utf8

/-! ## UTF-16 -/

namespace Utf16

/-- The order of the two octets of a unit. -/
inductive Order where
  | little
  | big
  deriving DecidableEq, Repr

/-- How an order is named in messages. -/
def Order.codec : Order → String
  | .little => "utf-16-le"
  | .big => "utf-16-be"

/-- The unit that two octets make. -/
def Order.unit (order : Order) (first second : UInt8) : Nat :=
  match order with
  | .little => second.toNat * 256 + first.toNat
  | .big => first.toNat * 256 + second.toNat

/-- The first half of a character that needs two units. -/
structure High where
  start : Nat
  octets : List UInt8
  unit : Nat

/-- The characters from position `here` on, behind the first half of one. -/
def decode (order : Order) (here : Nat) (high : Option High) : List UInt8 → Except Garbled (List Char)
  | [] =>
    match high with
    | none => .ok []
    | some h => .error ⟨order.codec, h.start, h.octets, "unexpected end of data"⟩
  | [x] =>
    match high with
    | none => .error ⟨order.codec, here, [x], "truncated data"⟩
    | some h => .error ⟨order.codec, h.start, h.octets ++ [x], "unexpected end of data"⟩
  | x :: y :: rest =>
    let unit := order.unit x y
    match high with
    | some h =>
      if 0xdc00 ≤ unit ∧ unit ≤ 0xdfff then
        match decode order (here + 2) none rest with
        | .error g => .error g
        | .ok text =>
          .ok (Char.ofNat (0x10000 + (h.unit - 0xd800) * 0x400 + (unit - 0xdc00)) :: text)
      else .error ⟨order.codec, h.start, h.octets, "illegal UTF-16 surrogate"⟩
    | none =>
      if 0xd800 ≤ unit ∧ unit ≤ 0xdbff then decode order (here + 2) (some ⟨here, [x, y], unit⟩) rest
      else if 0xdc00 ≤ unit ∧ unit ≤ 0xdfff then .error ⟨order.codec, here, [x, y], "illegal encoding"⟩
      else
        match decode order (here + 2) none rest with
        | .error g => .error g
        | .ok text => .ok (Char.ofNat unit :: text)

/-- The text behind the mark that tells the order.  Octets that are garbled in any case are refused as such. -/
def decodeMarked (octets : List UInt8) : Except Undecodable (List Char) :=
  let marked (order : Order) (rest : List UInt8) : Except Undecodable (List Char) :=
    match decode order 2 none rest with
    | .error g => .error (.garbled g)
    | .ok text => .ok text
  match octets with
  | 0xff :: 0xfe :: rest => marked .little rest
  | 0xfe :: 0xff :: rest => marked .big rest
  | _ =>
    match decode .little 0 none octets with
    | .error g => .error (.garbled g)
    | .ok [] => .ok []
    | .ok _ => .error .noByteOrder

end Utf16

/-! ## Encodings -/

/-- The encodings that a dump file can have. -/
inductive Encoding where
  | utf8
  | utf8Marked
  | ascii
  | latin1
  | utf16
  | utf16In (order : Utf16.Order)
  deriving DecidableEq, Repr

namespace Encoding

/-- A decoder without a mark of the order. -/
def plain (result : Except Garbled (List Char)) : Except Undecodable (List Char) :=
  match result with
  | .ok text => .ok text
  | .error g => .error (.garbled g)

/-- The text that octets are in an encoding. -/
def decode : Encoding → List UInt8 → Except Undecodable (List Char)
  | .utf8, octets => plain (Utf8.decode 0 none octets)
  | .utf8Marked, octets => plain (Utf8.decodeMarked octets)
  | .ascii, octets => plain (decodeAscii 0 octets)
  | .latin1, octets => .ok (decodeLatin1 octets)
  | .utf16, octets => Utf16.decodeMarked octets
  | .utf16In order, octets => plain (Utf16.decode order 0 none octets)

end Encoding

/-! ## Line breaks -/

/-- A text whose line breaks are line feeds: a carriage return counts as one, with a line feed behind it or without. -/
def unifyBreaks : List Char → List Char
  | '\r' :: '\n' :: rest => '\n' :: unifyBreaks rest
  | c :: rest => (if c = '\r' then '\n' else c) :: unifyBreaks rest
  | [] => []

end Postmortem.Text
