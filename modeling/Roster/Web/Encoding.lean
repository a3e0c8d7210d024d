import Roster.Text.CodePoint

/-!
Encodings of documents.

A document of a client is a sequence of octets, and the places of the zeros among the first four tell how its
text is written: with one, two or four octets to a unit, and with the highest or the lowest octet first.
-/

set_option autoImplicit false

namespace Roster

/-- How a text is written in octets. -/
inductive Encoding
  | utf8
  | utf16 (highFirst : Bool)
  | utf32 (highFirst : Bool)
  deriving DecidableEq, Repr

namespace Encoding

/-- The encoding of a document that starts with a character of ASCII. -/
def ofOctets : List Nat → Encoding
  | 0 :: 0 :: _ :: _ :: _ => utf32 true
  | 0 :: _ :: _ :: _ :: _ => utf16 true
  | _ :: 0 :: 0 :: 0 :: _ => utf32 false
  | _ :: 0 :: _ :: _ :: _ => utf16 false
  | [0, _] => utf16 true
  | [_, 0] => utf16 false
  | _ => utf8

def unit (highFirst : Bool) (octets : List Nat) : Nat :=
  (if highFirst then octets else octets.reverse).foldl (fun n octet => 0x100 * n + octet) 0

/-- The units of two octets, unless an octet is left. -/
def pairs? (highFirst : Bool) : List Nat → Option (List Nat)
  | [] => some []
  | a :: b :: rest => (pairs? highFirst rest).map (unit highFirst [a, b] :: ·)
  | [_] => none

/-- The units of four octets, unless octets are left. -/
def quads? (highFirst : Bool) : List Nat → Option (List Nat)
  | [] => some []
  | a :: b :: c :: d :: rest => (quads? highFirst rest).map (unit highFirst [a, b, c, d] :: ·)
  | _ => none

/-- The text of units of two octets, some of which write a character in pairs. -/
def joined : List Nat → List Char
  | high :: low :: rest =>
    if Text.isLeading high && Text.isTrailing low then Char.ofNat (Text.pairPoint high low) :: joined rest
    else Text.pointChar high :: joined (low :: rest)
  | [u] => [Text.pointChar u]
  | [] => []

/-- The greatest code point. -/
def lastCodePoint : Nat := 0x10ffff

/-- The text of units of four octets, each of which has to be a code point. -/
def codePoints? (units : List Nat) : Option (List Char) :=
  if units.all (· ≤ lastCodePoint) then some (units.map Text.pointChar) else none

/-- The text without the mark of its encoding. -/
def withoutMark : List Char → List Char
  | '\ufeff' :: rest => rest
  | s => s

/-- The text that a document, given as if it were in UTF-8, has in the encoding that it seems to have. -/
def documentText? (document : String) : Option (List Char) :=
  let octets := document.toUTF8.toList.map UInt8.toNat
  match ofOctets octets with
  | utf8 => some (withoutMark document.toList)
  | utf16 highFirst => (pairs? highFirst octets).map joined
  | utf32 highFirst => (quads? highFirst octets).bind codePoints?

end Encoding

end Roster
