/-!
Code points of characters.

Some code points are no characters but halves of pairs, by which formats with units of sixteen bits write the
characters beyond the first plane.
-/

set_option autoImplicit false

namespace Roster.Text

/-- The number is the first half of a pair that writes one character. -/
def isLeading (n : Nat) : Bool := 0xd800 ≤ n && n < 0xdc00

/-- The number is the second half of a pair that writes one character. -/
def isTrailing (n : Nat) : Bool := 0xdc00 ≤ n && n < 0xe000

/-- The number is half of a pair and alone no character. -/
def isHalf (n : Nat) : Bool := isLeading n || isTrailing n

/-- The character with a code point; half of a pair alone is replaced. -/
def pointChar (n : Nat) : Char :=
  if isHalf n then '\ufffd' else Char.ofNat n

/-- The code point of the character that two halves of a pair write. -/
def pairPoint (high low : Nat) : Nat :=
  0x10000 + (high - 0xd800) * 0x400 + (low - 0xdc00)

/-- The text of code points, with replacements for halves of pairs. -/
def ofPoints (points : List Nat) : String :=
  String.ofList (points.map pointChar)

end Roster.Text
