/-!
Blank characters and trimming.

A text is trimmed by dropping blanks at both ends. Blanks are the space, the control characters that
separate lines, fields and records, and the space and line separators of Unicode.
-/

set_option autoImplicit false

namespace Roster.Text

/-- A code point lies in one of the listed ranges, ends included. -/
def inRanges (ranges : List (Nat × Nat)) (n : Nat) : Bool :=
  ranges.any fun r => r.1 ≤ n && n ≤ r.2

def blankRanges : List (Nat × Nat) :=
  [(0x9, 0xd), (0x1c, 0x20), (0x85, 0x85), (0xa0, 0xa0), (0x1680, 0x1680), (0x2000, 0x200a),
    (0x2028, 0x2029), (0x202f, 0x202f), (0x205f, 0x205f), (0x3000, 0x3000)]

/-- A blank separates words and is dropped by trimming. -/
def isBlank (c : Char) : Bool :=
  inRanges blankRanges c.toNat

def trimLeft (s : List Char) : List Char :=
  s.dropWhile isBlank

def trimRight (s : List Char) : List Char :=
  (s.reverse.dropWhile isBlank).reverse

def trim (s : List Char) : List Char :=
  trimRight (trimLeft s)

/-- A text up to its first blank. -/
def firstWord (s : List Char) : List Char :=
  s.takeWhile fun c => !isBlank c

/-- A text from its second word on. -/
def afterFirst (s : List Char) : List Char :=
  trimLeft (s.dropWhile fun c => !isBlank c)

end Roster.Text
