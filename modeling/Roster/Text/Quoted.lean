import Roster.Text.CodePoint
import Roster.Text.Printable

/-!
Quoted texts, as messages show them.

The quotes are single, or double when the text holds a single quote and no double one. The quote, the
backslash, line ends and tabs are escaped with a backslash, and an unprintable character is written as its
code point with two, four or eight hexadecimal digits.
-/

set_option autoImplicit false

namespace Roster.Text

def hexDigit (n : Nat) : Char :=
  if n < 10 then Char.ofNat (0x30 + n) else Char.ofNat (0x57 + n)

/-- The lowest `width` hexadecimal digits of a number, highest first. -/
def hexDigits (n : Nat) : Nat → List Char
  | 0 => []
  | width + 1 => hexDigits (n / 16) width ++ [hexDigit (n % 16)]

/-- The code point of a character, with as few of two, four or eight digits as hold it. -/
def escapeCode (c : Char) : List Char :=
  let n := c.toNat
  if n < 0x100 then '\\' :: 'x' :: hexDigits n 2
  else if n < 0x10000 then '\\' :: 'u' :: hexDigits n 4
  else '\\' :: 'U' :: hexDigits n 8

/-- One character between quotes of the given kind. -/
def quoteChar (mark c : Char) : List Char :=
  if c == mark || c == '\\' then ['\\', c]
  else if c == '\n' then ['\\', 'n']
  else if c == '\r' then ['\\', 'r']
  else if c == '\t' then ['\\', 't']
  else if isPrintable c then [c]
  else escapeCode c

/-- The quote that needs fewer escapes: double only for texts with single quotes and no double ones. -/
def quoteMark (s : List Char) : Char :=
  if s.contains '\'' && !s.contains '"' then '"' else '\''

def quoted (s : String) : String :=
  let mark := quoteMark s.toList
  String.ofList (mark :: s.toList.flatMap (quoteChar mark) ++ [mark])

/-- One code point between quotes; half of a pair is written by its number. -/
def quotePoint (mark : Char) (n : Nat) : List Char :=
  if isHalf n then '\\' :: 'u' :: hexDigits n 4 else quoteChar mark (Char.ofNat n)

def quotedPoints (points : List Nat) : String :=
  let mark := quoteMark (points.map pointChar)
  String.ofList (mark :: points.flatMap (quotePoint mark) ++ [mark])

end Roster.Text
