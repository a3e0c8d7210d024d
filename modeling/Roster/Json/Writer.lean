import Roster.Json.Basic
import Roster.Number.Decimal
import Roster.Number.Integer
import Roster.Text.Quoted

/-!
Writing JSON documents.

A document is written on one line without blanks. Doubles are written with the fewest digits that read
back; the three numbers that have no digits are written as the constants that the reader knows.
-/

set_option autoImplicit false

namespace Roster.Json

open Number (Double integerText)

def escapeChar (c : Char) : List Char :=
  if c == '"' then ['\\', '"']
  else if c == '\\' then ['\\', '\\']
  else if c.toNat < 0x20 || c.toNat == 0x7f then '\\' :: 'u' :: Text.hexDigits c.toNat 4
  else [c]

def writeText (s : String) : String :=
  String.ofList ('"' :: s.toList.flatMap escapeChar ++ ['"'])

/-- One code point of a text; half of a pair is written by its number. -/
def escapePoint (n : Nat) : List Char :=
  if Text.isHalf n then '\\' :: 'u' :: Text.hexDigits n 4 else escapeChar (Char.ofNat n)

/-- A text of code points between double quotes. -/
def writePoints (points : List Nat) : String :=
  String.ofList ('"' :: points.flatMap escapePoint ++ ['"'])

/-- A double as a number or a constant. -/
def writeDouble (x : Double) : String :=
  match x.magnitude with
  | .nan => "NaN"
  | .infinite => if x.isNegative then "-Infinity" else "Infinity"
  | .finite _ _ => x.text

mutual

def write : Json → String
  | .null => "null"
  | .bool true => "true"
  | .bool false => "false"
  | .int n => integerText n
  | .double x => writeDouble x
  | .str s => writeText s
  | .torn points => writePoints points
  | .arr items => "[" ++ ",".intercalate (writeItems items) ++ "]"
  | .obj fields => "\x7b" ++ ",".intercalate (writeFields fields) ++ "\x7d"

/-- The documents of the items of an array. -/
def writeItems : List Json → List String
  | [] => []
  | x :: xs => write x :: writeItems xs

/-- The fields of an object with their names. -/
def writeFields : List (String × Json) → List String
  | [] => []
  | (k, v) :: fs => (writeText k ++ ":" ++ write v) :: writeFields fs

end

end Roster.Json
