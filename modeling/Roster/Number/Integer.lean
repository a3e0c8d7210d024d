import Roster.Text.Digit

/-!
Integers written as text.

An integer may be surrounded by blanks, may carry one sign, and may have single underscores between its
digits, which may come from any script. Texts with more than 4300 digits are refused.
-/

set_option autoImplicit false

namespace Roster.Number

open Roster.Text

/-- Blanks allowed around an integer: all but the four separators of files, groups, records and units. -/
def isIntegerBlank (c : Char) : Bool :=
  isBlank c && !(0x1c ≤ c.toNat && c.toNat ≤ 0x1f)

/-- Drops the blanks allowed around an integer. -/
def trimInteger (s : List Char) : List Char :=
  ((s.dropWhile isIntegerBlank).reverse.dropWhile isIntegerBlank).reverse

/-- The digits of a text in which digits are separated by at most one underscore each. -/
def readDigits? : List Char → Option (List Nat)
  | [] => none
  | [c] => (digitValue? c).map ([·])
  | c :: '_' :: rest => do
    let d ← digitValue? c
    return d :: (← readDigits? rest)
  | c :: rest => do
    let d ← digitValue? c
    return d :: (← readDigits? rest)

/-- The number that decimal digits write, highest first. -/
def ofDigits (ds : List Nat) : Nat :=
  ds.foldl (fun n d => 10 * n + d) 0

/-- The most digits that an integer may be written with. -/
def maxDigits : Nat := 4300

def readNat? (s : List Char) : Option Nat := do
  let ds ← readDigits? s
  if ds.length ≤ maxDigits then some (ofDigits ds) else none

def readInteger? (s : List Char) : Option Int :=
  match trimInteger s with
  | '-' :: ds => (readNat? ds).map fun n => -(n : Int)
  | '+' :: ds => (readNat? ds).map Int.ofNat
  | ds => (readNat? ds).map Int.ofNat

def integerText (n : Int) : String :=
  match n with
  | .ofNat n => String.ofList (Nat.toDigits 10 n)
  | .negSucc n => String.ofList ('-' :: Nat.toDigits 10 (n + 1))

/-- The decimal digits of a number, filled up with zeros in front. -/
def padded (width n : Nat) : List Char :=
  let ds := Nat.toDigits 10 n
  List.replicate (width - ds.length) '0' ++ ds

def minInt64 : Int := -9223372036854775808

def maxInt64 : Int := 9223372036854775807

/-- The integer has a place among those of 64 bits. -/
def fitsInt64 (n : Int) : Bool :=
  minInt64 ≤ n && n ≤ maxInt64

end Roster.Number
