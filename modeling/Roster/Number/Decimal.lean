import Roster.Number.Double
import Roster.Number.Integer
import Roster.Text.Lower

/-!
Decimal texts of doubles.

A number is written by the fewest digits that read back as the same double, and a style says how digits are
laid out. Messages and documents use these digits; what the store writes has digits of its own.
-/

set_option autoImplicit false

namespace Roster.Number

open Text (digitValue? lowerPlain)

/-- Decimal digits and the place of the point: the value is `0.d₁d₂… · 10 ^ point`. -/
structure Decimal where
  digits : List Char
  point : Int
  deriving DecidableEq, Repr

/-- The count of decimal digits of a number. -/
def digitCount (n : Nat) : Nat :=
  (Nat.toDigits 10 n).length

/-- The exponent of the first digit of a positive ratio: the greatest `p` with `10 ^ p ≤ num / den`. -/
def leadingExponent (num den : Nat) : Int :=
  if den ≤ num then (digitCount (num / den) : Int) - 1
  else -(digitCount ((den - 1) / num) : Int)

/-- A ratio divided by ten to a power, as a ratio. -/
def shiftRatio (num den : Nat) (k : Int) : Nat × Nat :=
  match k with
  | .ofNat k => (num, den * tenTo k)
  | .negSucc k => (num * tenTo (k + 1), den)

/-- Drops the zeros at the end of a list of digits but keeps the first digit. -/
def stripZeros (ds : List Char) : List Char :=
  match (ds.reverse.dropWhile (· == '0')).reverse with
  | [] => ['0']
  | kept => kept

/-- The digits of `n · 10 ^ k`. -/
def Decimal.ofScaled (n : Nat) (k : Int) : Decimal :=
  let ds := Nat.toDigits 10 n
  ⟨stripZeros ds, ds.length + k⟩

/-- An interval around a positive value, in quarters of the last binary place: the value, the ends, and
whether the ends belong to it. -/
structure Reach where
  value : Nat
  low : Nat
  high : Nat
  closed : Bool

/-- The numbers that round to a double: half a place to either side, but a quarter below a power of two,
where the places become finer. The ends round to it when its mantissa is even. -/
def reach (m : Nat) (e : Int) : Reach :=
  let below := if m == twoTo 52 && e != -1074 then 1 else 2
  ⟨4 * m, 4 * m - below, 4 * m + 2, m % 2 == 0⟩

/-- The multiple of `10 ^ k` nearest to the value, of its two neighbours on that grid, that lies in the
interval; an exact tie goes to the even one. The unit of the interval is the ratio `num / den`. -/
def gridPoint? (r : Reach) (num den : Nat) (k : Int) : Option Nat :=
  let unit := shiftRatio num den k
  let inside := fun t : Nat =>
    if r.closed then r.low * unit.1 ≤ t * unit.2 && t * unit.2 ≤ r.high * unit.1
    else r.low * unit.1 < t * unit.2 && t * unit.2 < r.high * unit.1
  let lower := r.value * unit.1 / unit.2
  let upper := lower + 1
  let lowerGap := r.value * unit.1 - lower * unit.2
  let upperGap := upper * unit.2 - r.value * unit.1
  if inside lower && inside upper then
    some (if lowerGap < upperGap || (lowerGap == upperGap && lower % 2 == 0) then lower else upper)
  else if inside lower then some lower
  else if inside upper then some upper
  else none

/-- Tries grids from coarse to fine, at most `fuel` of them. -/
def shortestFrom (r : Reach) (num den : Nat) : Nat → Int → Decimal
  | 0, k => .ofScaled (r.value * (shiftRatio num den k).1 / (shiftRatio num den k).2) k
  | fuel + 1, k =>
    match gridPoint? r num den k with
    | some t => .ofScaled t k
    | none => shortestFrom r num den fuel (k - 1)

/-- The fewest digits that read back as the double `m · 2 ^ e`, the nearest of those; seventeen digits
always suffice. -/
def shortest (m : Nat) (e : Int) : Decimal :=
  let unit : Nat × Nat := match e - 2 with
    | .ofNat k => (twoTo k, 1)
    | .negSucc k => (1, twoTo (k + 1))
  let r := reach m e
  shortestFrom r unit.1 unit.2 17 (leadingExponent (r.value * unit.1) unit.2)

/-- How digits are laid out: the range of points that need no exponent, and whether a single digit before
an exponent is followed by a point and a zero. -/
structure Style where
  firstPlain : Int
  lastPlain : Int
  pointBeforeExponent : Bool

/-- An exponent: a sign and at least two digits. -/
def exponentText (e : Int) : List Char :=
  let ds := Nat.toDigits 10 e.natAbs
  'e' :: (if e < 0 then '-' else '+') :: (if ds.length < 2 then '0' :: ds else ds)

/-- Digits laid out in a style; a text without exponent always has a digit after its point. -/
def Decimal.layOut (style : Style) (d : Decimal) : List Char :=
  if style.firstPlain ≤ d.point && d.point ≤ style.lastPlain then
    if d.point ≤ 0 then '0' :: '.' :: List.replicate (-d.point).toNat '0' ++ d.digits
    else if d.digits.length ≤ d.point.toNat then
      d.digits ++ List.replicate (d.point.toNat - d.digits.length) '0' ++ ['.', '0']
    else d.digits.take d.point.toNat ++ '.' :: d.digits.drop d.point.toNat
  else
    let fraction := match d.digits.drop 1 with
      | [] => if style.pointBeforeExponent then ['.', '0'] else []
      | ds => '.' :: ds
    d.digits.take 1 ++ fraction ++ exponentText (d.point - 1)

/-- Messages write numbers from 0.0001 up to sixteen digits before the point without an exponent. -/
def messageStyle : Style := ⟨-3, 16, false⟩

def Double.text (x : Double) : String :=
  match x.magnitude with
  | .nan => "nan"
  | .infinite => if x.isNegative then "-inf" else "inf"
  | .finite m e =>
    let body := if m == 0 then ['0', '.', '0'] else (shortest m e).layOut messageStyle
    String.ofList (if x.isNegative then '-' :: body else body)

/-- The text starts with digits, between which single underscores may stand; what follows them. -/
def afterDigits? (s : List Char) : Option (List Char) :=
  let isPart := fun c : Char => c == '_' || (digitValue? c).isSome
  (readDigits? (s.takeWhile isPart)).map fun _ => s.dropWhile isPart

/-- What follows a number without sign and exponent: digits, a point, or both. -/
def afterDecimal? (s : List Char) : Option (List Char) :=
  match s with
  | '.' :: rest => afterDigits? rest
  | _ => (afterDigits? s).map fun
    | '.' :: rest => (afterDigits? rest).getD rest
    | rest => rest

/-- What follows one sign, if there is any. -/
def afterSign : List Char → List Char
  | '-' :: rest => rest
  | '+' :: rest => rest
  | s => s

/-- The text writes a double: a decimal number, or one of the words for numbers without digits. -/
def writesDouble (s : List Char) : Bool :=
  let body := afterSign (trimInteger s)
  ["inf", "infinity", "nan"].contains (String.ofList (lowerPlain body)) ||
    match afterDecimal? body with
    | some [] => true
    | some (c :: rest) => (c == 'e' || c == 'E') && (afterDigits? (afterSign rest)) == some []
    | none => false

end Roster.Number
