import Roster.Number.Decimal
import Roster.Number.Extended

/-!
Doubles and their decimal texts in the store.

The store converts in both directions with extended precision and a chain of roundings, so that its results
can differ from the nearest ones in the last place. To write a double, it divides it by a power of ten, adds
half a unit of the fifteenth digit, and takes off fifteen digits one by one. To read a text, it keeps the
digits that fit 63 bits and multiplies or divides them once by a power of ten.
-/

set_option autoImplicit false

namespace Roster.Number

/-- A number and the power of ten that has been taken out of it. -/
structure Scaled where
  value : Extended
  exponent : Int

/-- Multiplies a scale by a factor as long as it stays within a number; `step` is the power of ten of the
factor. -/
def growScale (x factor : Extended) (step : Nat) : Nat → Scaled → Scaled
  | 0, scale => scale
  | fuel + 1, scale =>
    if (factor.mul scale.value).atMost x then
      growScale x factor step fuel ⟨scale.value.mul factor, scale.exponent + step⟩
    else scale

/-- Multiplies a number by a factor as long as it is below a bound. -/
def growNumber (bound factor : Extended) (step : Nat) : Nat → Scaled → Scaled
  | 0, x => x
  | fuel + 1, x =>
    if bound.atMost x.value then x
    else growNumber bound factor step fuel ⟨x.value.mul factor, x.exponent - step⟩

/-- The double nearest to a decimal number, as an extended number. -/
def decimalConstant (digits : Nat) (exponent : Int) : Extended :=
  .ofDouble (.ofDecimal false digits exponent)

/-- Half a unit of the fifteenth digit of a number between one and ten, itself the product of two doubles. -/
def halfUnit : Extended :=
  let a := (decimalConstant 5 (-5)).ratio
  let b := (decimalConstant 1 (-10)).ratio
  .ofDouble (.ofRatio false (a.1 * b.1) (a.2 * b.2))

/-- Brings a positive number between one and ten, first down by steps of a hundred, ten and one places and
then up by steps of eight and one. -/
def normalize (x : Extended) : Scaled :=
  let scale := growScale x (decimalConstant 1 100) 100 4 ⟨.ofNat 1, 0⟩
  let scale := growScale x (.ofNat (tenTo 10)) 10 10 scale
  let scale := growScale x (.ofNat 10) 1 10 scale
  let low := growNumber (decimalConstant 1 (-8)) (.ofNat (tenTo 8)) 8 50 ⟨x.div scale.value, scale.exponent⟩
  growNumber (.ofNat 1) (.ofNat 10) 1 10 low

/-- Rounds a number between one and ten by half a unit. -/
def roundScaled (x : Scaled) : Scaled :=
  let sum := x.value.add halfUnit
  if (Extended.ofNat 10).atMost sum then ⟨sum.mul (decimalConstant 1 (-1)), x.exponent + 1⟩
  else ⟨sum, x.exponent⟩

/-- Takes digits off a number one by one. -/
def takeDigits : Nat → Extended → List Char
  | 0, _ => []
  | n + 1, x =>
    let d := x.floor
    Char.ofNat (0x30 + d) :: takeDigits n ((x.sub (.ofNat d)).mul (.ofNat 10))

/-- The fifteen digits that the store writes of a positive number. -/
def storedDigits (x : Extended) : Decimal :=
  let scaled := roundScaled (normalize x)
  ⟨stripZeros (takeDigits 15 scaled.value), scaled.exponent + 1⟩

/-- The store writes numbers from 0.0001 up to fifteen digits before the point without an exponent. -/
def storeStyle : Style := ⟨-3, 15, true⟩

/-- The text that the store keeps for a double in a text column: fifteen digits, no sign on a zero, and
nothing for a number that is none. -/
def Double.storedText? (x : Double) : Option String :=
  match x.magnitude with
  | .nan => none
  | .infinite => some (if x.isNegative then "-Inf" else "Inf")
  | .finite m e =>
    if m == 0 then some "0.0"
    else
      let body := (storedDigits ⟨m, e⟩).layOut storeStyle
      some (String.ofList (if x.isNegative then '-' :: body else body))

/-- The number from which on a significand takes no further digit. -/
def significandLimit : Nat := 922337203685477579

/-- Appends digits to a significand as long as it takes any, and counts them. -/
def extendSignificand (significand : Nat) : List Char → Nat × Nat
  | [] => (significand, 0)
  | d :: rest =>
    if significand < significandLimit then
      let (s, n) := extendSignificand (10 * significand + (d.toNat - 0x30)) rest
      (s, n + 1)
    else (significand, 0)

/-- Moves places from a positive exponent into a significand as long as there is room. -/
def raiseSignificand : Nat → Nat → Nat × Nat
  | s, 0 => (s, 0)
  | s, e + 1 => if s < 922337203685477580 then raiseSignificand (10 * s) e else (s, e + 1)

/-- Moves places from a negative exponent into a significand as long as it ends in zeros. -/
def lowerSignificand : Nat → Nat → Nat × Nat
  | s, 0 => (s, 0)
  | s, e + 1 => if s % 10 = 0 then lowerSignificand (s / 10) e else (s, e + 1)

/-- A significand times ten to a power. Beyond the powers that a double holds, one step goes as far as the
extended power, and a second by 308 places. -/
def scaleUp (negative : Bool) (s e : Nat) : Double :=
  if e = 0 then .ofRatio negative s 1
  else if e ≤ 307 then ((Extended.ofNat s).mul (.tenPower e)).toDouble negative
  else if e < 342 then
    let first := Extended.ofDouble (((Extended.ofNat s).mul (.tenPower (e - 308))).toDouble false)
    let rest := decimalConstant 1 308
    .ofRatio negative (first.ratio.1 * rest.ratio.1) (first.ratio.2 * rest.ratio.2)
  else .infinity negative

/-- A significand divided by ten to a power, in two steps as well. -/
def scaleDown (negative : Bool) (s e : Nat) : Double :=
  if e = 0 then .ofRatio negative s 1
  else if e ≤ 307 then ((Extended.ofNat s).div (.tenPower e)).toDouble negative
  else if e < 342 then
    let first := Extended.ofDouble (((Extended.ofNat s).div (.tenPower (e - 308))).toDouble false)
    let rest := decimalConstant 1 308
    .ofRatio negative (first.ratio.1 * rest.ratio.2) (first.ratio.2 * rest.ratio.1)
  else .ofMagnitudeBits negative 0

/-- The double that the store reads from the digits before and after a point and an exponent. -/
def Double.ofStored (negative : Bool) (whole fraction : List Char) (exponent : Int) : Double :=
  let (s, used) := extendSignificand 0 whole
  let (s, places) := extendSignificand s fraction
  if s = 0 then .ofMagnitudeBits negative 0
  else
    match exponent + (whole.length - used : Nat) - places with
    | .ofNat e =>
      let (s, e) := raiseSignificand s e
      scaleUp negative s e
    | .negSucc e =>
      let (s, e) := lowerSignificand s (e + 1)
      scaleDown negative s e

end Roster.Number
