/-!
Double-precision numbers by their bits.

A number is one sign bit, eleven exponent bits and 52 fraction bits. Its value is decoded into a whole
number times a power of two, so all questions about it are questions about integers, and a ratio of
integers is rounded to the nearest double, ties going to the even neighbour.
-/

set_option autoImplicit false

namespace Roster.Number

def twoTo (k : Nat) : Nat := Nat.pow 2 k

def tenTo (k : Nat) : Nat := Nat.pow 10 k

/-- A double-precision number. -/
structure Double where
  bits : BitVec 64
  deriving DecidableEq, Repr, Inhabited

namespace Double

/-- What the exponent bits say of a number without its sign. -/
inductive Magnitude
  | nan
  | infinite
  | finite (mantissa : Nat) (exponent : Int)
  deriving DecidableEq, Repr

/-- The sign bit. -/
def isNegative (x : Double) : Bool :=
  x.bits.msb

/-- A finite magnitude is its mantissa times two to its exponent. -/
def magnitude (x : Double) : Magnitude :=
  let exponentBits : Nat := x.bits.toNat / twoTo 52 % twoTo 11
  let fraction : Nat := x.bits.toNat % twoTo 52
  if exponentBits == 0x7ff then
    if fraction == 0 then .infinite else .nan
  else if exponentBits == 0 then .finite fraction (-1074)
  else .finite (twoTo 52 + fraction) (exponentBits - 1075)

def nan : Double := ⟨0x7ff8000000000000#64⟩

def infinity (negative : Bool) : Double :=
  ⟨if negative then 0xfff0000000000000#64 else 0x7ff0000000000000#64⟩

/-- A number from its sign and the 63 bits below it. -/
def ofMagnitudeBits (negative : Bool) (n : Nat) : Double :=
  ⟨BitVec.ofNat 64 (if negative then twoTo 63 + n else n)⟩

/-- The nearest whole number to a ratio, a tie going to the even one. -/
def roundHalfEven (num den : Nat) : Nat :=
  let q := num / den
  let r := num % den
  if 2 * r > den || (2 * r == den && q % 2 == 1) then q + 1 else q

/-- A ratio divided by two to a power, as a ratio. -/
def scaleRatio (num den : Nat) (e : Int) : Nat × Nat :=
  match e with
  | .ofNat k => (num, den * twoTo k)
  | .negSucc k => (num * twoTo (k + 1), den)

/-- The least exponent at which a positive ratio has at most 53 bits before its point, but none below
the exponent of the smallest numbers. -/
def ratioExponent (num den : Nat) : Int :=
  let guess : Int := (num.log2 : Int) - den.log2 - 52
  let scaled := scaleRatio num den guess
  let e := if scaled.1 < twoTo 52 * scaled.2 then guess - 1 else guess
  max e (-1074)

def ofRatio (negative : Bool) (num den : Nat) : Double :=
  if num == 0 then ofMagnitudeBits negative 0
  else
    let e := ratioExponent num den
    let scaled := scaleRatio num den e
    let n := (e + 1074).toNat * twoTo 52 + roundHalfEven scaled.1 scaled.2
    if n < 0x7ff * twoTo 52 then ofMagnitudeBits negative n else infinity negative

/-- The double nearest to `digits · 10 ^ exponent`. Numbers beyond the range of all doubles are decided
by the count of digits alone. -/
def ofDecimal (negative : Bool) (digits : Nat) (exponent : Int) : Double :=
  let places : Int := (Nat.toDigits 10 digits).length + exponent
  if digits == 0 || places < -400 then ofMagnitudeBits negative 0
  else if places > 400 then infinity negative
  else
    match exponent with
    | .ofNat k => ofRatio negative (digits * tenTo k) 1
    | .negSucc k => ofRatio negative digits (tenTo (k + 1))

def truncate? (x : Double) : Option Int :=
  match x.magnitude with
  | .finite m e =>
    let n : Nat := match e with
      | .ofNat k => m * twoTo k
      | .negSucc k => m / twoTo (k + 1)
    some (if x.isNegative then -(n : Int) else n)
  | _ => none

end Double

/-- The exact value of a number: all that is not a number is one value, and the two zeros are one. -/
inductive Value
  | nan
  | infinite (negative : Bool)
  | exact (value : Dyadic)
  deriving DecidableEq

def Value.ofInt (n : Int) : Value :=
  .exact (.ofInt n)

def Double.value (x : Double) : Value :=
  match x.magnitude with
  | .nan => .nan
  | .infinite => .infinite x.isNegative
  | .finite m e => .exact (.ofIntWithPrec (if x.isNegative then -(m : Int) else m) (-e))

end Roster.Number
