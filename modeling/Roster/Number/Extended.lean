import Roster.Number.Double

/-!
Numbers of extended precision.

An extended number is not negative and has a mantissa of 64 bits, eleven more than a double. Each operation
computes the exact result as a ratio and rounds it once, to the nearest extended number, a tie going to the
even mantissa. The exponent has no bounds here, as no computation below comes near those of the format.
-/

set_option autoImplicit false

namespace Roster.Number

/-- A mantissa times two to an exponent. -/
structure Extended where
  mantissa : Nat
  exponent : Int
  deriving DecidableEq, Repr

namespace Extended

def ratio (x : Extended) : Nat × Nat :=
  match x.exponent with
  | .ofNat k => (x.mantissa * twoTo k, 1)
  | .negSucc k => (x.mantissa, twoTo (k + 1))

/-- The least exponent at which a positive ratio has at most 64 bits before its point. -/
def ratioExponent (num den : Nat) : Int :=
  let guess : Int := (num.log2 : Int) - den.log2 - 63
  let scaled := Double.scaleRatio num den guess
  if scaled.1 < twoTo 63 * scaled.2 then guess - 1 else guess

def ofRatio (num den : Nat) : Extended :=
  if num == 0 then ⟨0, 0⟩
  else
    let e := ratioExponent num den
    let scaled := Double.scaleRatio num den e
    ⟨Double.roundHalfEven scaled.1 scaled.2, e⟩

/-- The extended number nearest to a whole number. -/
def ofNat (n : Nat) : Extended := ofRatio n 1

/-- A double without its sign; what is no finite number counts as zero. -/
def ofDouble (x : Double) : Extended :=
  match x.magnitude with
  | .finite m e => ⟨m, e⟩
  | _ => ⟨0, 0⟩

/-- The double nearest to an extended number, with a sign. -/
def toDouble (negative : Bool) (x : Extended) : Double :=
  Double.ofRatio negative x.ratio.1 x.ratio.2

def add (x y : Extended) : Extended :=
  ofRatio (x.ratio.1 * y.ratio.2 + y.ratio.1 * x.ratio.2) (x.ratio.2 * y.ratio.2)

/-- The difference, zero if the second number is the greater. -/
def sub (x y : Extended) : Extended :=
  ofRatio (x.ratio.1 * y.ratio.2 - y.ratio.1 * x.ratio.2) (x.ratio.2 * y.ratio.2)

def mul (x y : Extended) : Extended :=
  ofRatio (x.ratio.1 * y.ratio.1) (x.ratio.2 * y.ratio.2)

/-- The quotient by a number other than zero. -/
def div (x y : Extended) : Extended :=
  ofRatio (x.ratio.1 * y.ratio.2) (x.ratio.2 * y.ratio.1)

/-- The first number is not greater than the second. -/
def atMost (x y : Extended) : Bool :=
  x.ratio.1 * y.ratio.2 ≤ y.ratio.1 * x.ratio.2

def floor (x : Extended) : Nat :=
  x.ratio.1 / x.ratio.2

/-- Ten to a power by repeated squaring, starting from a power of ten and a product so far. -/
def powerFrom (square product : Extended) (n : Nat) : Extended :=
  if n = 0 then product
  else powerFrom (square.mul square) (if n % 2 = 1 then product.mul square else product) (n / 2)
termination_by n

/-- Ten to a power, every factor rounded. -/
def tenPower (n : Nat) : Extended :=
  powerFrom (ofNat 10) (ofNat 1) n

end Extended

end Roster.Number
