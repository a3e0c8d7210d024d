import Roster.Json.Reader
import Roster.Text.Split

/-!
Whole numbers in the texts of settings.

A number may be surrounded by blanks and may have a sign, zeros and underscores in front, single underscores
between its digits, and a point with zeros after it. All of these are taken off, and what is left has to be
a plain numeral.
-/

set_option autoImplicit false

namespace Roster.WholeNumber

open Text (splitFirst?)

/-- A digit other than zero. -/
def isLeadingDigit (c : Char) : Bool :=
  '1' ≤ c && c ≤ '9'

/-- The rest of a text from its first digit other than zero or its minus sign, after zeros and underscores.
A point keeps the character before it, and so does the end of the text. -/
def skipZeros (last : Char) : List Char → Option (List Char)
  | [] => some [last]
  | c :: rest =>
    if c == '0' || c == '_' then skipZeros c rest
    else if c == '.' then some (last :: c :: rest)
    else if c == '-' || isLeadingDigit c then some (c :: rest)
    else none

/-- The text without zeros in front; it has to start with a digit or a minus sign. -/
def withoutZeros : List Char → Option (List Char)
  | [] => none
  | c :: rest =>
    if c == '0' then skipZeros c rest
    else if c == '-' || isLeadingDigit c then some (c :: rest)
    else none

/-- The text without a point and the zeros after it. -/
def withoutFraction (s : List Char) : Option (List Char) :=
  match splitFirst? '.' s with
  | none => some s
  | some (whole, fraction) => if fraction.isEmpty || fraction.any (· != '0') then none else some whole

/-- Two underscores stand side by side. -/
def hasDoubled : List Char → Bool
  | '_' :: '_' :: _ => true
  | _ :: rest => hasDoubled rest
  | [] => false

/-- The text without its underscores, which stand alone and not at its ends. -/
def withoutUnderscores (s : List Char) : Option (List Char) :=
  if s.head? == some '_' || s.getLast? == some '_' || hasDoubled s then none
  else some (s.filter (· != '_'))

/-- The text without a plus sign; no other sign may follow it. -/
def withoutPlus : List Char → Option (List Char)
  | '+' :: '-' :: _ => none
  | '+' :: rest => some rest
  | s => some s

/-- The number that digits without needless zeros write. -/
def digits? : List Char → Option Nat
  | [] => none
  | [c] => if c.isDigit then some (Json.digitsValue [c]) else none
  | c :: rest =>
    if isLeadingDigit c && rest.all Char.isDigit then some (Json.digitsValue (c :: rest)) else none

/-- The number of a plain numeral, unless it is too long. -/
def numeral? (s : List Char) : Option Int :=
  if s.length ≤ Number.maxDigits then
    match s with
    | '-' :: ds => (digits? ds).map fun n => -(n : Int)
    | ds => (digits? ds).map Int.ofNat
  else none

def ofText? (s : String) : Option Int := do
  numeral? (← withoutUnderscores (← withoutFraction (← withoutZeros (← withoutPlus
    (Number.trimInteger s.toList)))))

end Roster.WholeNumber
