import Roster.Json.Display
import Roster.Number.Stored
import Roster.Number.Integer
import Roster.Text.Lower
import Roster.Clock
import Roster.Error

/-!
Stored values.

A cell holds nothing, an integer of 64 bits, a double, a text, or a reading of the clock. Cells are
ordered: nothing comes first, then numbers by value, then texts by code points. A column has a type, which
decides what a JSON value becomes when it is written: a text column turns numbers into their text, and an
integer column turns texts that write numbers into numbers and keeps other texts.
-/

set_option autoImplicit false

namespace Roster

open Number

/-- A stored value. -/
inductive Cell
  | null
  | integer (n : Int)
  | real (x : Double)
  | text (s : String)
  | time (t : Nat)
  deriving DecidableEq, Repr

inductive ColumnType
  | integer
  | text
  | truth
  | time
  deriving DecidableEq, Repr

/-- Compares two exact values; infinite ones are at the ends. -/
def Number.Value.compare : Value → Value → Ordering
  | .exact x, .exact y => if x.blt y then .lt else if y.blt x then .gt else .eq
  | .infinite true, .infinite true => .eq
  | .infinite false, .infinite false => .eq
  | .infinite true, _ => .lt
  | _, .infinite true => .gt
  | .infinite false, _ => .gt
  | _, .infinite false => .lt
  | .nan, .nan => .eq
  | .nan, .exact _ => .lt
  | .exact _, .nan => .gt

namespace Cell

def json : Cell → Json
  | null => .null
  | integer n => .int n
  | real x => .double x
  | text s => .str s
  | time t => .str (Clock.documentText t)

/-- The plain text of a cell; times are written as in messages. -/
def display : Cell → String
  | time t => Clock.text t
  | cell => cell.json.text

/-- The text of a cell in text comparisons. -/
def asText : Cell → Option String
  | null => none
  | integer n => some (integerText n)
  | real x => x.storedText?
  | text s => some s
  | time t => some (Clock.storedText t)

/-- The place of a kind of cell in the order of cells. -/
def rank : Cell → Nat
  | null => 0
  | integer _ | real _ => 1
  | text _ | time _ => 2

def compare : Cell → Cell → Ordering
  | integer a, integer b => Ord.compare a b
  | integer a, real b => (Value.ofInt a).compare b.value
  | real a, integer b => a.value.compare (.ofInt b)
  | real a, real b => a.value.compare b.value
  | text a, text b => Ord.compare a b
  | time a, time b => Ord.compare a b
  | time a, text b => Ord.compare (Clock.storedText a) b
  | text a, time b => Ord.compare a (Clock.storedText b)
  | a, b => Ord.compare a.rank b.rank

end Cell

/-- Blanks that may surround a number in an integer column. -/
def isColumnBlank (c : Char) : Bool :=
  c == ' ' || (0x9 ≤ c.toNat && c.toNat ≤ 0xd)

/-- A double in an integer column: an integer when it is whole and in range. -/
def wholeCell (x : Double) : Cell :=
  match x.truncate? with
  | some n => if Value.ofInt n == x.value && minInt64 < n && n < maxInt64 then .integer n else .real x
  | none => if x.value == .nan then .null else .real x

/-- The sign in front of a number and the rest. -/
def splitSign : List Char → Bool × List Char
  | '-' :: rest => (true, rest)
  | '+' :: rest => (false, rest)
  | s => (false, s)

/-- The number written by digits from 0 to 9. -/
def plainDigits (ds : List Char) : Nat :=
  ds.foldl (fun n d => 10 * n + (d.toNat - 0x30)) 0

/-- The exponent that digits write, which counts no further than to ten thousand. -/
def exponentDigits (ds : List Char) : Nat :=
  ds.foldl (fun n d => if n < 10000 then 10 * n + (d.toNat - 0x30) else 10000) 0

/-- The exponent that a text writes after its digits; it has to be all of the text. -/
def exponent? : List Char → Option Int
  | [] => some 0
  | c :: rest =>
    if c == 'e' || c == 'E' then
      let (negative, ds) := splitSign rest
      if ds.isEmpty || ds.any fun d => !d.isDigit then none
      else some (if negative then -(exponentDigits ds : Int) else exponentDigits ds)
    else none

/-- The cell of a text that writes a decimal number and nothing else. -/
def numberCell? (s : String) : Option Cell :=
  let trimmed := ((s.toList.dropWhile isColumnBlank).reverse.dropWhile isColumnBlank).reverse
  let (negative, body) := splitSign trimmed
  let whole := body.takeWhile Char.isDigit
  let rest := body.dropWhile Char.isDigit
  let fraction := if rest.head? == some '.' then (rest.drop 1).takeWhile Char.isDigit else []
  let tail := if rest.head? == some '.' then (rest.drop 1).dropWhile Char.isDigit else rest
  if whole.isEmpty && fraction.isEmpty then none
  else
    let n : Int := if negative then -(plainDigits whole : Int) else plainDigits whole
    if rest.isEmpty && fitsInt64 n then some (.integer n)
    else (exponent? tail).map fun e =>
      wholeCell (.ofStored negative whole fraction e)

/-- What a JSON value becomes in a column. Arrays, objects and torn texts have no place in the store, nor
have integers of more than 64 bits, and no JSON value is a reading of the clock. -/
def Cell.ofJson : ColumnType → Json → Except Fault Cell
  | _, .null => .ok .null
  | .time, _ => .error .store
  | _, .arr _ => .error .store
  | _, .obj _ => .error .store
  | _, .torn _ => .error .value
  | .text, .str s => .ok (.text s)
  | .text, .bool b => .ok (.text (if b then "1" else "0"))
  | .text, .int n => if fitsInt64 n then .ok (.text (integerText n)) else .error .overflow
  | .text, .double x => .ok ((x.storedText?.map Cell.text).getD .null)
  | _, .str s => .ok ((numberCell? s).getD (.text s))
  | _, .bool b => .ok (.integer (if b then 1 else 0))
  | _, .int n => if fitsInt64 n then .ok (.integer n) else .error .overflow
  | _, .double x => .ok (wholeCell x)

end Roster
