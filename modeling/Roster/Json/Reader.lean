import Roster.Json.Basic
import Roster.Number.Integer
import Roster.Text.CodePoint

/-!
Reading JSON documents.

Beyond the standard, the three constants `NaN`, `Infinity` and `-Infinity` are numbers. A document is one
value between blanks; of fields with one name the last counts. Integers with too many digits and values
nested too deeply are readable as JSON but have no value here, so they are errors of their own. The first
error in the order of the text is the one that counts.
-/

set_option autoImplicit false

namespace Roster.Json

open Number (Double)

/-- Why a document has no value. -/
inductive ReadError
  | malformed
  | tooManyDigits
  | tooDeep
  deriving DecidableEq, Repr

/-- Blanks between the parts of a document. -/
def isSpace (c : Char) : Bool :=
  c == ' ' || c == '\n' || c == '\r' || c == '\t'

def skipSpace (s : List Char) : List Char :=
  s.dropWhile isSpace

def hexValue? (c : Char) : Option Nat :=
  if '0' ≤ c && c ≤ '9' then some (c.toNat - 0x30)
  else if 'a' ≤ c && c ≤ 'f' then some (c.toNat - 0x57)
  else if 'A' ≤ c && c ≤ 'F' then some (c.toNat - 0x37)
  else none

def hexUnit? (a b c d : Char) : Option Nat := do
  return ((← hexValue? a) * 0x1000 + (← hexValue? b) * 0x100 + (← hexValue? c) * 0x10 + (← hexValue? d))

/-- The value of a text given by code points. -/
def ofPoints (points : List Nat) : Json :=
  if points.any Text.isHalf then .torn points else .str (Text.ofPoints points)

/-- The character after a backslash. -/
def escaped? : Char → Option Char
  | '"' => some '"'
  | '\\' => some '\\'
  | '/' => some '/'
  | 'b' => some '\x08'
  | 'f' => some '\x0c'
  | 'n' => some '\n'
  | 'r' => some '\r'
  | 't' => some '\t'
  | _ => none

/-- The code points of the rest of a text after its opening quote; `done` are those before it, latest
first. -/
def readText (done : List Nat) : List Char → Except ReadError (List Nat × List Char)
  | [] => .error .malformed
  | '"' :: rest => .ok (done.reverse, rest)
  | '\\' :: 'u' :: a :: b :: c :: d :: '\\' :: 'u' :: a' :: b' :: c' :: d' :: rest =>
    match hexUnit? a b c d, hexUnit? a' b' c' d' with
    | none, _ => .error .malformed
    | some high, some low =>
      if Text.isLeading high && Text.isTrailing low then readText (Text.pairPoint high low :: done) rest
      else readText (high :: done) ('\\' :: 'u' :: a' :: b' :: c' :: d' :: rest)
    | some high, none => readText (high :: done) ('\\' :: 'u' :: a' :: b' :: c' :: d' :: rest)
  | '\\' :: 'u' :: a :: b :: c :: d :: rest =>
    match hexUnit? a b c d with
    | some n => readText (n :: done) rest
    | none => .error .malformed
  | '\\' :: c :: rest =>
    match escaped? c with
    | some e => readText (e.toNat :: done) rest
    | none => .error .malformed
  | c :: rest => if c.toNat < 0x20 then .error .malformed else readText (c.toNat :: done) rest

/-- The number that digits from 0 to 9 write. -/
def digitsValue (ds : List Char) : Nat :=
  ds.foldl (fun n d => 10 * n + (d.toNat - 0x30)) 0

/-- The digits after a point, if a digit follows it, and the rest. -/
def readFraction : List Char → List Char × List Char
  | '.' :: rest =>
    match rest.takeWhile Char.isDigit with
    | [] => ([], '.' :: rest)
    | ds => (ds, rest.dropWhile Char.isDigit)
  | s => ([], s)

/-- The exponent, if a digit follows its mark and sign, and the rest. -/
def readExponent : List Char → Option Int × List Char
  | c :: rest =>
    if c == 'e' || c == 'E' then
      let body := match rest with
        | '+' :: ds => ds
        | '-' :: ds => ds
        | ds => ds
      match body.takeWhile Char.isDigit with
      | [] => (none, c :: rest)
      | ds =>
        let n : Int := digitsValue ds
        (some (if rest.head? == some '-' then -n else n), body.dropWhile Char.isDigit)
    else (none, c :: rest)
  | [] => (none, [])

/-- A number after its sign. A whole part of several digits starts with no zero. -/
def readUnsigned (negative : Bool) (s : List Char) : Except ReadError (Json × List Char) :=
  let whole := match s with
    | '0' :: _ => ['0']
    | _ => s.takeWhile Char.isDigit
  if whole.isEmpty then .error .malformed
  else
    let (fraction, afterFraction) := readFraction (s.drop whole.length)
    let (exponent, rest) := readExponent afterFraction
    if fraction.isEmpty && exponent.isNone then
      if whole.length ≤ Number.maxDigits then
        let n : Int := digitsValue whole
        .ok (.int (if negative then -n else n), rest)
      else .error .tooManyDigits
    else
      .ok (.double (.ofDecimal negative (digitsValue (whole ++ fraction))
        (exponent.getD 0 - fraction.length)), rest)

/-- A constant written as a word. -/
def readWord (word : List Char) (value : Json) (s : List Char) : Except ReadError (Json × List Char) :=
  if word.isPrefixOf s then .ok (value, s.drop word.length) else .error .malformed

mutual

/-- A value at the front of a document, in which arrays and objects may be nested to a number of levels. -/
def readValue : Nat → Nat → List Char → Except ReadError (Json × List Char)
  | 0, _, _ => .error .malformed
  | fuel + 1, levels, s =>
    match s, levels with
    | '"' :: rest, _ => do
      let (points, rest) ← readText [] rest
      return (ofPoints points, rest)
    | '[' :: _, 0 | '\x7b' :: _, 0 => .error .tooDeep
    | '[' :: rest, levels + 1 =>
      match skipSpace rest with
      | ']' :: rest => .ok (.arr [], rest)
      | rest => do
        let (items, rest) ← readItems fuel levels rest
        return (.arr items, rest)
    | '\x7b' :: rest, levels + 1 =>
      match skipSpace rest with
      | '\x7d' :: rest => .ok (.obj [], rest)
      | rest => do
        let (fields, rest) ← readFields fuel levels [] rest
        return (.obj fields, rest)
    | 'n' :: _, _ => readWord "null".toList .null s
    | 't' :: _, _ => readWord "true".toList (.bool true) s
    | 'f' :: _, _ => readWord "false".toList (.bool false) s
    | 'N' :: _, _ => readWord "NaN".toList (.double .nan) s
    | 'I' :: _, _ => readWord "Infinity".toList (.double (.infinity false)) s
    | '-' :: 'I' :: _, _ => readWord "-Infinity".toList (.double (.infinity true)) s
    | '-' :: rest, _ => readUnsigned true rest
    | _, _ => readUnsigned false s

/-- The items of an array up to its end. -/
def readItems : Nat → Nat → List Char → Except ReadError (List Json × List Char)
  | 0, _, _ => .error .malformed
  | fuel + 1, levels, s => do
    let (item, rest) ← readValue fuel levels s
    match skipSpace rest with
    | ']' :: rest => return ([item], rest)
    | ',' :: rest =>
      let (items, rest) ← readItems fuel levels (skipSpace rest)
      return (item :: items, rest)
    | _ => .error .malformed

/-- The fields of an object up to its end, after those read before. -/
def readFields : Nat → Nat → List (String × Json) → List Char →
    Except ReadError (List (String × Json) × List Char)
  | 0, _, _, _ => .error .malformed
  | fuel + 1, levels, done, s =>
    match s with
    | '"' :: rest => do
      let (points, rest) ← readText [] rest
      match skipSpace rest with
      | ':' :: rest =>
        let (value, rest) ← readValue fuel levels (skipSpace rest)
        let done := setField (Text.ofPoints points) value done
        match skipSpace rest with
        | '\x7d' :: rest => return (done, rest)
        | ',' :: rest => readFields fuel levels done (skipSpace rest)
        | _ => .error .malformed
      | _ => .error .malformed
    | _ => .error .malformed

end

/-- The value of a document nested to at most a number of levels. Every step reads at least one character,
so its length bounds the steps. -/
def readWithin (levels : Nat) (s : List Char) : Except ReadError Json := do
  let (value, rest) ← readValue (s.length + 1) levels (skipSpace s)
  if (skipSpace rest).isEmpty then return value else .error .malformed

/-- The value of a document, however deeply it is nested. -/
def read (s : List Char) : Except ReadError Json :=
  readWithin s.length s

/-- The number of levels to which the documents of clients may be nested: a host that nests at most a thousand calls
has this many left where it reads the body of a request. -/
def maxLevels : Nat := 960

end Roster.Json
