import Roster.Json.Equality
import Roster.Store.Basic
import Roster.Store.Coerce
import Roster.Store.Like
import Roster.Filter.Basic
import Roster.ListOrder

/-!
Queries on the store.

Every query sees the rows of one company only. A comparison with a column that holds nothing is never true.
Rows are found in the order of their numbers unless an order is given; the number is always the last
criterion of an order. One statement of the store takes only so many values and sorts by only so many criteria;
what needs more is refused by the store, whatever it holds.
-/

set_option autoImplicit false

namespace Roster.Store

variable {k : Kind}

/-- The column with a name, or the mistake to name it. -/
def column (k : Kind) (name : String) : Except Failure (Column k) :=
  match Column.ofName? k name with
  | some c => .ok c
  | none => .error (.refused (.configuration (.unknownColumn k name)))

/-- The rows of a company. -/
def owned (s : Store) (k : Kind) (owner : Company) : List (Row k) :=
  (s.table k).rows.filter fun r => r.company == .integer owner.id

/-- What a cell of a column is compared with. Only text columns take a text for what it is; the others read
numbers from it. Numbers are compared within 64 bits only, and torn texts, arrays and objects with nothing. -/
def operand (type : ColumnType) : Json → Except Fault Cell
  | .null => .ok .null
  | .bool b => .ok (.integer (if b then 1 else 0))
  | .int n => if Number.fitsInt64 n then .ok (.integer n) else .error .overflow
  | .double x => .ok (if x.value == .nan then .null else .real x)
  | .str s => .ok (if type = .text then .text s else (numberCell? s).getD (.text s))
  | .torn _ => .error .value
  | .arr _ | .obj _ => .error .store

/-- A comparison of two cells holds; with nothing on either side it does not. -/
def compares (cell other : Cell) (test : Ordering → Bool) : Bool :=
  cell != .null && other != .null && test (cell.compare other)

/-- The text of a cell matches a pattern. -/
def resembles (cell : Cell) (pattern : List Char) : Bool :=
  match cell.asText with
  | some s => Like.accepts pattern s.toList
  | none => false

/-- The pattern that a comparison makes of a text, if it compares by one. -/
def pattern? (operator : Filter.Operator) (text : List Char) : Option (List Char) :=
  match operator with
  | .co => some (Like.containing text)
  | .sw => some (Like.startingWith text)
  | .ew => some (Like.endingWith text)
  | _ => none

/-- What a comparison by order accepts. -/
def accepted : Filter.Operator → Ordering → Bool
  | .ne, o => o != .eq
  | .gt, o => o == .gt
  | .ge, o => o != .lt
  | .lt, o => o == .lt
  | .le, o => o != .gt
  | _, o => o == .eq

/-- The test that a comparison with a value makes on a cell of a column. -/
def test (type : ColumnType) (operator : Filter.Operator) (value : Json) : Except Failure (Cell → Bool) :=
  match pattern? operator value.text.toList with
  | some pattern => .ok fun cell => resembles cell pattern
  | none =>
    match operand type value with
    | .ok other => .ok fun cell => compares cell other (accepted operator)
    | .error fault => .error (.fault fault)

/-- The test that a filter makes on a row; a literal that cannot be brought to the type of the column
matches no row. -/
def predicate (k : Kind) (e : Filter.Expression) : Except Failure (Row k → Bool) := do
  let c ← column k e.column
  match coerce c.type (.str e.literal) with
  | none => return fun _ => false
  | some value =>
    let holds ← test c.type e.operator value
    return fun r => holds (r.get c)

/-- The pattern of a filter is too long to be tried on any row. -/
def isTooLong (k : Kind) (e : Filter.Expression) : Bool :=
  match (Column.ofName? k e.column).bind fun c => coerce c.type (.str e.literal) with
  | some value => (pattern? e.operator value.text.toList).any Like.isTooLong
  | none => false

def compareBy (c : Column k) (descending : Bool) (a b : Row k) : Ordering :=
  let o := (a.get c).compare (b.get c)
  if descending then o.swap else o

/-- Compares two rows by the columns of an order, one after the other. -/
def compareRows : List (Column k × Bool) → Row k → Row k → Ordering
  | [], _, _ => .eq
  | (c, descending) :: rest, a, b => (compareBy c descending a b).then (compareRows rest a b)

/-- The columns of an order, with the number of the row as the last. -/
def sortKeys (k : Kind) (order : List OrderBy) : Except Failure (List (Column k × Bool)) := do
  let keys ← order.mapM fun o => do return (← column k o.column, o.descending)
  return keys ++ [(.id, false)]

/-- The most criteria by which one statement of the store sorts. -/
def maxCriteria : Nat := 2000

/-- The number of criteria of an order, where the number of the row is one more unless the order names it. -/
def criteria (order : List OrderBy) : Nat :=
  if order.any fun o => o.column == "id" then order.length else order.length + 1

/-- Rows sorted by the columns of an order. -/
def sortRows (keys : List (Column k × Bool)) (rows : List (Row k)) : List (Row k) :=
  rows.mergeSort fun a b => compareRows keys a b != .gt

/-- A part of the rows that a query finds, and the number of all. -/
structure Page (k : Kind) where
  items : List (Row k)
  total : Nat
  deriving DecidableEq

/-- A part of a list by offset and limit; a negative offset is zero, and a negative limit is none. -/
def slice {α : Type} (offset : Int) (limit : Option Int) (items : List α) : List α :=
  let rest := items.drop offset.toNat
  match limit with
  | some n => if n < 0 then rest else rest.take n.toNat
  | none => rest

/-- The rows of a company that a filter selects. -/
def selected (s : Store) (k : Kind) (owner : Company) (filter : Option Filter.Expression) :
    Except Failure (List (Row k)) :=
  match filter with
  | none => .ok (s.owned k owner)
  | some e => do
    let holds ← predicate k e
    let rows := s.owned k owner
    if isTooLong k e && !rows.isEmpty then throw (.fault .store)
    return rows.filter holds

/-- A page of the rows of a company that a filter selects, in an order. -/
def query (s : Store) (k : Kind) (owner : Company) (filter : Option Filter.Expression)
    (order : List OrderBy) (offset : Int) (limit : Option Int) : Except Failure (Page k) := do
  let found ← s.selected k owner filter
  let keys ← sortKeys k order
  if maxCriteria < criteria order then throw (.fault .store)
  if !Number.fitsInt64 offset || !(limit.all Number.fitsInt64) then .error (.fault .overflow)
  return ⟨slice offset limit (sortRows keys found), found.length⟩

/-- The test on a cell that a look-up makes; nothing is found by looking for nothing only in a column of
times. -/
def lookupTest (type : ColumnType) (ignoreCase : Bool) (value : Json) : Except Failure (Cell → Bool) :=
  match value with
  | .null => .ok (· == .null)
  | .str s =>
    if ignoreCase then
      .ok fun cell => match cell.asText with
        | some t => Text.lowerPlain t.toList == Text.lower s.toList
        | none => false
    else test type .eq value
  | _ => test type .eq value

/-- The first row of a company with a value in a column. -/
def findBy (s : Store) (k : Kind) (owner : Company) (name : String) (value : Json) (ignoreCase : Bool) :
    Except Failure (Option (Row k)) := do
  let c ← column k name
  match coerce c.type value with
  | none => return none
  | some value =>
    let holds ← lookupTest c.type ignoreCase value
    return (s.owned k owner).find? fun r => holds (r.get c)

/-- The value is an array or an object. -/
def isComposite : Json → Bool
  | .arr _ | .obj _ => true
  | _ => false

/-- The value may stand in a list of truth values: one of them, or a number that counts as one. -/
def isTruth (value : Json) : Bool :=
  Json.same value (.bool true) || Json.same value (.bool false)

/-- The value may stand in a list of doubles: a number in their range, or a text that writes one. -/
def isDouble : Json → Bool
  | .bool _ | .double _ => true
  | .int n => (Number.Double.ofRatio false n.natAbs 1).value != .infinite false
  | .str s => Number.writesDouble s.toList
  | _ => false

/-- The tests for a list of values that one statement names besides the company. -/
def boundTests (type : ColumnType) (values : List Json) : Except Failure (List (Cell → Bool)) :=
  if values.length < maxVariables then values.mapM (test type .eq) else .error (.fault .store)

/-- The tests for a list of values for a column of times. With nothing among them every value counts for
itself, and without, the first one says what all have to be; truth values and doubles are no times. -/
def timeTests (values : List Json) : Except Failure (List (Cell → Bool)) :=
  let untimely (fits : Json → Bool) : Except Failure (List (Cell → Bool)) :=
    if values.all fits && values.length < maxVariables then .ok [] else .error (.fault .store)
  if values.any Json.isNull then
    if values.any isComposite then .error (.fault .argument)
    else boundTests .time (values.filter fun v => !v.isNull)
  else
    match values with
    | .arr _ :: _ | .obj _ :: _ => .error (.fault .store)
    | .bool _ :: _ => untimely isTruth
    | .double _ :: _ => untimely isDouble
    | _ => boundTests .time values

/-- The tests for a list of values for a column. -/
def listedTests (type : ColumnType) (values : List Json) : Except Failure (List (Cell → Bool)) :=
  if type = .time then timeTests values else boundTests type values

/-- The rows of a company with one of several values in a column. -/
def findMany (s : Store) (k : Kind) (owner : Company) (name : String) (values : List Json) :
    Except Failure (List (Row k)) := do
  let c ← column k name
  let tests ← listedTests c.type (values.filterMap (coerce c.type))
  return (s.owned k owner).filter fun r => tests.any fun holds => holds (r.get c)

end Roster.Store
