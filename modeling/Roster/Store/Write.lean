import Roster.Store.Query
import Roster.Json.Equality

/-!
Writing rows.

A write gives columns JSON values. A row is touched only if some value does not count as the same as the
one in its column, and then the time of its last change is the reading of the clock. New rows take the next
number and, unless one is given, the public identifier that is offered.
-/

set_option autoImplicit false

namespace Roster.Store

variable {k : Kind}

/-- A value given for a column counts as the same as what the column says. A reading of the clock is the
same as no JSON value. -/
def unchanged (r : Row k) (c : Column k) (value : Json) : Bool :=
  match r.get c with
  | .time _ => false
  | cell => Json.same value cell.json

/-- The columns with names, in their order. -/
def columns (k : Kind) (attributes : List (String × Json)) : Except Failure (List (Column k × Json)) :=
  attributes.mapM fun (name, value) => do return (← column k name, value)

/-- The value is meant for a column of times and is no time. -/
def isMistimed (c : Column k) (value : Json) : Bool :=
  c.type = .time && !value.isNull

/-- The cells that values become in their columns. Times are looked at first, and then the columns in their
order; the first value that does not fit decides how the write fails. -/
def cells (values : List (Column k × Json)) : Except Fault (List (Column k × Cell)) :=
  if values.any fun (c, value) => isMistimed c value then .error .store
  else
    (Column.all k).filterMap (fun c => (values.lookup c).map fun value => (c, value)) |>.mapM
      fun (c, value) => do return (c, ← Cell.ofJson c.type value)

/-- The row made from other cells in some columns. -/
def revised (r : Row k) (changed : List (Column k × Cell)) : Option (Row k) :=
  Row.make fun c => (changed.lookup c).getD (r.get c)

/-- Puts a row in the place of another. -/
def put (s : Store) (old new : Row k) : Except Failure Store :=
  match (s.table k).replace? old.id new with
  | some t => .ok (s.withTable k t)
  | none => .error (.fault .store)

/-- Writes attributes of a row. -/
def update (s : Store) (clock : Nat) (r : Row k) (attributes : List (String × Json)) :
    Except Failure (Row k × Store) := do
  let values ← columns k attributes
  let changed := values.filter fun (c, value) => !unchanged r c value
  if changed.isEmpty then return (r, s)
  match cells changed with
  | .error fault => .error (.fault fault)
  | .ok changed =>
    match revised r (changed ++ [(.updated, .time clock)]) with
    | none => .error (.fault .store)
    | some new => return (new, ← s.put r new)

/-- The row with another archive time and the time of its change. -/
def stamped (r : Row k) (archived : Option Nat) (clock : Nat) : Row k :=
  { r with archived, updated := clock }

/-- Archives an active row or restores an archived one; a row that is as asked for stays. -/
def setActive (s : Store) (clock : Nat) (r : Row k) (active : Bool) :
    Except Failure (Row k × Store) :=
  if r.isActive = active then .ok (r, s)
  else
    let new := stamped r (if active then none else some clock) clock
    do return (new, ← s.put r new)

/-- A new row as it is asked for: values for columns, and values under other names that go with the row
until the request ends. -/
structure Draft (k : Kind) where
  values : List (Column k × Json)
  attached : List (String × Json)

/-- What goes wrong when a value is given under a name that is no column. The status cannot be written, and
of the traits of the row itself a few cannot be exchanged. -/
def refusal? (k : Kind) (name : String) (value : Json) : Option Fault :=
  if name = "active" || name = "__weakref__" then some .internal
  else if name = "__dict__" then some (if value.isObject then .internal else .argument)
  else if name = "__class__" || name = "_sa_instance_state" then some .argument
  else if Trait.accepts k name then none
  else some .argument

def Draft.give (d : Draft k) (name : String) (value : Json) : Except Failure (Draft k) :=
  match Column.ofName? k name with
  | some c => .ok { d with values := d.values ++ [(c, value)] }
  | none =>
    match refusal? k name value with
    | some fault => .error (.fault fault)
    | none => .ok { d with attached := d.attached ++ [(name, value)] }

/-- The draft of a new row; the company is set apart. -/
def draft (k : Kind) (attributes : List (String × Json)) : Except Failure (Draft k) :=
  if (attributes.lookup "company_id").isSome then .error (.fault .argument)
  else attributes.foldlM (fun d f => d.give f.1 f.2) ⟨[], []⟩

/-- A new row takes the offered public identifier unless it is given one. -/
def needsUuid (values : List (Column k × Json)) : Bool :=
  match values.lookup .uuid with
  | none | some .null => true
  | some _ => false

/-- Inserts a row of a company from values, with defaults for what is not given. -/
def insert (s : Store) (clock : Nat) (owner : Company) (uuid : String) (values : List (Column k × Json)) :
    Except Failure (Row k × Store) :=
  match cells (values.filter fun (_, value) => !value.isNull) with
  | .error fault => .error (.fault fault)
  | .ok given =>
    let defaults : List (Column k × Cell) :=
      [(.id, .integer (s.table k).nextId), (.uuid, .text uuid), (.company, .integer owner.id),
        (.created, .time clock), (.updated, .time clock)]
    let new := Row.make fun c => ((given ++ defaults).lookup c).getD .null
    match new.bind fun r => ((s.table k).insert? r).map fun t => (r, s.withTable k t) with
    | some done => .ok done
    | none => .error (.fault .store)

end Roster.Store
