import Roster.Error
import Roster.Number.Integer

/-!
Pages of a list.

A page is asked for by the number of its first item, counted from one, and by the number of items. Both are
brought into the range that the store can count: a start below one is one, a negative count is zero, and
neither exceeds the greatest integer of 64 bits.
-/

set_option autoImplicit false

namespace Roster

open Number (maxInt64 readInteger?)

/-- Page sizes: the one used when none is asked for, and the greatest that is given. -/
structure Pager where
  defaultCount : Int
  maxCount : Option Int
  deriving DecidableEq, Repr

/-- The part of a list that a page shows. -/
structure Window where
  startIndex : Int
  offset : Int
  limit : Int
  deriving DecidableEq, Repr

namespace Pager

/-- Page sizes, unless one is negative. -/
def make (defaultCount : Int) (maxCount : Option Int) : Except ConfigurationError Pager :=
  if defaultCount < 0 || maxCount.any (· < 0) then .error .pageSize
  else .ok ⟨defaultCount, maxCount⟩

/-- The integer that a parameter gives: none for null and the empty text, the whole part of a double. -/
def integer (parameter : String) : Json → Except Failure (Option Int)
  | .null => .ok none
  | .str "" => .ok none
  | .bool _ => .error (.refused (.paginationTruth parameter))
  | .int n => .ok (some n)
  | .double x =>
    match x.truncate?, x.magnitude with
    | some n, _ => .ok (some n)
    | none, .infinite => .error (.fault .overflow)
    | none, _ => .error (.refused (.paginationNumber parameter (.double x)))
  | .str s =>
    match readInteger? s.toList with
    | some n => .ok (some n)
    | none => .error (.refused (.paginationNumber parameter (.str s)))
  | value => .error (.refused (.paginationNumber parameter value))

/-- The start of a page within the range of the store. -/
def clampStart : Option Int → Int
  | none => 1
  | some n => min (max n 1) maxInt64

/-- The size of a page within the range of the store. -/
def clampCount (p : Pager) (count : Option Int) : Int :=
  let limit := match count with
    | none => p.defaultCount
    | some n => max n 0
  let limit := match p.maxCount with
    | none => limit
    | some greatest => min limit greatest
  min limit maxInt64

def window (p : Pager) (start count : Json) : Except Failure Window := do
  let start ← integer "startIndex" start
  let count ← integer "count" count
  let first := clampStart start
  return ⟨first, first - 1, p.clampCount count⟩

end Pager

end Roster
