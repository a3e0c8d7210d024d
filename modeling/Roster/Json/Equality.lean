import Roster.Json.Basic

/-!
When two JSON values count as the same.

Numbers are compared by their exact values, whether they are written as integers or as doubles, and the
truth values count as the integers one and zero. Arrays are compared item by item; objects have to have the
same fields in any order.
-/

set_option autoImplicit false

namespace Roster.Json

open Number (Value)

/-- The exact value of what counts as a number. -/
def value? : Json → Option Value
  | .bool b => some (.ofInt (if b then 1 else 0))
  | .int n => some (.ofInt n)
  | .double x => some x.value
  | _ => none

mutual

/-- The two values count as the same. -/
def same : Json → Json → Bool
  | .arr xs, .arr ys => sameItems xs ys
  | .obj fs, .obj gs => fs.length == gs.length && sameFields fs gs
  | .str s, .str t => s == t
  | .torn s, .torn t => s == t
  | .null, .null => true
  | a, b =>
    match a.value?, b.value? with
    | some x, some y => x == y
    | _, _ => false

/-- The items of two arrays count as the same, one by one. -/
def sameItems : List Json → List Json → Bool
  | [], [] => true
  | x :: xs, y :: ys => same x y && sameItems xs ys
  | _, _ => false

/-- Every field of the first list has a partner in the second that counts as the same. -/
def sameFields : List (String × Json) → List (String × Json) → Bool
  | [], _ => true
  | (k, v) :: fs, gs =>
    (match gs.lookup k with
      | some w => same v w
      | none => false) && sameFields fs gs

end

end Roster.Json
