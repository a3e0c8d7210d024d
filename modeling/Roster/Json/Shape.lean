import Roster.Json.Basic

/-!
What an answer on the web can hold.

Numbers that have no digits cannot be sent and are left out, and values nested too deeply are not sent at
all.
-/

set_option autoImplicit false

namespace Roster.Json

mutual

/-- The levels of a value: one more than those of the deepest value in it. -/
def height : Json → Nat
  | .arr items => heightItems items + 1
  | .obj fields => heightFields fields + 1
  | _ => 1

/-- The levels of the deepest item. -/
def heightItems : List Json → Nat
  | [] => 0
  | x :: xs => max (height x) (heightItems xs)

/-- The levels of the deepest field. -/
def heightFields : List (String × Json) → Nat
  | [] => 0
  | (_, v) :: fs => max (height v) (heightFields fs)

end

/-- A number, or null for one that has no digits. -/
def finiteNumber (x : Number.Double) : Json :=
  match x.magnitude with
  | .finite _ _ => .double x
  | _ => .null

mutual

/-- The value with null for all numbers that have no digits. -/
def finite : Json → Json
  | .double x => finiteNumber x
  | .arr items => .arr (finiteItems items)
  | .obj fields => .obj (finiteFields fields)
  | value => value

/-- The items with null for all numbers that have no digits. -/
def finiteItems : List Json → List Json
  | [] => []
  | x :: xs => finite x :: finiteItems xs

/-- The fields with null for all numbers that have no digits. -/
def finiteFields : List (String × Json) → List (String × Json)
  | [] => []
  | (k, v) :: fs => (k, finite v) :: finiteFields fs

end

end Roster.Json
