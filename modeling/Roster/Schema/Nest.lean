import Roster.Schema.Basic

/-!
Documents addressed by a path.

A path of names such as `name.givenName` stands for the document that has its value at the end of the path
and nothing else. Where the schema has an array, the document has an array of one item, and no name of the
path is used up. A path is followed by calls nested into each other, one for every name and every array, and a host
has room for only so many.
-/

set_option autoImplicit false

namespace Roster.Schema

/-- The number of arrays that a schema opens with, and what the first item of the innermost one is. -/
def enter : Schema → Nat × Option Schema
  | .array (first :: _) => ((enter first).1 + 1, (enter first).2)
  | .array [] => (1, none)
  | s => (0, some s)

def child? (name : String) : Schema → Option Schema
  | .object children => children.lookup name
  | _ => none

/-- A value inside a number of arrays of one item each. -/
def wrap (value : Json) : Nat → Json
  | 0 => value
  | n + 1 => .arr [wrap value n]

/-- The document with a value at the end of a path; the schema, if it reaches so far, says where arrays
stand. -/
def nest (schema : Option Schema) (path : List String) (value : Json) : Json :=
  match path with
  | [] => value
  | name :: rest =>
    let (depth, inner) := (schema.map enter).getD (0, none)
    wrap (.obj [(name, nest (inner.bind (child? name)) rest value)]) depth

/-- The calls nested into each other by which a path is followed: one for every name, one for every array on the way
and one for the value. -/
def calls (schema : Option Schema) : List String → Nat
  | [] => 1
  | name :: rest =>
    let (depth, inner) := (schema.map enter).getD (0, none)
    calls (inner.bind (child? name)) rest + depth + 1

/-- The document with a value at the end of a path, if there is room for the calls that follow the path. -/
def nestWithin (room : Nat) (schema : Option Schema) (path : List String) (value : Json) : Option Json :=
  if calls schema path ≤ room then some (nest schema path value) else none

end Roster.Schema
