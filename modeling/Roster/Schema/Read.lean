import Roster.Schema.Basic

/-!
Rendering a resource by its schema.

Every reference is replaced by the value of its field. The first field from the left that cannot be read
stops the rendering.
-/

set_option autoImplicit false

namespace Roster.Schema

mutual

/-- The JSON form of a resource whose fields are read by `get`, or the name of a field that it lacks. -/
def read (get : String → Option Json) : Schema → Except String Json
  | .constant value => .ok value
  | .field name =>
    match get name with
    | some value => .ok value
    | none => .error name
  | .object children => (readChildren get children).map .obj
  | .array items => (readItems get items).map .arr

def readChildren (get : String → Option Json) :
    List (String × Schema) → Except String (List (String × Json))
  | [] => .ok []
  | (k, s) :: rest => do
    let value ← read get s
    let values ← readChildren get rest
    return (k, value) :: values

def readItems (get : String → Option Json) : List Schema → Except String (List Json)
  | [] => .ok []
  | s :: rest => do
    let value ← read get s
    let values ← readItems get rest
    return value :: values

end

end Roster.Schema
