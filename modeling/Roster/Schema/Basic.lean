import Roster.Json.Basic

/-!
Schema trees.

A schema says where the fields of a resource stand in its JSON form. It has the shape of that form: objects
and arrays of schemas, with constants and references to fields at the leaves.
-/

set_option autoImplicit false

namespace Roster

/-- A schema tree. -/
inductive Schema
  | constant (value : Json)
  | field (name : String)
  | object (children : List (String × Schema))
  | array (items : List Schema)
  deriving Repr, Inhabited

namespace Schema

/-- A schema as it is written down: finished trees may stand anywhere inside plain objects and arrays, and
any other value is a constant. -/
inductive Definition
  | tree (schema : Schema)
  | object (children : List (String × Definition))
  | array (items : List Definition)
  | value (value : Json)
  deriving Inhabited

mutual

def compile : Definition → Schema
  | .tree schema => schema
  | .object children => .object (compileChildren children)
  | .array items => .array (compileItems items)
  | .value value => .constant value

def compileChildren : List (String × Definition) → List (String × Schema)
  | [] => []
  | (k, d) :: rest => (k, compile d) :: compileChildren rest

def compileItems : List Definition → List Schema
  | [] => []
  | d :: rest => compile d :: compileItems rest

end

mutual

/-- The names of all fields that a tree refers to, from left to right and with repeats. -/
def fields : Schema → List String
  | .constant _ => []
  | .field name => [name]
  | .object children => fieldsOfChildren children
  | .array items => fieldsOfItems items

/-- The fields of the children of an object. -/
def fieldsOfChildren : List (String × Schema) → List String
  | [] => []
  | (_, s) :: rest => fields s ++ fieldsOfChildren rest

/-- The fields of the items of an array. -/
def fieldsOfItems : List Schema → List String
  | [] => []
  | s :: rest => fields s ++ fieldsOfItems rest

end

/-- The fields that stand directly under a name of the outermost object, by that name. -/
def fieldMap : Schema → List (String × String)
  | .object children => children.filterMap fun
    | (k, .field name) => some (k, name)
    | _ => none
  | _ => []

end Schema

end Roster
