import Roster.Schema.Basic

/-!
Taking the fields of a resource out of a document.

The document is walked along the schema. The value of a field is the first value other than null that
stands at one of its places; where the document has another shape, all fields below are absent.
-/

set_option autoImplicit false

namespace Roster.Schema

/-- Values of fields, in the order in which they were found. -/
abbrev Values := List (String × Json)

/-- Notes a value for a field, unless it is absent, null, or the field has one already. -/
def note (name : String) (value : Option Json) (found : Values) : Values :=
  match value, found.lookup name with
  | some .null, _ => found
  | some v, none => found ++ [(name, v)]
  | _, _ => found

/-- The item of an array at an index. -/
def item? (index : Nat) : Option Json → Option Json
  | some (.arr items) => items[index]?
  | _ => none

mutual

/-- The values found in a document, or in none, after those found before. -/
def collect : Schema → Option Json → Values → Values
  | .constant _, _, found => found
  | .field name, document, found => note name document found
  | .object children, document, found => collectChildren children document found
  | .array items, document, found => collectItems items 0 document found

/-- The values found under the names of an object. -/
def collectChildren : List (String × Schema) → Option Json → Values → Values
  | [], _, found => found
  | (k, s) :: rest, document, found =>
    collectChildren rest document (collect s (document.bind (Json.field? k)) found)

/-- The values found in the items of an array from an index on. -/
def collectItems : List Schema → Nat → Option Json → Values → Values
  | [], _, _, found => found
  | s :: rest, index, document, found =>
    collectItems rest (index + 1) document (collect s (item? index document) found)

end

/-- The value of every field of the schema, null where the document has none. -/
def extract (schema : Schema) (document : Json) : Values :=
  let found := collect schema (some document) []
  schema.fields.eraseDups.map fun name => (name, (found.lookup name).getD .null)

/-- The fields that the document has a value for. -/
def extractPresent (schema : Schema) (document : Json) : Values :=
  let found := collect schema (some document) []
  schema.fields.eraseDups.filterMap fun name => (found.lookup name).map fun v => (name, v)

end Roster.Schema
