import Roster.Proofs.ReadBack

/-!
Where fields stand.

A reference to a field stands at a place in a schema: the names and the indexes that lead to it. The walk that takes
the fields out of a document comes to the places one after the other. So the value of a field is the first one other
than null that the document has at a place of the field, whatever else the document looks like.
-/

set_option autoImplicit false

namespace Roster

/-! ## Paths into documents -/

/-- A turn into a document: to the field of an object, or to the item of an array. -/
inductive Json.Turn
  | name (key : String)
  | index (i : Nat)
  deriving DecidableEq, Repr

/-- What a turn leads to; it leads nowhere in a value of another shape. -/
def Json.turn? : Json → Turn → Option Json
  | .obj fields, .name key => fields.lookup key
  | .arr items, .index i => items[i]?
  | _, _ => none

/-- The value at the end of a path. -/
def Json.at? : Json → List Turn → Option Json
  | value, [] => some value
  | value, turn :: rest => (value.turn? turn).bind fun inner => inner.at? rest

theorem Json.field?_eq_turn? (key : String) : Json.field? key = fun value => value.turn? (.name key) := by
  funext value
  cases value <;> rfl

namespace Schema

theorem item?_eq_turn? (i : Nat) (document : Option Json) :
    item? i document = document.bind fun value => value.turn? (.index i) := by
  cases document with
  | none => rfl
  | some value => cases value <;> rfl

/-! ## Places of fields -/

/-- A field stands at the end of a path. -/
structure Place where
  path : List Json.Turn
  field : String
  deriving DecidableEq, Repr

/-- The place seen from one turn before. -/
def Place.after (turn : Json.Turn) (place : Place) : Place := { place with path := turn :: place.path }

mutual

/-- The places of all references to fields, from left to right. -/
def places : Schema → List Place
  | .constant _ => []
  | .field name => [⟨[], name⟩]
  | .object children => placesOfChildren children
  | .array items => placesOfItems 0 items

/-- The places under the names of an object. -/
def placesOfChildren : List (String × Schema) → List Place
  | [] => []
  | (key, schema) :: rest => (places schema).map (Place.after (.name key)) ++ placesOfChildren rest

/-- The places in the items of an array from an index on. -/
def placesOfItems : Nat → List Schema → List Place
  | _, [] => []
  | i, schema :: rest => (places schema).map (Place.after (.index i)) ++ placesOfItems (i + 1) rest

end

private theorem field_comp_after (turn : Json.Turn) : Place.field ∘ Place.after turn = Place.field := rfl

mutual

theorem map_field_places : (schema : Schema) → schema.places.map Place.field = schema.fields
  | .constant _ => rfl
  | .field _ => rfl
  | .object children => map_field_placesOfChildren children
  | .array items => map_field_placesOfItems 0 items

theorem map_field_placesOfChildren : (children : List (String × Schema)) →
    (placesOfChildren children).map Place.field = fieldsOfChildren children
  | [] => rfl
  | (key, schema) :: rest => by
    rw [placesOfChildren, List.map_append, List.map_map, field_comp_after, map_field_places schema,
      map_field_placesOfChildren rest, fieldsOfChildren]

theorem map_field_placesOfItems : (i : Nat) → (items : List Schema) →
    (placesOfItems i items).map Place.field = fieldsOfItems items
  | _, [] => rfl
  | i, schema :: rest => by
    rw [placesOfItems, List.map_append, List.map_map, field_comp_after, map_field_places schema,
      map_field_placesOfItems (i + 1) rest, fieldsOfItems]

end

/-! ## The walk comes to the places -/

/-- Notes for a field what a document has at a place of the field. -/
def noteAt (document : Option Json) (found : Values) (place : Place) : Values :=
  note place.field (document.bind fun value => value.at? place.path) found

/-- After a turn a place is looked at where the turn leads to. -/
private theorem foldl_noteAt_after (turn : Json.Turn) (document : Option Json) (places : List Place) (found : Values) :
    (places.map (Place.after turn)).foldl (noteAt document) found =
      places.foldl (noteAt (document.bind fun value => value.turn? turn)) found := by
  have hafter (found : Values) (place : Place) :
      noteAt document found (place.after turn) = noteAt (document.bind fun value => value.turn? turn) found place := by
    rw [noteAt, noteAt, Option.bind_assoc]
    rfl
  rw [List.foldl_map]
  simp only [hafter]

mutual

theorem collect_eq_foldl : (schema : Schema) → (document : Option Json) → (found : Values) →
    schema.collect document found = schema.places.foldl (noteAt document) found
  | .constant _, _, _ => rfl
  | .field name, document, found => by
    rw [collect, places, List.foldl_cons, List.foldl_nil, noteAt]
    cases document <;> rfl
  | .object children, document, found => collectChildren_eq_foldl children document found
  | .array items, document, found => collectItems_eq_foldl items 0 document found

theorem collectChildren_eq_foldl : (children : List (String × Schema)) → (document : Option Json) →
    (found : Values) → collectChildren children document found = (placesOfChildren children).foldl (noteAt document) found
  | [], _, _ => rfl
  | (key, schema) :: rest, document, found => by
    rw [collectChildren, placesOfChildren, List.foldl_append, foldl_noteAt_after, ← collect_eq_foldl schema,
      ← collectChildren_eq_foldl rest, Json.field?_eq_turn?]

theorem collectItems_eq_foldl : (items : List Schema) → (i : Nat) → (document : Option Json) → (found : Values) →
    collectItems items i document found = (placesOfItems i items).foldl (noteAt document) found
  | [], _, _, _ => rfl
  | schema :: rest, i, document, found => by
    rw [collectItems, placesOfItems, List.foldl_append, foldl_noteAt_after, ← collect_eq_foldl schema,
      ← collectItems_eq_foldl rest, item?_eq_turn?]

end

/-! ## The value of a field -/

/-- The paths that lead to a field, in their order. -/
def pathsTo (schema : Schema) (name : String) : List (List Json.Turn) :=
  (schema.places.filter fun place => place.field == name).map Place.path

/-- The first value other than null that a document has at the end of a path to a field. -/
def value? (schema : Schema) (document : Json) (name : String) : Option Json :=
  (schema.pathsTo name).findSome? fun path => (document.at? path).filter fun value => !value.isNull

/-- What has been found goes before what stands at the places that follow. -/
private theorem lookup_foldl_noteAt (document : Json) (places : List Place) (found : Values) (name : String) :
    (places.foldl (noteAt (some document)) found).lookup name =
      (found.lookup name).or (((places.filter fun place => place.field == name).map Place.path).findSome? fun path =>
        (document.at? path).filter fun value => !value.isNull) := by
  induction places generalizing found with
  | nil => simp
  | cons place rest ih =>
    rw [List.foldl_cons, ih, noteAt, Option.bind_some, lookup_note, Option.or_assoc]
    congr 1
    by_cases hname : name = place.field
    · rw [if_pos hname, List.filter_cons, beq_iff_eq.2 hname.symm, if_pos rfl, List.map_cons, List.findSome?_cons]
      cases (document.at? place.path).filter fun value => !value.isNull <;> rfl
    · rw [if_neg hname, Option.none_or, List.filter_cons, beq_eq_false_iff_ne.2 (Ne.symm hname),
        if_neg Bool.false_ne_true]

theorem lookup_collect (schema : Schema) (document : Json) (name : String) :
    (schema.collect (some document) []).lookup name = schema.value? document name := by
  rw [collect_eq_foldl, lookup_foldl_noteAt]
  rfl

theorem isNull_of_value? {schema : Schema} {document value : Json} {name : String}
    (h : schema.value? document name = some value) : value.isNull = false := by
  obtain ⟨path, -, hpath⟩ := List.exists_of_findSome?_eq_some h
  rw [Option.filter_eq_some_iff, Bool.not_eq_true'] at hpath
  exact hpath.2

/-- What is taken out of a document has the fields of the schema, each once, in the order in which they first occur;
the value of a field is the first one other than null at its paths, or null if there is none. If only values that are
present are asked for then exactly the fields with null are left out. -/
theorem extract_eq_values (schema : Schema) (document : Json) :
    schema.extract document =
        ((schema.places.map Place.field).eraseDups.map fun name => (name, (schema.value? document name).getD .null)) ∧
      schema.extractPresent document = (schema.extract document).filter fun f => !f.2.isNull := by
  constructor
  · rw [extract, map_field_places]
    refine List.map_congr_left fun name _ => ?_
    rw [lookup_collect]
  · refine extractPresent_of_found fun name _ value hvalue => ?_
    rw [lookup_collect] at hvalue
    exact isNull_of_value? hvalue

/-- A null and an index out of range are passed over. -/
example : Schema.extract
    (.object [("a", .array [.field "x", .field "y"]), ("b", .field "x"), ("c", .array [.field "y", .field "x"])])
    (.obj [("a", .arr [.null]), ("b", .bool true), ("c", .arr [.int 1, .int 2])]) =
      [("x", .bool true), ("y", .int 1)] := by
  decide +kernel

end Schema

end Roster
