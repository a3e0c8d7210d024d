import Roster.Schema.Nest
import Roster.Proofs.ReadBack

/-!
Where a path leads.

A document that is addressed by a path has one value, at the end of the path. The path is followed through the schema
for which the document is made: a name leads to the child of that name, and an array is entered at its first item.
What the schema finds in the document is then decided by the place that is reached, also if the path goes on beyond a
field.
-/

set_option autoImplicit false

namespace Roster.Schema

/-- Where a path leads: to a part of the schema, on beyond a field, or nowhere. -/
inductive Landing
  | reached (schema : Schema)
  | beyond (name : String) (rest : List String)
  | nowhere

/-- Where a path leads from a schema. -/
def landing : Schema → List String → Landing
  | schema, [] => .reached schema
  | schema, name :: rest =>
    match (enter schema).2 with
    | some (.object children) =>
      match children.lookup name with
      | some child => landing child rest
      | none => .nowhere
    | some (.field column) => .beyond column (name :: rest)
    | _ => .nowhere

/-- What is found of a value at the end of a path. Beyond a field it stands in objects that the schema knows nothing
of, and the outermost of these is taken for the value of the field. -/
def Landing.collect (value : Json) (found : Values) : Landing → Values
  | reached schema => schema.collect (some value) found
  | beyond name rest => note name (some (nest none rest value)) found
  | nowhere => found

/-! ## Documents of one value -/

mutual

/-- Nothing is found where there is no document. -/
theorem collect_none : (schema : Schema) → (found : Values) → schema.collect none found = found
  | .constant _, _ => rfl
  | .field _, _ => rfl
  | .object children, found => collectChildren_none children found
  | .array items, found => collectItems_none items 0 found

theorem collectChildren_none : (children : List (String × Schema)) → (found : Values) →
    collectChildren children none found = found
  | [], _ => rfl
  | (_, schema) :: rest, found => by
    rw [collectChildren, Option.bind_none, collect_none schema, collectChildren_none rest]

theorem collectItems_none : (items : List Schema) → (index : Nat) → (found : Values) →
    collectItems items index none found = found
  | [], _, _ => rfl
  | schema :: rest, index, found => by
    rw [collectItems, show item? index none = none from rfl, collect_none schema, collectItems_none rest]

end

private theorem collectItems_of_item? (document : Option Json) (items : List Schema) {index : Nat}
    (hitem : ∀ i, index ≤ i → item? i document = none) (found : Values) :
    collectItems items index document found = found := by
  induction items generalizing index with
  | nil => rfl
  | cons schema rest ih =>
    rw [collectItems, hitem index (Nat.le_refl index), collect_none]
    exact ih fun i hi => hitem i (Nat.le_of_succ_le hi)

/-- Of an array of one item only the first item of the schema finds anything. -/
private theorem collectItems_singleton (schema : Schema) (rest : List Schema) (value : Json) (found : Values) :
    collectItems (schema :: rest) 0 (some (.arr [value])) found = schema.collect (some value) found := by
  rw [collectItems]
  refine collectItems_of_item? _ rest (fun i hi => ?_) _
  rw [item?, List.getElem?_eq_none_iff]
  exact hi

/-- Of an object of one field only the child of that name finds anything. -/
private theorem collectChildren_singleton {children : List (String × Schema)} (hnodup : (children.map Prod.fst).Nodup)
    (name : String) (value : Json) (found : Values) :
    collectChildren children (some (.obj [(name, value)])) found =
      match children.lookup name with
      | some child => child.collect (some value) found
      | none => found := by
  have hfield (key : String) :
      (some (Json.obj [(name, value)])).bind (Json.field? key) = if key = name then some value else none := by
    change List.lookup key [(name, value)] = _
    rw [List.lookup_cons, List.lookup_nil]
    by_cases hkey : key = name
    · rw [if_pos hkey, beq_iff_eq.2 hkey]
    · rw [if_neg hkey, beq_eq_false_iff_ne.2 hkey]
  have hnothing (others : List (String × Schema)) (hname : name ∉ others.map Prod.fst) (found : Values) :
      collectChildren others (some (.obj [(name, value)])) found = found := by
    induction others with
    | nil => rfl
    | cons child rest ih =>
      obtain ⟨key, schema⟩ := child
      rw [List.map_cons, List.mem_cons, not_or] at hname
      rw [collectChildren, hfield, if_neg (Ne.symm hname.1), collect_none]
      exact ih hname.2
  induction children with
  | nil => rfl
  | cons child rest ih =>
    obtain ⟨key, schema⟩ := child
    rw [List.map_cons, List.nodup_cons] at hnodup
    rw [collectChildren, hfield, List.lookup_cons]
    by_cases hkey : key = name
    · subst hkey
      rw [if_pos rfl, beq_self_eq_true]
      exact hnothing rest hnodup.1 _
    · rw [if_neg hkey, beq_eq_false_iff_ne.2 (Ne.symm hkey), collect_none]
      exact ih hnodup.2

/-- A value that is wrapped for a schema is found where the schema is entered. -/
private theorem collect_wrap (value : Json) (found : Values) : (schema : Schema) →
    schema.collect (some (wrap value (enter schema).1)) found =
      match (enter schema).2 with
      | some inner => inner.collect (some value) found
      | none => found
  | .constant _ | .field _ | .object _ => rfl
  | .array [] => rfl
  | .array (first :: rest) => by
    rw [enter, wrap, collect, collectItems_singleton]
    exact collect_wrap value found first

/-! ## Following a path -/

private theorem hasDistinctKeys_of_lookup {children : List (String × Schema)}
    (hdistinct : childrenDistinct children = true) {name : String} {child : Schema}
    (hchild : children.lookup name = some child) : child.hasDistinctKeys = true := by
  induction children with
  | nil => cases hchild
  | cons first rest ih =>
    obtain ⟨key, schema⟩ := first
    rw [childrenDistinct, Bool.and_eq_true] at hdistinct
    rw [List.lookup_cons] at hchild
    split at hchild
    · cases hchild
      exact hdistinct.1
    · exact ih hdistinct.2 hchild

private theorem hasDistinctKeys_of_enter {inner : Schema} : (schema : Schema) → schema.hasDistinctKeys = true →
    (enter schema).2 = some inner → inner.hasDistinctKeys = true
  | .constant _, hdistinct, hinner | .field _, hdistinct, hinner | .object _, hdistinct, hinner => by
    cases hinner
    exact hdistinct
  | .array [], _, hinner => by cases hinner
  | .array (first :: rest), hdistinct, hinner => by
    rw [hasDistinctKeys, itemsDistinct, Bool.and_eq_true] at hdistinct
    exact hasDistinctKeys_of_enter first hdistinct.1 hinner

/-- What a schema finds in the document of a path is decided by where the path leads. -/
theorem collect_nest {schema : Schema} (hdistinct : schema.hasDistinctKeys = true) (path : List String) (value : Json)
    (found : Values) :
    schema.collect (some (nest (some schema) path value)) found = (schema.landing path).collect value found := by
  induction path generalizing schema with
  | nil => rfl
  | cons name rest ih =>
    rw [nest, Option.map_some, Option.getD_some, landing]
    refine (collect_wrap _ found schema).trans ?_
    cases hinner : (enter schema).2 with
    | none => rfl
    | some inner =>
      have hinner := hasDistinctKeys_of_enter schema hdistinct hinner
      cases inner with
      | constant _ => rfl
      | field _ => rfl
      | array items => exact collectItems_of_item? (some (.obj _)) items (fun _ _ => rfl) found
      | object children =>
        rw [hasDistinctKeys, Bool.and_eq_true, decide_eq_true_iff] at hinner
        refine (collectChildren_singleton hinner.1 name _ found).trans ?_
        dsimp only
        rw [Option.bind_some, child?]
        cases hchild : children.lookup name with
        | none => rfl
        | some child => exact ih (hasDistinctKeys_of_lookup hinner.2 hchild)

/-! ## Texts -/

/-- What a text at the end of a path is given for. -/
def Landing.given (text : Json) : Landing → Values
  | reached (.field name) => [(name, text)]
  | beyond name rest => [(name, nest none rest text)]
  | _ => []

private theorem note_nil (name : String) {value : Json} (hnull : value.isNull = false) :
    note name (some value) [] = [(name, value)] := by
  cases value
  case null => cases hnull
  all_goals rfl

private theorem isNull_nest_none (rest : List String) {text : Json} (htext : text.isText = true) :
    (nest none rest text).isNull = false := by
  cases rest with
  | nil => exact Json.isNull_of_isText htext
  | cons name rest => rfl

/-- A text has neither fields nor items. -/
private theorem collect_text {text : Json} (htext : text.isText = true) (landing : Landing) :
    landing.collect text [] = landing.given text := by
  have hfield (key : String) : (some text).bind (Json.field? key) = none := by
    cases text
    case str | torn => rfl
    all_goals cases htext
  have hitem (i : Nat) : item? i (some text) = none := by
    cases text
    case str | torn => rfl
    all_goals cases htext
  have hchildren (children : List (String × Schema)) : collectChildren children (some text) [] = [] := by
    induction children with
    | nil => rfl
    | cons child rest ih => rw [collectChildren, hfield, collect_none, ih]
  cases landing with
  | nowhere => rfl
  | beyond name rest => exact note_nil name (isNull_nest_none rest htext)
  | reached schema =>
    cases schema with
    | constant _ => rfl
    | field name => exact note_nil name (Json.isNull_of_isText htext)
    | object children => exact hchildren children
    | array items => exact collectItems_of_item? (some text) items (fun i _ => hitem i) []

mutual

theorem name_mem_of_collect {f : String × Json} : (schema : Schema) → (document : Option Json) → (found : Values) →
    f ∈ schema.collect document found → f ∈ found ∨ f.1 ∈ schema.fields
  | .constant _, _, _, hf => .inl hf
  | .field name, document, found, hf => by
    rw [collect, note.eq_def] at hf
    split at hf
    · exact .inl hf
    · rcases List.mem_append.1 hf with hf | hf
      · exact .inl hf
      · rw [List.mem_singleton.1 hf]
        exact .inr (List.mem_singleton_self name)
    · exact .inl hf
  | .object children, document, found, hf => name_mem_of_collectChildren children document found hf
  | .array items, document, found, hf => name_mem_of_collectItems items 0 document found hf

theorem name_mem_of_collectChildren {f : String × Json} : (children : List (String × Schema)) →
    (document : Option Json) → (found : Values) → f ∈ collectChildren children document found →
    f ∈ found ∨ f.1 ∈ fieldsOfChildren children
  | [], _, _, hf => .inl hf
  | (key, schema) :: rest, document, found, hf => by
    rcases name_mem_of_collectChildren rest document _ hf with hf | hf
    · exact (name_mem_of_collect schema _ found hf).imp id (List.mem_append_left _)
    · exact .inr (List.mem_append_right _ hf)

theorem name_mem_of_collectItems {f : String × Json} : (items : List Schema) → (index : Nat) →
    (document : Option Json) → (found : Values) → f ∈ collectItems items index document found →
    f ∈ found ∨ f.1 ∈ fieldsOfItems items
  | [], _, _, _, hf => .inl hf
  | schema :: rest, index, document, found, hf => by
    rcases name_mem_of_collectItems rest (index + 1) document _ hf with hf | hf
    · exact (name_mem_of_collect schema _ found hf).imp id (List.mem_append_left _)
    · exact .inr (List.mem_append_right _ hf)

end

/-- If one value has been found it is the only one that is present. -/
private theorem extractPresent_of_collect {schema : Schema} {document : Json} {f : String × Json}
    (hcollect : schema.collect (some document) [] = [f]) : schema.extractPresent document = [f] := by
  have hmem : f.1 ∈ schema.fields.eraseDups := by
    have hf : f ∈ schema.collect (some document) [] := by rw [hcollect]; exact List.mem_singleton_self f
    exact List.mem_eraseDups.2 ((name_mem_of_collect schema _ [] hf).resolve_left List.not_mem_nil)
  obtain ⟨before, after, hnames⟩ := List.append_of_mem hmem
  have hnodup : (before ++ f.1 :: after).Nodup := hnames ▸ nodup_eraseDups schema.fields
  have hothers (names : List String) (hnot : f.1 ∉ names) :
      (names.filterMap fun name => (([f].lookup name).map fun v => (name, v))) = [] := by
    refine List.filterMap_eq_nil_iff.2 fun name hname => ?_
    have hne : name ≠ f.1 := fun e => hnot (e ▸ hname)
    rw [List.lookup_cons, beq_eq_false_iff_ne.2 hne]
    rfl
  rw [List.nodup_append, List.nodup_cons] at hnodup
  have hbefore : f.1 ∉ before := fun hf => hnodup.2.2 _ hf _ List.mem_cons_self rfl
  rw [extractPresent, hcollect, hnames, List.filterMap_append, List.filterMap_cons, hothers before hbefore,
    hothers after hnodup.2.1.1, List.lookup_cons, beq_self_eq_true]
  rfl

/-- A text at the end of a path is what a schema finds in the document of the path, where the path leads to a field. -/
theorem extractPresent_nest {schema : Schema} (hdistinct : schema.hasDistinctKeys = true) (path : List String)
    {text : Json} (htext : text.isText = true) :
    schema.extractPresent (nest (some schema) path text) = (schema.landing path).given text := by
  have hcollect := (collect_nest hdistinct path text []).trans (collect_text htext _)
  have hcases : (schema.landing path).given text = [] ∨ ∃ f, (schema.landing path).given text = [f] := by
    cases schema.landing path with
    | nowhere => exact .inl rfl
    | beyond name rest => exact .inr ⟨_, rfl⟩
    | reached inner =>
      cases inner with
      | field name => exact .inr ⟨_, rfl⟩
      | _ => exact .inl rfl
  rcases hcases with hgiven | ⟨f, hgiven⟩
  · rw [hgiven] at hcollect ⊢
    rw [extractPresent, hcollect, List.filterMap_eq_nil_iff]
    exact fun _ _ => rfl
  · rw [hgiven] at hcollect ⊢
    exact extractPresent_of_collect hcollect

end Roster.Schema
