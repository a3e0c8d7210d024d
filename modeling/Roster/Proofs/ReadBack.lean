import Roster.Proofs.CheckedNames
import Roster.Proofs.Documents

/-!
Reading what has been shown.

A schema stands within another if each of its fields stands at the same place there. The document by which a resource
is shown has, at the place of every field, the value of that field. So a smaller schema takes out of it the values of
its own fields, however often a field occurs: the first value that is found is as good as any.
-/

set_option autoImplicit false

namespace Roster.Schema

/-! ## Schemas within schemas -/

mutual

/-- The fields of a schema stand at the same places in another, which may have more; a constant may stand anywhere. -/
def isWithin : Schema → Schema → Bool
  | .constant _, _ => true
  | .field name, .field other => name == other
  | .object children, .object others => childrenWithin children others
  | .array items, .array others => itemsWithin items others
  | _, _ => false

/-- Every child stands within the child of the same name. -/
def childrenWithin : List (String × Schema) → List (String × Schema) → Bool
  | [], _ => true
  | (key, schema) :: rest, others =>
    (match others.lookup key with
      | some other => isWithin schema other
      | none => false) && childrenWithin rest others

/-- Every item stands within the item at the same index. -/
def itemsWithin : List Schema → List Schema → Bool
  | [], _ => true
  | schema :: rest, other :: others => isWithin schema other && itemsWithin rest others
  | _ :: _, [] => false

end

mutual

/-- No object of the schema has two children of one name. -/
def hasDistinctKeys : Schema → Bool
  | .constant _ | .field _ => true
  | .object children => (children.map Prod.fst).Nodup && childrenDistinct children
  | .array items => itemsDistinct items

def childrenDistinct : List (String × Schema) → Bool
  | [] => true
  | (_, schema) :: rest => hasDistinctKeys schema && childrenDistinct rest

def itemsDistinct : List Schema → Bool
  | [] => true
  | schema :: rest => hasDistinctKeys schema && itemsDistinct rest

end

mutual

/-- A schema stands within itself if a name leads to one child at most. -/
theorem isWithin_self : (schema : Schema) → schema.hasDistinctKeys = true → schema.isWithin schema = true
  | .constant _, _ => rfl
  | .field name, _ => beq_self_eq_true name
  | .object children, hdistinct => by
    rw [hasDistinctKeys, Bool.and_eq_true, decide_eq_true_iff] at hdistinct
    exact childrenWithin_of_lookup children children hdistinct.2 fun p hp =>
      lookup_eq_some_of_mem hdistinct.1 hp
  | .array items, hdistinct => itemsWithin_self items hdistinct

theorem childrenWithin_of_lookup : (children others : List (String × Schema)) → childrenDistinct children = true →
    (∀ p ∈ children, others.lookup p.1 = some p.2) → childrenWithin children others = true
  | [], _, _, _ => rfl
  | (key, schema) :: rest, others, hdistinct, hlookup => by
    rw [childrenDistinct, Bool.and_eq_true] at hdistinct
    have hkey := hlookup (key, schema) List.mem_cons_self
    have hrest := childrenWithin_of_lookup rest others hdistinct.2 fun p hp => hlookup p (List.mem_cons_of_mem _ hp)
    simp only [childrenWithin, hkey, isWithin_self schema hdistinct.1, hrest, Bool.and_self]

theorem itemsWithin_self : (items : List Schema) → itemsDistinct items = true → itemsWithin items items = true
  | [], _ => rfl
  | schema :: rest, hdistinct => by
    rw [itemsDistinct, Bool.and_eq_true] at hdistinct
    rw [itemsWithin, isWithin_self schema hdistinct.1, itemsWithin_self rest hdistinct.2, Bool.and_self]

end

theorem mem_fieldsOfChildren {name key : String} {schema : Schema} {children : List (String × Schema)}
    (hchild : (key, schema) ∈ children) (hname : name ∈ schema.fields) : name ∈ fieldsOfChildren children := by
  induction children with
  | nil => cases hchild
  | cons child rest ih =>
    rcases List.mem_cons.1 hchild with rfl | hchild
    · exact List.mem_append_left _ hname
    · exact List.mem_append_right _ (ih hchild)

mutual

theorem mem_fields_of_isWithin {name : String} : (inner outer : Schema) → inner.isWithin outer = true →
    name ∈ inner.fields → name ∈ outer.fields
  | .constant _, _, _, hname => absurd hname List.not_mem_nil
  | .field _, .field _, hwithin, hname => eq_of_beq hwithin ▸ hname
  | .object children, .object others, hwithin, hname => mem_fields_of_childrenWithin children others hwithin hname
  | .array items, .array others, hwithin, hname => mem_fields_of_itemsWithin items others hwithin hname

theorem mem_fields_of_childrenWithin {name : String} : (children others : List (String × Schema)) →
    childrenWithin children others = true → name ∈ fieldsOfChildren children → name ∈ fieldsOfChildren others
  | [], _, _, hname => absurd hname List.not_mem_nil
  | (key, schema) :: rest, others, hwithin, hname => by
    rw [childrenWithin, Bool.and_eq_true] at hwithin
    cases hother : others.lookup key with
    | none => rw [hother] at hwithin; cases hwithin.1
    | some other =>
      rw [hother] at hwithin
      rcases List.mem_append.1 hname with hname | hname
      · exact mem_fieldsOfChildren (mem_of_lookup hother) (mem_fields_of_isWithin schema other hwithin.1 hname)
      · exact mem_fields_of_childrenWithin rest others hwithin.2 hname

theorem mem_fields_of_itemsWithin {name : String} : (items others : List Schema) → itemsWithin items others = true →
    name ∈ fieldsOfItems items → name ∈ fieldsOfItems others
  | [], _, _, hname => absurd hname List.not_mem_nil
  | schema :: rest, other :: others, hwithin, hname => by
    rw [itemsWithin, Bool.and_eq_true] at hwithin
    rcases List.mem_append.1 hname with hname | hname
    · exact List.mem_append_left _ (mem_fields_of_isWithin schema other hwithin.1 hname)
    · exact List.mem_append_right _ (mem_fields_of_itemsWithin rest others hwithin.2 hname)

end

/-! ## What is found in a document -/

section Collected

variable {get : String → Option Json}

/-- Notes the values of fields one after the other. -/
def noteAll (get : String → Option Json) (names : List String) (found : Values) : Values :=
  names.foldl (fun found name => note name (get name) found) found

theorem noteAll_append (names others : List String) (found : Values) :
    noteAll get (names ++ others) found = noteAll get others (noteAll get names found) :=
  List.foldl_append

/-- However often a field is noted, its value is the one that it had before or the one that it is given. -/
theorem lookup_noteAll (names : List String) (found : Values) (name : String) :
    (noteAll get names found).lookup name =
      (found.lookup name).or (if name ∈ names then (get name).filter fun v => !v.isNull else none) := by
  induction names generalizing found with
  | nil => rw [if_neg List.not_mem_nil, Option.or_none]; rfl
  | cons first rest ih =>
    rw [noteAll, List.foldl_cons, ← noteAll, ih, lookup_note, Option.or_assoc]
    by_cases hfirst : name = first
    · subst hfirst
      rw [if_pos rfl, if_pos List.mem_cons_self]
      split
      · rw [Option.or_self]
      · rw [Option.or_none]
    · rw [if_neg hfirst, Option.none_or]
      simp only [List.mem_cons, hfirst, false_or]

theorem exists_of_readChildren {others : List (String × Schema)} {values : List (String × Json)} {key : String}
    {schema : Schema} (hvalues : readChildren get others = .ok values) (hkey : others.lookup key = some schema) :
    ∃ value, values.lookup key = some value ∧ schema.read get = .ok value := by
  induction others generalizing values with
  | nil => cases hkey
  | cons other rest ih =>
    obtain ⟨name, first⟩ := other
    obtain ⟨value, hvalue, hrest⟩ := bind_eq_ok.1 hvalues
    obtain ⟨shown, hshown, hpure⟩ := bind_eq_ok.1 hrest
    cases hpure
    rw [List.lookup_cons] at hkey ⊢
    cases hname : key == name with
    | true =>
      rw [hname] at hkey
      cases hkey
      exact ⟨value, rfl, hvalue⟩
    | false =>
      rw [hname] at hkey
      exact ih hshown hkey

mutual

/-- What a schema finds in a document shown by one that it stands within are the values of its fields. -/
theorem collect_read : (inner outer : Schema) → inner.isWithin outer = true → (document : Json) →
    outer.read get = .ok document → (found : Values) →
    inner.collect (some document) found = noteAll get inner.fields found
  | .constant _, _, _, _, _, _ => rfl
  | .field name, .field other, hwithin, document, hread, found => by
    obtain rfl := eq_of_beq hwithin
    rw [read] at hread
    cases hvalue : get name with
    | none => rw [hvalue] at hread; cases hread
    | some value =>
      rw [hvalue] at hread
      cases hread
      rw [collect, fields, noteAll, List.foldl_cons, hvalue, List.foldl_nil]
  | .object children, .object others, hwithin, document, hread, found => by
    rw [read] at hread
    cases hvalues : readChildren get others with
    | error _ => rw [hvalues] at hread; cases hread
    | ok values =>
      rw [hvalues] at hread
      cases hread
      exact collectChildren_read children others hwithin values hvalues found
  | .array items, .array others, hwithin, document, hread, found => by
    rw [read] at hread
    cases hvalues : readItems get others with
    | error _ => rw [hvalues] at hread; cases hread
    | ok values =>
      rw [hvalues] at hread
      cases hread
      exact collectItems_read items others hwithin 0 values hvalues found

theorem collectChildren_read : (children others : List (String × Schema)) → childrenWithin children others = true →
    (values : List (String × Json)) → readChildren get others = .ok values → (found : Values) →
    collectChildren children (some (.obj values)) found = noteAll get (fieldsOfChildren children) found
  | [], _, _, _, _, _ => rfl
  | (key, schema) :: rest, others, hwithin, values, hvalues, found => by
    rw [childrenWithin, Bool.and_eq_true] at hwithin
    cases hother : others.lookup key with
    | none => rw [hother] at hwithin; cases hwithin.1
    | some other =>
      rw [hother] at hwithin
      obtain ⟨value, hlookup, hread⟩ := exists_of_readChildren hvalues hother
      have hfield : (some (Json.obj values)).bind (Json.field? key) = some value := hlookup
      rw [collectChildren, hfield, collect_read schema other hwithin.1 value hread,
        collectChildren_read rest others hwithin.2 values hvalues, fieldsOfChildren, noteAll_append]

/-- The items from an index on are those that the rest of the array shows. -/
theorem collectItems_read : (items others : List Schema) → itemsWithin items others = true → (index : Nat) →
    (values : List Json) → readItems get others = .ok (values.drop index) → (found : Values) →
    collectItems items index (some (.arr values)) found = noteAll get (fieldsOfItems items) found
  | [], _, _, _, _, _, _ => rfl
  | schema :: rest, other :: others, hwithin, index, values, hvalues, found => by
    rw [itemsWithin, Bool.and_eq_true] at hwithin
    obtain ⟨value, hread, hrest⟩ := bind_eq_ok.1 hvalues
    obtain ⟨shown, hshown, hpure⟩ := bind_eq_ok.1 hrest
    have hdrop : values.drop index = value :: shown := (Except.ok.inj hpure).symm
    have hitem : item? index (some (.arr values)) = some value := by
      rw [item?, ← List.head?_drop, hdrop, List.head?_cons]
    have htail : values.drop (index + 1) = shown := by
      rw [← List.tail_drop, hdrop, List.tail_cons]
    rw [collectItems, hitem, collect_read schema other hwithin.1 value hread,
      collectItems_read rest others hwithin.2 (index + 1) values (htail ▸ hshown), fieldsOfItems, noteAll_append]

end

end Collected

/-! ## What is taken back -/

/-- If no null has been found, the fields that are present are those that are not null. -/
theorem extractPresent_of_found {schema : Schema} {document : Json}
    (hfound : ∀ name ∈ schema.fields, ∀ value,
      (schema.collect (some document) []).lookup name = some value → value.isNull = false) :
    schema.extractPresent document = (schema.extract document).filter fun f => !f.2.isNull := by
  have hpresent (names : List String) (hnames : ∀ name ∈ names, name ∈ schema.fields) :
      (names.filterMap fun name => ((schema.collect (some document) []).lookup name).map fun v => (name, v)) =
        (names.map fun name => (name, ((schema.collect (some document) []).lookup name).getD .null)).filter
          fun f => !f.2.isNull := by
    induction names with
    | nil => rfl
    | cons name rest ih =>
      have hrest := ih fun other hother => hnames other (List.mem_cons_of_mem _ hother)
      cases hvalue : (schema.collect (some document) []).lookup name with
      | none => simp [hvalue, hrest, Json.isNull]
      | some value => simp [hvalue, hrest, hfound name (hnames name List.mem_cons_self) value hvalue]
  exact hpresent _ fun _ => List.mem_eraseDups.1

/-- Taking the fields of a schema out of what another shows of a resource gives back their values: every field once,
and without those that are null when only values that are present are asked for. -/
def TakesBack (inner outer : Schema) : Prop :=
  ∀ get : String → Option Json, (∀ name ∈ outer.fields, (get name).isSome = true) →
    ∃ document, outer.read get = .ok document ∧
      ((inner.extract document).map fun f => (f.1, some f.2)) =
        (inner.fields.eraseDups.map fun name => (name, get name)) ∧
      inner.extractPresent document = (inner.extract document).filter fun f => !f.2.isNull

private theorem takesBack_of_isWithin {inner outer : Schema} (hwithin : inner.isWithin outer = true) :
    inner.TakesBack outer := by
  intro get hget
  obtain ⟨document, hread⟩ := exists_read outer hget
  -- A null that is skipped and a field that is never found come to the same.
  have hfound (name : String) (hname : name ∈ inner.fields) :
      ∃ value, get name = some value ∧
        (inner.collect (some document) []).lookup name = (some value).filter fun v => !v.isNull := by
    have hshown := mem_fields_of_isWithin inner outer hwithin hname
    obtain ⟨value, hvalue⟩ := Option.isSome_iff_exists.1 (hget name hshown)
    refine ⟨value, hvalue, ?_⟩
    rw [collect_read inner outer hwithin document hread, lookup_noteAll, if_pos hname, hvalue]
    rfl
  refine ⟨document, hread, ?_, ?_⟩
  · rw [extract, List.map_map]
    refine List.map_congr_left fun name hname => ?_
    obtain ⟨value, hvalue, hlookup⟩ := hfound name (List.mem_eraseDups.1 hname)
    dsimp only [Function.comp_apply]
    rw [hlookup, hvalue]
    cases value <;> rfl
  · refine extractPresent_of_found fun name hname value hvalue => ?_
    obtain ⟨_, -, hlookup⟩ := hfound name hname
    rw [hlookup, Option.filter_eq_some_iff, Bool.not_eq_true'] at hvalue
    exact hvalue.2

/-- What a schema shows is taken back by every schema that stands within it, so by itself, and what is shown of a
user or a group by the schema of what a client writes. -/
theorem takesBack :
    (∀ inner outer : Schema, inner.isWithin outer = true → inner.TakesBack outer) ∧
      (∀ schema : Schema, schema.hasDistinctKeys = true → schema.TakesBack schema) ∧
        ∀ k, (writable k).TakesBack (readable k) := by
  refine ⟨fun _ _ => takesBack_of_isWithin, fun schema hdistinct => ?_, fun k => ?_⟩
  · exact takesBack_of_isWithin (isWithin_self schema hdistinct)
  · refine takesBack_of_isWithin ?_
    cases k <;> decide +kernel

/-- A schema in which a field occurs twice. -/
def twice : Schema :=
  .object [("id", .field "uuid"), ("names", .array [.field "first", .field "last", .field "uuid"])]

/-- A schema within it, in another order and with a constant in place of a field. -/
def fewer : Schema :=
  .object [("names", .array [.constant .null, .field "last", .field "uuid"]), ("id", .field "uuid")]

theorem takesBack_fewer :
    fewer.isWithin twice = true ∧ twice.hasDistinctKeys = true ∧ fewer.TakesBack twice ∧ twice.TakesBack twice :=
  ⟨by decide, by decide, takesBack.1 fewer twice (by decide), takesBack.2.1 twice (by decide)⟩

end Roster.Schema
