import Roster.Proofs.SchemaPaths

/-!
Parts of a schema that a path addresses.

A path goes down from name to name, and through the first item of every array on its way. Where it leads to a part of
the schema, the document of the path gives the fields of that part what the part itself finds in the value, and no
other field anything, whatever else the schema refers to. Where it stops on its way the document gives no field
anything.
-/

set_option autoImplicit false

namespace Roster.Schema

/-- A path leads to a part of a schema. -/
inductive Leads : Schema → List String → Schema → Prop
  | here (schema : Schema) : Leads schema [] schema
  | child {children : List (String × Schema)} {name : String} {rest : List String} {child part : Schema}
      (hchild : children.lookup name = some child) (h : Leads child rest part) :
      Leads (.object children) (name :: rest) part
  | item {first : Schema} {items : List Schema} {name : String} {rest : List String} {part : Schema}
      (h : Leads first (name :: rest) part) : Leads (.array (first :: items)) (name :: rest) part

/-- A path stops on its way: at an object without a child of the next name, at a constant, or at an array of nothing. -/
inductive Stops : Schema → List String → Prop
  | unknown {children : List (String × Schema)} {name : String} (hchild : children.lookup name = none)
      (rest : List String) : Stops (.object children) (name :: rest)
  | constant (value : Json) (name : String) (rest : List String) : Stops (.constant value) (name :: rest)
  | empty (name : String) (rest : List String) : Stops (.array []) (name :: rest)
  | child {children : List (String × Schema)} {name : String} {rest : List String} {child : Schema}
      (hchild : children.lookup name = some child) (h : Stops child rest) : Stops (.object children) (name :: rest)
  | item {first : Schema} {items : List Schema} {name : String} {rest : List String}
      (h : Stops first (name :: rest)) : Stops (.array (first :: items)) (name :: rest)

variable {schema part : Schema} {path : List String}

/-! ## Following a path -/

private theorem landing_object (children : List (String × Schema)) (name : String) (rest : List String) :
    landing (.object children) (name :: rest) =
      match children.lookup name with
      | some child => child.landing rest
      | none => .nowhere :=
  rfl

private theorem landing_item (first : Schema) (items : List Schema) (name : String) (rest : List String) :
    landing (.array (first :: items)) (name :: rest) = first.landing (name :: rest) :=
  rfl

theorem Leads.landing_eq (h : schema.Leads path part) : schema.landing path = .reached part := by
  induction h with
  | here schema => rw [landing]
  | child hchild _ ih =>
    rw [landing_object, hchild]
    exact ih
  | item _ ih => rw [landing_item, ih]

theorem Stops.landing_eq (h : schema.Stops path) : schema.landing path = .nowhere := by
  induction h with
  | unknown hchild rest => rw [landing_object, hchild]
  | constant value name rest => rfl
  | empty name rest => rfl
  | child hchild _ ih =>
    rw [landing_object, hchild]
    exact ih
  | item _ ih => rw [landing_item, ih]

/-- A path leads to a part of the schema, stops on its way, or goes on beyond a field. -/
theorem leads_or_stops : (schema : Schema) → (path : List String) →
    (∃ part, schema.Leads path part) ∨ schema.Stops path ∨ ∃ name rest, schema.landing path = .beyond name rest
  | schema, [] => .inl ⟨schema, .here schema⟩
  | .constant value, name :: rest => .inr (.inl (.constant value name rest))
  | .field column, name :: rest => .inr (.inr ⟨column, name :: rest, rfl⟩)
  | .array [], name :: rest => .inr (.inl (.empty name rest))
  | .array (first :: items), name :: rest => by
    rw [landing_item]
    exact (leads_or_stops first (name :: rest)).imp (fun ⟨part, h⟩ => ⟨part, .item h⟩) (Or.imp .item id)
  | .object children, name :: rest => by
    rw [landing_object]
    cases hchild : children.lookup name with
    | none => exact .inr (.inl (.unknown hchild rest))
    | some child =>
      exact (leads_or_stops child rest).imp (fun ⟨part, h⟩ => ⟨part, .child hchild h⟩) (Or.imp (.child hchild) id)
termination_by schema path => (path.length, sizeOf schema)

/-- The fields of a part are fields of the schema. -/
theorem Leads.mem_fields (h : schema.Leads path part) {name : String} (hname : name ∈ part.fields) :
    name ∈ schema.fields := by
  induction h with
  | here _ => exact hname
  | child hchild _ ih => exact mem_fieldsOfChildren (mem_of_lookup hchild) (ih hname)
  | item _ ih => exact List.mem_append_left _ (ih hname)

/-! ## What is taken out -/

theorem mem_extractPresent {document : Json} {f : String × Json} :
    f ∈ schema.extractPresent document ↔
      f.1 ∈ schema.fields ∧ (schema.collect (some document) []).lookup f.1 = some f.2 := by
  rw [extractPresent, List.mem_filterMap]
  constructor
  · rintro ⟨name, hname, hf⟩
    obtain ⟨value, hvalue, rfl⟩ := Option.map_eq_some_iff.1 hf
    exact ⟨List.mem_eraseDups.1 hname, hvalue⟩
  · rintro ⟨hname, hvalue⟩
    exact ⟨f.1, List.mem_eraseDups.2 hname, by rw [hvalue]; rfl⟩

/-- If a schema finds in a document what a part of it finds in a value, it takes out of the document what the part takes
out of the value, though perhaps in another order. -/
theorem Leads.extractPresent_perm (h : schema.Leads path part) {document value : Json}
    (hcollect : schema.collect (some document) [] = part.collect (some value) []) :
    (schema.extractPresent document).Perm (part.extractPresent value) := by
  have hnodup (s : Schema) (d : Json) : (s.extractPresent d).Nodup := .of_map _ (nodup_extractPresent s d)
  rw [List.perm_ext_iff_of_nodup (hnodup schema document) (hnodup part value)]
  intro f
  rw [mem_extractPresent, mem_extractPresent, hcollect]
  refine and_congr_left fun hvalue => ⟨fun _ => ?_, h.mem_fields⟩
  exact (name_mem_of_collect part _ [] (mem_of_lookup hvalue)).resolve_left List.not_mem_nil

/-- If a path leads to a part of the schema, what the schema takes out of the document of the path is what the part
takes out of the value, and so each field once and only fields of the part, whatever else the schema refers to; if the
path stops on its way nothing is taken out. -/
theorem takes_part (hdistinct : schema.hasDistinctKeys = true) (path : List String) (value : Json) :
    (∀ part, schema.Leads path part →
      (schema.extractPresent (nest (some schema) path value)).Perm (part.extractPresent value) ∧
        ((schema.extractPresent (nest (some schema) path value)).map Prod.fst).Nodup ∧
          ∀ f ∈ schema.extractPresent (nest (some schema) path value), f.1 ∈ part.fields) ∧
    (schema.Stops path → schema.extractPresent (nest (some schema) path value) = []) := by
  have hcollect := collect_nest hdistinct path value []
  constructor
  · intro part h
    rw [h.landing_eq] at hcollect
    have hperm := h.extractPresent_perm hcollect
    refine ⟨hperm, nodup_extractPresent schema _, fun f hf => ?_⟩
    exact (mem_extractPresent.1 (hperm.mem_iff.1 hf)).1
  · intro h
    rw [h.landing_eq] at hcollect
    refine List.eq_nil_iff_forall_not_mem.2 fun f hf => ?_
    have hvalue := (mem_extractPresent.1 hf).2
    rw [hcollect] at hvalue
    cases hvalue

/-- The names of a user or group lead to an array; its last item is a field that stands elsewhere, too. -/
theorem takes_part_twice : twice.hasDistinctKeys = true ∧
    twice.Leads ["names"] (.array [.field "first", .field "last", .field "uuid"]) ∧
      (twice.extractPresent (nest (some twice) ["names"] (.arr [.null, .str "King", .str "u1"]))).Perm
        [("last", .str "King"), ("uuid", .str "u1")] := by
  have hdistinct : twice.hasDistinctKeys = true := by decide
  have hpart : twice.Leads ["names"] (.array [.field "first", .field "last", .field "uuid"]) := .child rfl (.here _)
  exact ⟨hdistinct, hpart, ((takes_part hdistinct ["names"] (.arr [.null, .str "King", .str "u1"])).1 _ hpart).1⟩

end Roster.Schema
