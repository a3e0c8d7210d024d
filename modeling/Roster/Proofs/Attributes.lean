import Roster.Service.Attributes
import Roster.Proofs.Configuration
import Roster.Proofs.Distinct

/-!
The attributes that requests write.

Whatever document a client sends, the attributes taken from it by a standard schema belong to columns of the
profile of a resource; numbers, identifiers, companies and times are out of reach.
-/

set_option autoImplicit false

namespace Roster

/-- The column is an attribute of a user or a group. -/
def Column.isProfile {k : Kind} : Column k → Bool
  | .firstName | .lastName | .displayName | .email | .alternateEmail => true
  | _ => false

/-- All names belong to columns of the profile. -/
def ProfileOnly (k : Kind) (attributes : List (String × Json)) : Prop :=
  ∀ f ∈ attributes, ∃ c : Column k, Column.ofName? k f.1 = some c ∧ c.isProfile = true

theorem Schema.name_mem_of_extract {schema : Schema} {document : Json} {f : String × Json}
    (hf : f ∈ schema.extract document) : f.1 ∈ schema.fields := by
  obtain ⟨name, hname, rfl⟩ := List.mem_map.1 hf
  exact List.mem_eraseDups.1 hname

theorem Schema.name_mem_of_extractPresent {schema : Schema} {document : Json} {f : String × Json}
    (hf : f ∈ schema.extractPresent document) : f.1 ∈ schema.fields := by
  obtain ⟨name, hname, hvalue⟩ := List.mem_filterMap.1 hf
  obtain ⟨value, -, rfl⟩ := Option.map_eq_some_iff.1 hvalue
  exact List.mem_eraseDups.1 hname

/-- A value that a document has for a field is present. -/
theorem Schema.mem_extractPresent_of_extract {schema : Schema} {document : Json} {f : String × Json}
    (hf : f ∈ schema.extract document) (hnull : f.2.isNull = false) : f ∈ schema.extractPresent document := by
  obtain ⟨name, hname, rfl⟩ := List.mem_map.1 hf
  refine List.mem_filterMap.2 ⟨name, hname, ?_⟩
  cases hvalue : (collect schema (some document) []).lookup name with
  | none =>
    dsimp only at hnull
    rw [hvalue] at hnull
    cases hnull
  | some value => rfl

private theorem profile_of_mem_writable {k : Kind} {name : String} (h : name ∈ (Schema.writable k).fields) :
    ∃ c : Column k, Column.ofName? k name = some c ∧ c.isProfile = true := by
  cases k with
  | user =>
    have hnames : (Schema.writable .user).fields = ["first_name", "last_name", "email"] := by decide +kernel
    rw [hnames] at h
    simp only [List.mem_cons, List.not_mem_nil, or_false] at h
    rcases h with rfl | rfl | rfl
    · exact ⟨.firstName, Column.ofName?_name .firstName, rfl⟩
    · exact ⟨.lastName, Column.ofName?_name .lastName, rfl⟩
    · exact ⟨.email, Column.ofName?_name .email, rfl⟩
  | group =>
    have hnames : (Schema.writable .group).fields = ["display_name", "email"] := by decide +kernel
    rw [hnames] at h
    simp only [List.mem_cons, List.not_mem_nil, or_false] at h
    rcases h with rfl | rfl
    · exact ⟨.displayName, Column.ofName?_name .displayName, rfl⟩
    · exact ⟨.email, Column.ofName?_name .email, rfl⟩

theorem profileOnly_extract (k : Kind) (document : Json) :
    ProfileOnly k ((Schema.writable k).extract document) :=
  fun _ hf => profile_of_mem_writable (Schema.name_mem_of_extract hf)

theorem profileOnly_extractPresent (k : Kind) (document : Json) :
    ProfileOnly k ((Schema.writable k).extractPresent document) :=
  fun _ hf => profile_of_mem_writable (Schema.name_mem_of_extractPresent hf)

theorem ResourceConfig.eq_extract_of_complete {r : ResourceConfig} {payload : Json}
    {attributes : Schema.Values} (h : r.complete payload = .ok attributes) :
    payload.isObject = true ∧ attributes = r.mutableSchema.extract payload := by
  rw [ResourceConfig.complete] at h
  split at h
  next hp =>
    dsimp only at h
    split at h
    · cases h
      exact ⟨hp, rfl⟩
    · cases h
  next => cases h

theorem ResourceConfig.isMissing_of_complete {r : ResourceConfig} {payload : Json} {attributes : Schema.Values}
    (h : r.complete payload = .ok attributes) {name : String} (hname : name ∈ r.required) :
    isMissing (attributes.lookup name) = false := by
  rw [ResourceConfig.complete] at h
  split at h
  · dsimp only at h
    split at h
    next hnone =>
      cases h
      simpa using List.filter_eq_nil_iff.1 hnone name hname
    · cases h
  · cases h

theorem Config.IsStandard.profileOnly_complete {c : Config} (h : c.IsStandard) {k : Kind} {payload : Json}
    {attributes : Schema.Values} (hc : (c.resource k).complete payload = .ok attributes) :
    ProfileOnly k attributes := by
  obtain ⟨-, rfl⟩ := ResourceConfig.eq_extract_of_complete hc
  rw [h.mutableSchema]
  exact profileOnly_extract k payload

theorem ProfileOnly.setField {k : Kind} {name : String} {value : Json} {fields : List (String × Json)}
    (hname : ∃ c : Column k, Column.ofName? k name = some c ∧ c.isProfile = true)
    (hfields : ProfileOnly k fields) : ProfileOnly k (setField name value fields) := by
  induction fields with
  | nil =>
    intro f hf
    obtain rfl := List.mem_singleton.1 hf
    exact hname
  | cons g rest ih =>
    intro f hf
    have hrest : ProfileOnly k rest := fun x hx => hfields x (List.mem_cons_of_mem g hx)
    rw [Roster.setField] at hf
    split at hf
    next e =>
      rcases List.mem_cons.1 hf with rfl | hf
      · exact hfields g List.mem_cons_self
      · exact hrest f hf
    next e =>
      rcases List.mem_cons.1 hf with rfl | hf
      · exact hfields _ List.mem_cons_self
      · exact ih hrest f hf

theorem ProfileOnly.mergeFields {k : Kind} {base later : List (String × Json)} (hbase : ProfileOnly k base)
    (hlater : ProfileOnly k later) : ProfileOnly k (mergeFields base later) := by
  induction later generalizing base with
  | nil => exact hbase
  | cons f rest ih =>
    refine ih ?_ fun g hg => hlater g (List.mem_cons_of_mem f hg)
    exact hbase.setField (hlater f List.mem_cons_self)

/-- What a client gives for a new resource, beside the attributes that the configuration fixes. -/
theorem Config.IsStandard.profileOnly_merged {c : Config} (h : c.IsStandard) {k : Kind}
    {attributes : Schema.Values} (ha : ProfileOnly k attributes) :
    ProfileOnly k (mergeFields (c.resource k).customAttributes attributes) := by
  rw [h.customAttributes]
  exact ProfileOnly.mergeFields (fun _ hf => absurd hf List.not_mem_nil) ha

/-! ## Names of attributes -/

theorem setField_of_not_mem {name : String} {fields : List (String × Json)} (hname : name ∉ fields.map Prod.fst)
    (value : Json) : setField name value fields = fields ++ [(name, value)] := by
  induction fields with
  | nil => rfl
  | cons f rest ih =>
    simp only [List.map_cons, List.mem_cons, not_or] at hname
    have hne : ¬f.1 = name := fun e => hname.1 e.symm
    rw [setField, if_neg hne, ih hname.2, List.cons_append]

theorem mergeFields_eq_append {base later : List (String × Json)}
    (hnodup : ((base ++ later).map Prod.fst).Nodup) : mergeFields base later = base ++ later := by
  induction later generalizing base with
  | nil => simp [mergeFields]
  | cons f rest ih =>
    have hnew : f.1 ∉ base.map Prod.fst := by
      intro hf
      rw [List.map_append, List.map_cons, List.nodup_append] at hnodup
      exact hnodup.2.2 f.1 hf f.1 List.mem_cons_self rfl
    have hset : setField f.1 f.2 base = base ++ [f] := setField_of_not_mem hnew f.2
    have hrest : ((base ++ [f] ++ rest).map Prod.fst).Nodup := by simpa using hnodup
    have hmerge := ih hrest
    rw [mergeFields] at hmerge ⊢
    rw [List.foldl_cons, hset, hmerge, List.append_assoc, List.singleton_append]

theorem Schema.nodup_extract (schema : Schema) (document : Json) :
    ((schema.extract document).map Prod.fst).Nodup := by
  have hnames : (schema.extract document).map Prod.fst = schema.fields.eraseDups := by
    simp [extract, Function.comp_def]
  rw [hnames]
  exact nodup_eraseDups schema.fields

theorem Schema.nodup_extractPresent (schema : Schema) (document : Json) :
    ((schema.extractPresent document).map Prod.fst).Nodup := by
  rw [extractPresent, List.map_filterMap]
  refine (nodup_eraseDups schema.fields).filterMap ?_
  intro a a' name ha ha'
  simp only [Option.mem_def, Option.map_eq_some_iff] at ha ha'
  obtain ⟨_, ⟨_, _, rfl⟩, rfl⟩ := ha
  obtain ⟨_, ⟨_, _, rfl⟩, e⟩ := ha'
  exact e.symm

end Roster
