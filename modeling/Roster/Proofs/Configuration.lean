import Roster.Config.Build
import Roster.Proofs.Outcome

/-!
Standard configurations.

What is built from settings without custom attributes of users has the standard schemas, keys and look-up
fields, whatever the other settings are. These facts are all that most theorems need of a configuration.
Whatever the settings are, all names in what is built are names of fields.
-/

set_option autoImplicit false

namespace Roster

/-- What a client writes of a resource. -/
def Schema.writable : Kind → Schema
  | .user => userMutable
  | .group => groupMutable

/-- How a resource is read. -/
def Schema.readable : Kind → Schema
  | .user => user
  | .group => group

/-- The attributes that filters may use, with their columns. -/
def Schema.queryable : Kind → List (String × String)
  | .user => userQueryable
  | .group => groupQueryable

/-- The name of a column. -/
def IsColumn (k : Kind) (name : String) : Prop :=
  (Column.ofName? k name).isSome = true

theorem Pager.make_of_nonneg {defaultCount : Int} {maxCount : Option Int} (hdefault : 0 ≤ defaultCount)
    (hmax : ∀ n, maxCount = some n → 0 ≤ n) : make defaultCount maxCount = .ok ⟨defaultCount, maxCount⟩ := by
  have hsizes : (decide (defaultCount < 0) || maxCount.any fun n => decide (n < 0)) = false := by
    rw [Bool.or_eq_false_iff, decide_eq_false_iff_not]
    refine ⟨by omega, ?_⟩
    cases maxCount with
    | none => rfl
    | some n =>
      have hn := hmax n rfl
      rw [Option.any_some, decide_eq_false_iff_not]
      omega
  rw [make, hsizes, if_neg Bool.false_ne_true]

namespace Config

/-- The configuration is built from settings that fix no attributes of users. -/
structure IsStandard (c : Config) : Prop where
  users : ∃ s order, s.customUserAttributes = [] ∧ c.users = userResource s order
  groups : ∃ s order, c.groups = groupResource s order
  member : c.memberSchema = Schema.member

theorem eq_of_build {s : Settings} {c : Config} (h : build s = .ok c) :
    ∃ users groups, c = {
      users := userResource s users
      groups := groupResource s groups
      memberSchema := Schema.member
      provider := providerDescription
      defaultPageSize := s.defaultPageSize
      maxPageSize := s.maxPageSize
      atomicPatch := s.atomicPatch
      room := s.room } := by
  obtain ⟨users, -, h⟩ := bind_eq_ok.1 h
  obtain ⟨groups, -, h⟩ := bind_eq_ok.1 h
  obtain ⟨-, -, h⟩ := bind_eq_ok.1 h
  obtain ⟨-, -, h⟩ := bind_eq_ok.1 h
  obtain ⟨-, -, h⟩ := bind_eq_ok.1 h
  obtain ⟨-, -, h⟩ := bind_eq_ok.1 h
  cases h
  exact ⟨users, groups, rfl⟩

theorem isStandard_of_build {s : Settings} {c : Config} (h : build s = .ok c)
    (hs : s.customUserAttributes = []) : c.IsStandard := by
  obtain ⟨users, groups, rfl⟩ := eq_of_build h
  exact ⟨⟨s, users, hs, rfl⟩, ⟨s, groups, rfl⟩, rfl⟩

theorem atomicPatch_of_build {s : Settings} {c : Config} (h : build s = .ok c) :
    c.atomicPatch = s.atomicPatch := by
  obtain ⟨users, groups, rfl⟩ := eq_of_build h
  rfl

theorem isKnown_of_checkFields {k : Kind} {columnsOnly : Bool} {source : String} {names : List String}
    (h : checkFields k columnsOnly source names = .ok ()) : ∀ name ∈ names, isKnown k columnsOnly name = true := by
  rw [checkFields] at h
  split at h
  · cases h
  next hfind =>
    intro name hname
    simpa using List.find?_eq_none.1 hfind name hname

theorem isColumn_of_checkFields {k : Kind} {source : String} {names : List String}
    (h : checkFields k true source names = .ok ()) : ∀ name ∈ names, IsColumn k name := by
  intro name hname
  have hknown := isKnown_of_checkFields h name hname
  rw [isKnown, Bool.not_true, Bool.false_and, Bool.or_false] at hknown
  exact hknown

/-- All names in the configuration of a kind are known, and only the read schema may name the status. -/
structure NamesKnown (k : Kind) (r : ResourceConfig) : Prop where
  schema : ∀ name ∈ r.schema.fields, isKnown k false name = true
  mutableSchema : ∀ name ∈ r.mutableSchema.fields, IsColumn k name
  queryable : ∀ p ∈ r.queryable, IsColumn k p.2
  listOrder : ∀ o ∈ r.listOrder, IsColumn k o.column
  naturalKey : IsColumn k r.naturalKey
  lookupField : IsColumn k r.lookupField
  customAttributes : ∀ f ∈ r.customAttributes, IsColumn k f.1

theorem namesKnown_of_checkResource {k : Kind} {r : ResourceConfig} (h : checkResource k r = .ok ()) :
    NamesKnown k r := by
  obtain ⟨⟨⟩, hschema, h⟩ := bind_eq_ok.1 h
  obtain ⟨⟨⟩, hmutable, h⟩ := bind_eq_ok.1 h
  obtain ⟨⟨⟩, hqueryable, h⟩ := bind_eq_ok.1 h
  obtain ⟨⟨⟩, horder, h⟩ := bind_eq_ok.1 h
  obtain ⟨⟨⟩, hkeys, hcustom⟩ := bind_eq_ok.1 h
  exact {
    schema := isKnown_of_checkFields hschema
    mutableSchema := isColumn_of_checkFields hmutable
    queryable := fun p hp => isColumn_of_checkFields hqueryable p.2 (List.mem_map_of_mem hp)
    listOrder := fun o ho => isColumn_of_checkFields horder o.column (List.mem_map_of_mem ho)
    naturalKey := isColumn_of_checkFields hkeys _ List.mem_cons_self
    lookupField := isColumn_of_checkFields hkeys _ (List.mem_cons_of_mem _ List.mem_cons_self)
    customAttributes := fun f hf => isColumn_of_checkFields hcustom f.1 (List.mem_map_of_mem hf) }

theorem namesKnown_of_build {s : Settings} {c : Config} (h : build s = .ok c) (k : Kind) :
    NamesKnown k (c.resource k) := by
  obtain ⟨users, -, h⟩ := bind_eq_ok.1 h
  obtain ⟨groups, -, h⟩ := bind_eq_ok.1 h
  obtain ⟨⟨⟩, husers, h⟩ := bind_eq_ok.1 h
  obtain ⟨⟨⟩, hgroups, h⟩ := bind_eq_ok.1 h
  obtain ⟨-, -, h⟩ := bind_eq_ok.1 h
  obtain ⟨-, -, h⟩ := bind_eq_ok.1 h
  cases h
  cases k with
  | user => exact namesKnown_of_checkResource husers
  | group => exact namesKnown_of_checkResource hgroups

theorem maxCount_of_serve {c : Config} {k : Kind} {pager : Pager} (h : c.serve k = .ok pager) :
    pager.maxCount = c.maxPageSize := by
  obtain ⟨p, hmake, h⟩ := bind_eq_ok.1 h
  rw [Pager.make] at hmake
  split at hmake
  · cases hmake
  · cases hmake
    dsimp only at h
    split at h
    · cases h
    · cases h
      rfl

/-- Services can be opened unless a page size is negative. -/
theorem exists_serve {s : Settings} {c : Config} (h : build s = .ok c) (hdefault : 0 ≤ s.defaultPageSize)
    (hmax : ∀ n, s.maxPageSize = some n → 0 ≤ n) (k : Kind) : ∃ pager, c.serve k = .ok pager := by
  obtain ⟨users, groups, rfl⟩ := eq_of_build h
  refine ⟨⟨s.defaultPageSize, s.maxPageSize⟩, ?_⟩
  rw [serve, Pager.make_of_nonneg hdefault hmax, ok_bind]
  cases k <;> rfl

namespace IsStandard

variable {c : Config} (h : c.IsStandard)

include h

theorem name (k : Kind) : (c.resource k).name = k.name := by
  obtain ⟨⟨s, users, -, hu⟩, ⟨s', groups, hg⟩, -⟩ := h
  cases k
  · exact congrArg ResourceConfig.name hu
  · exact congrArg ResourceConfig.name hg

theorem schema (k : Kind) : (c.resource k).schema = Schema.readable k := by
  obtain ⟨⟨s, users, -, hu⟩, ⟨s', groups, hg⟩, -⟩ := h
  cases k
  · exact congrArg ResourceConfig.schema hu
  · exact congrArg ResourceConfig.schema hg

theorem mutableSchema (k : Kind) : (c.resource k).mutableSchema = Schema.writable k := by
  obtain ⟨⟨s, users, -, hu⟩, ⟨s', groups, hg⟩, -⟩ := h
  cases k
  · exact congrArg ResourceConfig.mutableSchema hu
  · exact congrArg ResourceConfig.mutableSchema hg

theorem queryable (k : Kind) : (c.resource k).queryable = Schema.queryable k := by
  obtain ⟨⟨s, users, -, hu⟩, ⟨s', groups, hg⟩, -⟩ := h
  cases k
  · exact congrArg ResourceConfig.queryable hu
  · exact congrArg ResourceConfig.queryable hg

theorem required (k : Kind) : (c.resource k).required = (Schema.writable k).fields.eraseDups := by
  obtain ⟨⟨s, users, -, hu⟩, ⟨s', groups, hg⟩, -⟩ := h
  cases k
  · exact congrArg ResourceConfig.required hu
  · exact congrArg ResourceConfig.required hg

theorem lookupField (k : Kind) : (c.resource k).lookupField = "uuid" := by
  obtain ⟨⟨s, users, -, hu⟩, ⟨s', groups, hg⟩, -⟩ := h
  cases k
  · exact congrArg ResourceConfig.lookupField hu
  · exact congrArg ResourceConfig.lookupField hg

theorem customAttributes (k : Kind) : (c.resource k).customAttributes = [] := by
  obtain ⟨⟨s, users, hs, hu⟩, ⟨s', groups, hg⟩, -⟩ := h
  cases k
  · exact (congrArg ResourceConfig.customAttributes hu).trans hs
  · exact congrArg ResourceConfig.customAttributes hg

theorem uniqueKey_group : (c.resource .group).uniqueKey = false := by
  obtain ⟨-, ⟨s, groups, hg⟩, -⟩ := h
  exact congrArg ResourceConfig.uniqueKey hg

theorem uniqueKey_user : (c.resource .user).uniqueKey = true := by
  obtain ⟨⟨s, users, -, hu⟩, -, -⟩ := h
  exact congrArg ResourceConfig.uniqueKey hu

/-- Only users are recognised in any case. -/
theorem ignoreCase (k : Kind) : (c.resource k).ignoreCase = decide (k = .user) := by
  obtain ⟨⟨s, users, -, hu⟩, ⟨s', groups, hg⟩, -⟩ := h
  cases k
  · exact congrArg ResourceConfig.ignoreCase hu
  · exact congrArg ResourceConfig.ignoreCase hg

theorem memberAttributes : c.memberAttributes = [("value", "uuid")] := by
  rw [Config.memberAttributes, h.member]
  rfl

theorem memberField : c.memberField = "uuid" := by
  rw [Config.memberField, h.memberAttributes]
  rfl

end IsStandard

end Config

end Roster
