import Roster.Proofs.Configured

/-!
Names that have been checked.

When a configuration is built all its names are checked, whatever attributes it fixes. So whatever looks for a name
in it, to find rows, to write them or to show them, may fail for other reasons but not for a mistake in it.
-/

set_option autoImplicit false

namespace Roster

variable {k : Kind} {known : Prop}

/-! ## Checked configurations -/

theorem Schema.mem_fields_of_fieldMap {schema : Schema} {p : String × String} (hp : p ∈ schema.fieldMap) :
    p.2 ∈ schema.fields := by
  cases schema with
  | constant value => cases hp
  | field name => cases hp
  | array items => cases hp
  | object children =>
    rw [fieldMap] at hp
    rw [fields]
    induction children with
    | nil => cases hp
    | cons child rest ih =>
      obtain ⟨name, schema⟩ := child
      rw [fieldsOfChildren, List.mem_append]
      rw [List.filterMap_cons] at hp
      cases schema with
      | field column =>
        rcases List.mem_cons.1 hp with rfl | hp
        · exact .inl (List.mem_singleton_self column)
        · exact .inr (ih hp)
      | constant value => exact .inr (ih hp)
      | object children => exact .inr (ih hp)
      | array items => exact .inr (ih hp)

theorem Schema.lookup_fieldMap {children : List (String × Schema)} {key name : String}
    (h : children.lookup key = some (.field name)) : (Schema.object children).fieldMap.lookup key = some name := by
  rw [fieldMap]
  induction children with
  | nil => cases h
  | cons child rest ih =>
    obtain ⟨key', schema⟩ := child
    rw [List.lookup_cons] at h
    rw [List.filterMap_cons]
    cases hkey : key == key' with
    | true =>
      rw [hkey] at h
      cases h
      simp only [List.lookup_cons, hkey]
    | false =>
      rw [hkey] at h
      cases schema with
      | field column =>
        simp only [List.lookup_cons, hkey]
        exact ih h
      | constant value => exact ih h
      | object children => exact ih h
      | array items => exact ih h

namespace Config

/-- Every name in the configuration has been checked, and members have a value. -/
structure IsChecked (c : Config) : Prop where
  resource : ∀ k, NamesKnown k (c.resource k)
  memberSchema : ∀ name ∈ c.memberSchema.fields, IsColumn .user name
  exists_memberValue : ∃ name, c.memberAttributes.lookup "value" = some name

private theorem exists_lookup_of_checkMember {schema : Schema} (h : checkMember schema = .ok ()) :
    ∃ name, schema.fieldMap.lookup "value" = some name := by
  unfold checkMember at h
  split at h
  next children =>
    split at h
    next name hname => exact ⟨name, Schema.lookup_fieldMap hname⟩
    next => cases h
  next => cases h

theorem isChecked_of_build {s : Settings} {c : Config} (h : build s = .ok c) : c.IsChecked := by
  have hresource := namesKnown_of_build h
  obtain ⟨users, -, h⟩ := bind_eq_ok.1 h
  obtain ⟨groups, -, h⟩ := bind_eq_ok.1 h
  obtain ⟨-, -, h⟩ := bind_eq_ok.1 h
  obtain ⟨-, -, h⟩ := bind_eq_ok.1 h
  obtain ⟨⟨⟩, hmembers, h⟩ := bind_eq_ok.1 h
  obtain ⟨⟨⟩, hvalue, h⟩ := bind_eq_ok.1 h
  cases h
  exact ⟨hresource, isColumn_of_checkFields hmembers, exists_lookup_of_checkMember hvalue⟩

namespace IsChecked

variable {c : Config} (h : c.IsChecked)

include h

theorem memberAttributes : ∀ p ∈ c.memberAttributes, IsColumn .user p.2 :=
  fun _ hp => h.memberSchema _ (Schema.mem_fields_of_fieldMap hp)

theorem memberField : IsColumn .user c.memberField := by
  obtain ⟨name, hname⟩ := h.exists_memberValue
  rw [Config.memberField, hname, Option.getD_some]
  exact h.memberAttributes _ (mem_of_lookup hname)

/-- A service can be opened with page sizes. -/
theorem serve_eq : c.serve k = Pager.make c.defaultPageSize c.maxPageSize := by
  obtain ⟨name, hname⟩ := h.exists_memberValue
  rw [serve]
  cases Pager.make c.defaultPageSize c.maxPageSize with
  | error e => rfl
  | ok pager =>
    rw [ok_bind, hname]
    simp [pure, Except.pure]

end IsChecked

end Config

/-! ## Checked names in requests -/

private theorem configured_matchKeys (users : List (String × Row .user)) (identifiers : List Json) :
    Configured known (matchKeys users identifiers) := by
  refine .mapM fun identifier _ => ?_
  split
  · exact .ok _
  · exact .error rfl

section Checked

variable {c : Config} (h : known → c.IsChecked) (s : Store) (owner : Company)

include h

theorem configured_get (identifier : Json) : Configured known (s.get c k owner identifier) := by
  have hfound := s.configured_findBy owner (fun hknown => ((h hknown).resource k).lookupField) identifier false
  refine hfound.bind fun found _ => ?_
  split
  · exact .ok _
  · exact .error rfl

theorem configured_checkKey (r : Row k) (attributes : Schema.Values) :
    Configured known (s.checkKey c owner r attributes) := by
  unfold Store.checkKey
  dsimp only
  split
  · exact .ok _
  · exact .ok _
  · split
    · refine (s.configured_findBy owner (fun hknown => ((h hknown).resource k).naturalKey) _ _).bind fun found _ => ?_
      split
      · split
        · exact .error rfl
        · exact .ok _
      · exact .ok _
    · exact .ok _

private theorem configured_keyed (users : List (Row .user)) : Configured known (keyed c users) := by
  refine .mapM fun u _ => ?_
  have hkey : Configured known (memberKey c u) := by
    unfold memberKey
    split
    · exact .ok _
    next hnone =>
      refine .mistake _ fun hknown => ?_
      obtain ⟨column, hcolumn⟩ := Option.isSome_iff_exists.1 (h hknown).memberField
      rw [Row.fieldText?, hcolumn] at hnone
      split at hnone <;> cases hnone
  exact hkey.bind fun _ _ => .ok _

theorem configured_resolve (identifiers : List Json) : Configured known (s.resolve c owner identifiers) := by
  unfold Store.resolve
  split
  · exact .ok _
  · refine (s.configured_findMany owner (fun hknown => (h hknown).memberField) identifiers).bind fun found _ => ?_
    exact (configured_keyed h found).bind fun _ _ => configured_matchKeys _ _

theorem configured_resolveMembers (group : Row .group) (identifiers : List Json) :
    Configured known (s.resolveMembers c group identifiers) :=
  (configured_keyed h (s.membersOf group)).bind fun _ _ => configured_matchKeys _ _

theorem configured_matchingMembers (group : Row .group) {path : Option String} {e : Filter.Expression}
    (he : memberFilter c path = .ok e) : Configured known (s.matchingMembers owner group e) := by
  obtain ⟨name, hname⟩ := mem_of_memberFilter he
  have hquery : Configured known (s.query .user owner (some e) [] 0 none) := by
    refine s.configured_query owner ?_ (fun _ _ ho => absurd ho List.not_mem_nil) 0 none
    rintro hknown e' ⟨⟩
    exact (h hknown).memberAttributes _ hname
  exact hquery.bind fun page _ => .ok _

theorem configured_listing {filter : Json} {expression : Option Filter.Expression}
    (he : Request.filterOf (c.resource k).queryable filter = .ok expression) (offset : Int) (limit : Option Int) :
    Configured known (s.query k owner expression (c.resource k).listOrder offset limit) := by
  refine s.configured_query owner ?_ (fun hknown => ((h hknown).resource k).listOrder) offset limit
  rintro hknown e rfl
  obtain ⟨name, hname⟩ := mem_of_filterOf he
  exact ((h hknown).resource k).queryable _ hname

end Checked

/-! ## Rendering -/

namespace Schema

variable {get : String → Option Json}

mutual

/-- A schema can be read if all its fields have values. -/
theorem exists_read : (schema : Schema) → (∀ name ∈ schema.fields, (get name).isSome = true) →
    ∃ value, schema.read get = .ok value
  | .constant value, _ => ⟨value, rfl⟩
  | .field name, hget => by
    obtain ⟨value, hvalue⟩ := Option.isSome_iff_exists.1 (hget name (List.mem_singleton_self name))
    exact ⟨value, by rw [read, hvalue]⟩
  | .object children, hget => by
    obtain ⟨values, hvalues⟩ := exists_readChildren children hget
    exact ⟨.obj values, by rw [read, hvalues]; rfl⟩
  | .array items, hget => by
    obtain ⟨values, hvalues⟩ := exists_readItems items hget
    exact ⟨.arr values, by rw [read, hvalues]; rfl⟩

theorem exists_readChildren : (children : List (String × Schema)) →
    (∀ name ∈ fieldsOfChildren children, (get name).isSome = true) →
    ∃ values, readChildren get children = .ok values
  | [], _ => ⟨[], rfl⟩
  | (key, schema) :: rest, hget => by
    obtain ⟨value, hvalue⟩ := exists_read schema fun name hname => hget name (List.mem_append_left _ hname)
    obtain ⟨values, hvalues⟩ := exists_readChildren rest fun name hname => hget name (List.mem_append_right _ hname)
    exact ⟨(key, value) :: values, by rw [readChildren, hvalue, hvalues]; rfl⟩

theorem exists_readItems : (items : List Schema) → (∀ name ∈ fieldsOfItems items, (get name).isSome = true) →
    ∃ values, readItems get items = .ok values
  | [], _ => ⟨[], rfl⟩
  | schema :: rest, hget => by
    obtain ⟨value, hvalue⟩ := exists_read schema fun name hname => hget name (List.mem_append_left _ hname)
    obtain ⟨values, hvalues⟩ := exists_readItems rest fun name hname => hget name (List.mem_append_right _ hname)
    exact ⟨value :: values, by rw [readItems, hvalue, hvalues]; rfl⟩

end

end Schema

theorem Row.isSome_shown? (r : Row k) (attached : List (String × Json)) {name : String}
    (hname : Config.isKnown k false name = true) : (r.shown? attached name).isSome = true := by
  unfold shown?
  split
  · rfl
  · unfold field?
    split
    · rfl
    next hactive =>
      have hcolumn : (Column.ofName? k name).isSome = true := by simpa [Config.isKnown, hactive] using hname
      obtain ⟨x, hx⟩ := Option.isSome_iff_exists.1 hcolumn
      rw [hx]
      rfl

theorem Row.configured_render (r : Row k) (attached : List (String × Json)) {schema : Schema}
    (hschema : known → ∀ name ∈ schema.fields, Config.isKnown k false name = true) :
    Configured known (r.render attached schema) := by
  unfold render
  split
  · exact .error rfl
  · split
    · exact .ok _
    next hfailed =>
      refine .mistake _ fun hknown => ?_
      obtain ⟨value, hvalue⟩ := Schema.exists_read schema fun name hname =>
        r.isSome_shown? attached (hschema hknown name hname)
      cases hfailed.symm.trans hvalue

namespace Store

variable {c : Config} (h : known → c.IsChecked) (s : Store)

include h

private theorem configured_renderGroups (kept : List Json) (attached : List (String × Json))
    (rows : List (Row .group)) : Configured known (s.renderGroups c kept attached rows) := by
  have hextend (members : List Json) (value : Json) : Configured known (value.extend "members" members) := by
    cases value with
    | obj fields => exact .ok _
    | _ => exact .error rfl
  have hmember (u : Row .user) : Configured known (u.render [] c.memberSchema) := by
    refine u.configured_render [] fun hknown name hname => ?_
    rw [Config.isKnown, Bool.or_eq_true]
    exact .inl ((h hknown).memberSchema name hname)
  have hparts (r : Row .group) : Configured known (s.groupParts c attached r) := by
    have hmembers : Configured known ((s.membersOf r).mapM fun m => m.render [] c.memberSchema) :=
      .mapM fun m _ => hmember m
    unfold groupParts
    refine (r.configured_render attached fun hknown => ((h hknown).resource .group).schema).bind fun rendered _ => ?_
    dsimp only
    split
    · exact .error rfl
    · exact hmembers.bind fun _ _ => .ok _
  unfold renderGroups
  refine (Configured.mapM fun r _ => hparts r).bind fun parts _ => ?_
  split
  · exact (Configured.mapM fun p _ => hextend _ p.1).bind fun _ _ => .ok _
  · exact (Configured.mapM fun p _ => hextend _ p.1).bind fun _ _ => .ok _

theorem configured_render (kept : List Json) (attached : List (String × Json)) (rows : List (Row k)) :
    Configured known (s.render c kept attached k rows) := by
  cases k with
  | user =>
    refine (Configured.mapM fun r _ => ?_).bind fun _ _ => .ok _
    exact r.configured_render attached fun hknown => ((h hknown).resource .user).schema
  | group => exact s.configured_renderGroups h kept attached rows

end Store

end Roster
