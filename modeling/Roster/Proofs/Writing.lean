import Roster.Proofs.Rows

/-!
What writing a row does to it.

Attributes that belong to the profile change nothing but the profile and the time of the last change, and
the status changes nothing but the archive time and that time; a row that is as asked for stays as it is.
-/

set_option autoImplicit false

namespace Roster

/-- A value that says the same as a text is this text. -/
theorem eq_str_of_same {v : Json} {text : String} (h : Json.same v (.str text) = true) :
    v = .str text := by
  cases v
  case str s =>
    rw [Json.same, beq_iff_eq] at h
    rw [h]
  all_goals simp [Json.same, Json.value?] at h

namespace Store

variable {k : Kind} {s s' : Store} {clock : Nat} {r r' : Row k}

theorem isProfile_of_columns {attributes : List (String × Json)} (ha : ProfileOnly k attributes)
    {values : List (Column k × Json)} (h : columns k attributes = .ok values) {v : Column k × Json}
    (hv : v ∈ values) : v.1.isProfile = true := by
  obtain ⟨f, hf, hfv⟩ := exists_of_mem_mapM h hv
  obtain ⟨c, hname, hc⟩ := ha f hf
  obtain ⟨c', hc', hpure⟩ := bind_eq_ok.1 hfv
  rw [column, hname] at hc'
  cases hc'
  cases hpure
  exact hc

private theorem exists_of_cells {values : List (Column k × Json)} {changed : List (Column k × Cell)}
    (h : cells values = .ok changed) {p : Column k × Cell} (hp : p ∈ changed) :
    ∃ v ∈ values, v.1 = p.1 := by
  rw [cells] at h
  split at h
  · cases h
  · obtain ⟨v, hv, hvp⟩ := exists_of_mem_mapM h hp
    obtain ⟨c, -, hc⟩ := List.mem_filterMap.1 hv
    obtain ⟨value, hvalue, rfl⟩ := Option.map_eq_some_iff.1 hc
    obtain ⟨cell, -, hcell⟩ := bind_eq_ok.1 hvp
    cases hcell
    exact ⟨(c, value), mem_of_lookup hvalue, rfl⟩

theorem isProfile_of_cells {values : List (Column k × Json)} (hvalues : ∀ v ∈ values, v.1.isProfile = true)
    {changed : List (Column k × Cell)} (h : cells values = .ok changed) : ∀ p ∈ changed, p.1.isProfile = true := by
  intro p hp
  obtain ⟨v, hv, hvp⟩ := exists_of_cells h hp
  rw [← hvp]
  exact hvalues v hv

theorem lookup_eq_none {changed : List (Column k × Cell)}
    (hchanged : ∀ p ∈ changed, p.1.isProfile = true) {c : Column k} (hc : c.isProfile = false) :
    changed.lookup c = none := by
  refine List.lookup_eq_none_iff.2 fun p hp => bne_iff_ne.2 ?_
  rintro rfl
  rw [hchanged p hp] at hc
  cases hc

private theorem integer?_eq_some {cell : Cell} {n : Int} (h : cell.integer? = some n) : cell = .integer n := by
  cases cell
  case integer m =>
    cases h
    rfl
  all_goals cases h

private theorem text?_eq_some {cell : Cell} {text : String} (h : cell.text? = some text) : cell = .text text := by
  cases cell
  case text t =>
    cases h
    rfl
  all_goals cases h

private theorem time?_eq_some {cell : Cell} {t : Nat} (h : cell.time? = some t) : cell = .time t := by
  cases cell
  case time u =>
    cases h
    rfl
  all_goals cases h

private theorem optional?_archived (archived : Option Nat) :
    ((archived.map Cell.time).getD .null).optional? Cell.time? = some archived := by
  cases archived <;> rfl

private theorem getD_of_optional? {α : Type} {read : Cell → Option α} {write : α → Cell} {cell : Cell}
    {a : Option α} (hread : ∀ a, read cell = some a → cell = write a) (h : cell.optional? read = some a) :
    (a.map write).getD .null = cell := by
  rw [Cell.optional?] at h
  split at h
  next hnull =>
    cases h
    exact hnull.symm
  next =>
    obtain ⟨b, hb, rfl⟩ := Option.map_eq_some_iff.1 h
    exact (hread b hb).symm

private theorem get_of_profile {get : Column k → Cell} {profile : Profile k} (h : Profile.make k get = some profile)
    (id : Int) (uuid : String) (company : Cell) (archived : Option Nat) (created updated : Nat) {c : Column k}
    (hc : c.isProfile = true) :
    Row.get ⟨id, uuid, company, profile, archived, created, updated⟩ c = get c := by
  cases k with
  | user =>
    obtain ⟨firstName, hfirst, h⟩ := Option.bind_eq_some_iff.1 h
    obtain ⟨lastName, hlast, h⟩ := Option.bind_eq_some_iff.1 h
    obtain ⟨email, hemail, h⟩ := Option.bind_eq_some_iff.1 h
    obtain ⟨alternate, halternate, h⟩ := Option.bind_eq_some_iff.1 h
    cases h
    have halternate : (alternate.map Cell.text).getD .null = get .alternateEmail :=
      getD_of_optional? (fun _ => text?_eq_some) halternate
    cases c
    case firstName => exact (text?_eq_some hfirst).symm
    case lastName => exact (text?_eq_some hlast).symm
    case email => exact (text?_eq_some hemail).symm
    case alternateEmail =>
      rw [← halternate]
      cases alternate <;> rfl
    all_goals cases hc
  | group =>
    obtain ⟨displayName, hdisplay, h⟩ := Option.bind_eq_some_iff.1 h
    obtain ⟨email, hemail, h⟩ := Option.bind_eq_some_iff.1 h
    cases h
    cases c
    case displayName => exact (text?_eq_some hdisplay).symm
    case email => exact (text?_eq_some hemail).symm
    all_goals cases hc

/-- A row says what it has been made from. -/
theorem get_of_make {get : Column k → Cell} (h : Row.make get = some r) (c : Column k) : r.get c = get c := by
  rw [Row.make] at h
  split at h
  · cases h
  · obtain ⟨id, hid, h⟩ := Option.bind_eq_some_iff.1 h
    obtain ⟨uuid, huuid, h⟩ := Option.bind_eq_some_iff.1 h
    obtain ⟨profile, hprofile, h⟩ := Option.bind_eq_some_iff.1 h
    obtain ⟨archived, harchived, h⟩ := Option.bind_eq_some_iff.1 h
    obtain ⟨created, hcreated, h⟩ := Option.bind_eq_some_iff.1 h
    obtain ⟨updated, hupdated, h⟩ := Option.bind_eq_some_iff.1 h
    cases h
    by_cases hc : c.isProfile = true
    · exact get_of_profile hprofile _ _ _ _ _ _ hc
    · cases c
      case id => exact (integer?_eq_some hid).symm
      case uuid => exact (text?_eq_some huuid).symm
      case company => rfl
      case archived => exact getD_of_optional? (fun _ => time?_eq_some) harchived
      case created => exact (time?_eq_some hcreated).symm
      case updated => exact (time?_eq_some hupdated).symm
      all_goals exact absurd rfl hc

/-- A row that belongs to a company is made of what its columns say. -/
theorem make_get (hcompany : r.company ≠ .null) : Row.make r.get = some r := by
  have hcompany' : r.get .company ≠ .null := hcompany
  rw [Row.make]
  dsimp only
  rw [if_neg hcompany']
  obtain ⟨id, uuid, company, profile, archived, created, updated⟩ := r
  cases profile with
  | user firstName lastName email alternate => cases archived <;> cases alternate <;> rfl
  | group displayName email => cases archived <;> rfl

/-- A row made anew with other attributes and another time of its last change. -/
theorem eq_of_revised {changed : List (Column k × Cell)}
    (hchanged : ∀ p ∈ changed, p.1.isProfile = true)
    (h : revised r (changed ++ [(.updated, .time clock)]) = some r') :
    ∃ profile, r' = { r with profile, updated := clock } := by
  have hget (c : Column k) (hc : c.isProfile = false) :
      ((changed ++ [(Column.updated, Cell.time clock)]).lookup c).getD (r.get c) =
        if c = .updated then .time clock else r.get c := by
    rw [List.lookup_append, lookup_eq_none hchanged hc, Option.none_or, List.lookup_cons, List.lookup_nil]
    by_cases e : c = .updated
    · rw [e, beq_self_eq_true, if_pos rfl]
      rfl
    · rw [beq_eq_false_iff_ne.2 e, if_neg e]
      rfl
  have htells (c : Column k) (hc : c.isProfile = false) := (get_of_make h c).trans (hget c hc)
  have hid := htells .id rfl
  have huuid := htells .uuid rfl
  have hcompany := htells .company rfl
  have harchived := congrArg (Cell.optional? Cell.time?) (htells .archived rfl)
  have hcreated := htells .created rfl
  have hupdated := htells .updated rfl
  have harchived := (optional?_archived r'.archived).symm.trans (harchived.trans (optional?_archived r.archived))
  obtain ⟨id, uuid, company, profile, archived, created, updated⟩ := r'
  cases hid
  cases huuid
  cases hcompany
  cases harchived
  cases hcreated
  cases hupdated
  exact ⟨profile, rfl⟩

theorem Rewrites.of_put {new : Row k} (hr : r ∈ (s.table k).rows) (hid : new.id = r.id)
    (huuid : new.uuid = r.uuid) (hcompany : new.company = r.company) (hcreated : new.created = r.created)
    (h : s.put r new = .ok s') : s.Rewrites r new s' := by
  obtain ⟨t, ht, hrows⟩ := exists_put hr hid huuid
  rw [ht] at h
  cases h
  exact ⟨hr, hid, huuid, hcompany, hcreated, t, rfl, hrows⟩

/-- What writing attributes comes to: nothing differs and nothing is written, or the values that differ become
cells, and the row made of them is put in the place of the one before. -/
theorem exists_of_update {attributes : List (String × Json)} (h : s.update clock r attributes = .ok (r', s')) :
    ∃ values, columns k attributes = .ok values ∧
      ((values.filter fun v => !unchanged r v.1 v.2) = [] ∧ r' = r ∧ s' = s ∨
        ∃ given, cells (values.filter fun v => !unchanged r v.1 v.2) = .ok given ∧
          revised r (given ++ [(.updated, .time clock)]) = some r' ∧ s.put r r' = .ok s') := by
  rw [update] at h
  obtain ⟨values, hvalues, h⟩ := bind_eq_ok.1 h
  refine ⟨values, hvalues, ?_⟩
  dsimp only at h
  split at h
  next hempty =>
    cases h
    exact .inl ⟨List.isEmpty_iff.1 hempty, rfl, rfl⟩
  next =>
    split at h
    · cases h
    next given hgiven =>
      split at h
      · cases h
      next new hnew =>
        obtain ⟨t, hput, hpure⟩ := bind_eq_ok.1 h
        cases hpure
        exact .inr ⟨given, hgiven, hnew, hput⟩

/-- Writing attributes of the profile leaves the row as it is, or gives it another profile and the time of
the clock. -/
theorem update_cases (hr : r ∈ (s.table k).rows) {attributes : List (String × Json)}
    (ha : ProfileOnly k attributes) (h : s.update clock r attributes = .ok (r', s')) :
    (r' = r ∧ s' = s) ∨
      (∃ profile, r' = { r with profile, updated := clock }) ∧ s.Rewrites r r' s' := by
  obtain ⟨values, hvalues, ⟨-, rfl, rfl⟩ | ⟨given, hgiven, hnew, hput⟩⟩ := exists_of_update h
  · exact .inl ⟨rfl, rfl⟩
  · have hprofile : ∀ p ∈ given, p.1.isProfile = true :=
      isProfile_of_cells (fun v hv => isProfile_of_columns ha hvalues (List.mem_filter.1 hv).1) hgiven
    obtain ⟨profile, rfl⟩ := eq_of_revised hprofile hnew
    exact .inr ⟨⟨profile, rfl⟩, .of_put hr rfl rfl rfl rfl hput⟩

theorem Rewrites.of_update (hr : r ∈ (s.table k).rows) {attributes : List (String × Json)}
    (ha : ProfileOnly k attributes) (h : s.update clock r attributes = .ok (r', s')) :
    s.Rewrites r r' s' := by
  rcases update_cases hr ha h with ⟨rfl, rfl⟩ | ⟨-, h⟩
  · exact .refl hr
  · exact h

/-- The status of a row that is in its table can always be set. -/
theorem exists_setActive (clock : Nat) (hr : r ∈ (s.table k).rows) (active : Bool) :
    ∃ r' s', s.setActive clock r active = .ok (r', s') ∧ s.Rewrites r r' s' := by
  rw [setActive]
  split
  · exact ⟨r, s, rfl, .refl hr⟩
  · have hput : ∃ t : Table k, s.put r (stamped r (if active then none else some clock) clock) =
        .ok (s.withTable k t) ∧ t.rows = _ := exists_put hr rfl rfl
    obtain ⟨t, ht, hrows⟩ := hput
    refine ⟨stamped r (if active then none else some clock) clock, s.withTable k t, ?_, ?_⟩
    · dsimp only
      rw [ht, ok_bind]
      rfl
    · exact ⟨hr, rfl, rfl, rfl, rfl, t, rfl, hrows⟩

theorem Rewrites.of_setActive (hr : r ∈ (s.table k).rows) {active : Bool}
    (h : s.setActive clock r active = .ok (r', s')) : s.Rewrites r r' s' := by
  obtain ⟨r'', s'', h', hw⟩ := exists_setActive clock hr active
  rw [h'] at h
  cases h
  exact hw

/-- A new row made from attributes of the profile takes the next number, the offered identifier, the company
that asks for it and the time of the clock; it is active. -/
theorem exists_of_insert {owner : Company} {uuid : String} {values : List (Column k × Json)}
    (hvalues : ∀ v ∈ values, v.1.isProfile = true)
    (h : s.insert clock owner uuid values = .ok (r, s')) :
    ∃ profile, r = ⟨(s.table k).nextId, uuid, .integer owner.id, profile, none, clock, clock⟩ ∧
      ∃ t, (s.table k).insert? r = some t ∧ s' = s.withTable k t := by
  rw [insert] at h
  split at h
  · cases h
  next given hgiven =>
    dsimp only at h
    split at h
    next made hmade =>
      cases h
      obtain ⟨new, hnew, hinsert⟩ := Option.bind_eq_some_iff.1 hmade
      obtain ⟨t, ht, e⟩ := Option.map_eq_some_iff.1 hinsert
      cases e
      have hprofile : ∀ p ∈ given, p.1.isProfile = true :=
        isProfile_of_cells (fun v hv => hvalues v (List.mem_filter.1 hv).1) hgiven
      have hget (defaults : List (Column k × Cell)) (c : Column k) (hc : c.isProfile = false) :
          ((given ++ defaults).lookup c).getD .null = (defaults.lookup c).getD .null := by
        rw [List.lookup_append, lookup_eq_none hprofile hc, Option.none_or]
      have htells (c : Column k) (hc : c.isProfile = false) := (get_of_make hnew c).trans (hget _ c hc)
      have hid : Cell.integer _ = .integer (s.table k).nextId := htells .id rfl
      have huuid := htells .uuid rfl
      have hcompany := htells .company rfl
      have harchived := congrArg (Cell.optional? Cell.time?) (htells .archived rfl)
      have hcreated := htells .created rfl
      have hupdated := htells .updated rfl
      have harchived := (optional?_archived r.archived).symm.trans harchived
      obtain ⟨id, uuid', company, profile, archived, created, updated⟩ := r
      obtain rfl := Cell.integer.inj hid
      cases huuid
      cases hcompany
      cases harchived
      cases hcreated
      cases hupdated
      exact ⟨profile, rfl, t, ht, rfl⟩
    · cases h

end Store

end Roster
