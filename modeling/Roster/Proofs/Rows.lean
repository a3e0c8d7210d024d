import Roster.Service.Attributes
import Roster.Proofs.Attributes

/-!
Rows in their tables.

A row is known by its number and by its public identifier. Writing attributes or the status of a row that is
in its table puts another row in its place: the number, the identifier, the company and the time of creation
stay, and so do all other rows, in their order.
-/

set_option autoImplicit false

namespace Roster

variable {k : Kind}

/-- The profile that says nothing. -/
def Profile.blank : (k : Kind) → Profile k
  | .user => .user "" "" "" none
  | .group => .group "" ""

namespace Table

theorem eq_of_rows {t u : Table k} (h : t.rows = u.rows) : t = u := by
  cases t
  cases u
  cases h
  rfl

theorem eq_of_id {t : Table k} {a b : Row k} (ha : a ∈ t.rows) (hb : b ∈ t.rows) (h : a.id = b.id) :
    a = b := by
  have hordered := t.ordered
  generalize t.rows = rows at ha hb hordered
  induction hordered with
  | nil => cases ha
  | cons hlt _ ih =>
    rcases List.mem_cons.1 ha with rfl | ha' <;> rcases List.mem_cons.1 hb with rfl | hb'
    · rfl
    · have := hlt b hb'
      omega
    · have := hlt a ha'
      omega
    · exact ih ha' hb'

theorem eq_of_uuid {t : Table k} {a b : Row k} (ha : a ∈ t.rows) (hb : b ∈ t.rows) (h : a.uuid = b.uuid) :
    a = b :=
  eq_of_id ha hb (t.distinct a ha b hb h)

theorem find?_eq_some_iff {t : Table k} {id : Int} {r : Row k} :
    t.find? id = some r ↔ r ∈ t.rows ∧ r.id = id := by
  constructor
  · intro h
    exact ⟨List.mem_of_find?_eq_some h, by simpa using List.find?_some h⟩
  · rintro ⟨hr, rfl⟩
    cases h : t.find? r.id with
    | none =>
      have := List.find?_eq_none.1 h r hr
      simp at this
    | some x =>
      have hid : x.id = r.id := by simpa using List.find?_some h
      rw [eq_of_id (List.mem_of_find?_eq_some h) hr hid]

/-- The rows with a row in the place of the one with its number. -/
def overwritten (t : Table k) (r : Row k) : List (Row k) :=
  t.rows.map fun x => if x.id = r.id then r else x

theorem mem_overwritten {t : Table k} {r x : Row k} (hx : x ∈ t.overwritten r) :
    x = r ∨ x ∈ t.rows ∧ x.id ≠ r.id := by
  obtain ⟨y, hy, rfl⟩ := List.mem_map.1 hx
  split
  next h => exact .inl rfl
  next h => exact .inr ⟨hy, h⟩

/-- Cutting the rows around a number and setting a row there overwrites the row with this number. -/
private theorem cut_eq_map {rows : List (Row k)} (hordered : rows.Pairwise fun a b => a.id < b.id)
    {new : Row k} (hmem : ∃ r ∈ rows, r.id = new.id) :
    (rows.filter fun x => x.id < new.id) ++ new :: (rows.filter fun x => new.id < x.id) =
      rows.map fun x => if x.id = new.id then new else x := by
  induction hordered with
  | nil =>
    obtain ⟨r, hr, -⟩ := hmem
    cases hr
  | @cons a rest hlt hrest ih =>
    rcases Int.lt_trichotomy a.id new.id with ha | ha | ha
    · have hmem' : ∃ r ∈ rest, r.id = new.id := by
        obtain ⟨r, hr, hid⟩ := hmem
        rcases List.mem_cons.1 hr with rfl | hr
        · omega
        · exact ⟨r, hr, hid⟩
      have hne : ¬a.id = new.id := by omega
      have hle : ¬new.id < a.id := by omega
      simp only [List.filter_cons, ha, hle, hne, decide_true, decide_false, if_true, if_false,
        List.map_cons, List.cons_append, Bool.false_eq_true, ih hmem']
    · have hsmall : rest.filter (fun x => x.id < new.id) = [] := by
        refine List.filter_eq_nil_iff.2 fun x hx => ?_
        have := hlt x hx
        simp only [decide_eq_true_eq]
        omega
      have hgreat : rest.filter (fun x => new.id < x.id) = rest := by
        refine List.filter_eq_self.2 fun x hx => ?_
        have := hlt x hx
        simp only [decide_eq_true_eq]
        omega
      have hsame : rest.map (fun x => if x.id = new.id then new else x) = rest := by
        refine (List.map_congr_left fun x hx => ?_).trans (List.map_id rest)
        have := hlt x hx
        exact if_neg (by omega)
      simp only [List.filter_cons, ha, Int.lt_irrefl, decide_false, Bool.false_eq_true, if_false, if_true,
        List.map_cons, hsmall, hgreat, hsame, List.nil_append]
    · obtain ⟨r, hr, hid⟩ := hmem
      rcases List.mem_cons.1 hr with rfl | hr
      · omega
      · have := hlt r hr
        omega

theorem rows_erase (t : Table k) (id : Int) : (t.erase id).rows = t.rows.filter fun r => r.id != id := rfl

theorem exists_insert? {t : Table k} {r : Row k} (h : t.isFree r = true) : ∃ u, t.insert? r = some u :=
  ⟨_, dif_pos h⟩

theorem insert?_eq_none {t : Table k} {r : Row k} (h : ¬t.isFree r = true) : t.insert? r = none :=
  dif_neg h

theorem rows_of_insert? {t u : Table k} {r : Row k} (h : t.insert? r = some u) :
    t.isFree r = true ∧ u.rows = t.placed r := by
  rw [insert?] at h
  split at h
  next hfree =>
    cases h
    exact ⟨hfree, rfl⟩
  next => cases h

theorem mem_of_insert? {t u : Table k} {r : Row k} (h : t.insert? r = some u) : r ∈ u.rows := by
  rw [(rows_of_insert? h).2]
  exact List.mem_append_right _ List.mem_cons_self

/-- The rows on both sides of a number are all but the one with this number. -/
private theorem cut_eq_filter {rows : List (Row k)} (hordered : rows.Pairwise fun a b => a.id < b.id) (id : Int) :
    (rows.filter fun x => x.id < id) ++ (rows.filter fun x => id < x.id) = rows.filter fun x => x.id != id := by
  induction hordered with
  | nil => rfl
  | @cons a rest hlt _ ih =>
    rcases Int.lt_trichotomy a.id id with ha | ha | ha
    · have hle : ¬id < a.id := by omega
      have hne : a.id ≠ id := by omega
      simp [ha, hle, hne, ih]
    · simp [ha, ih]
    · have hsmall : rest.filter (fun x => x.id < id) = [] := by
        refine List.filter_eq_nil_iff.2 fun x hx => ?_
        have := hlt x hx
        simp only [decide_eq_true_eq]
        omega
      have hle : ¬a.id < id := by omega
      have hne : a.id ≠ id := by omega
      rw [hsmall, List.nil_append] at ih
      simp [ha, hle, hne, hsmall, ih]

theorem id_ne_of_insert? {t u : Table k} {r : Row k} (h : t.insert? r = some u) {x : Row k} (hx : x ∈ t.rows) :
    x.id ≠ r.id := by
  have hfree := List.all_eq_true.1 (rows_of_insert? h).1 x hx
  simp only [Bool.and_eq_true, bne_iff_ne] at hfree
  exact hfree.1

/-- An inserted row comes between the rows that were there. -/
theorem exists_of_insert? {t u : Table k} {r : Row k} (h : t.insert? r = some u) :
    ∃ before after, t.rows = before ++ after ∧ u.rows = before ++ r :: after := by
  have hall : t.rows.filter (fun x => x.id != r.id) = t.rows := by
    refine List.filter_eq_self.2 fun x hx => ?_
    simpa using id_ne_of_insert? h hx
  refine ⟨_, _, ((cut_eq_filter t.ordered r.id).trans hall).symm, ?_⟩
  rw [(rows_of_insert? h).2, placed]

/-- An inserted row comes on top of the rows that were there. -/
theorem filter_of_insert? {t u : Table k} {r : Row k} (h : t.insert? r = some u) :
    (u.rows.filter fun x => x.id != r.id) = t.rows := by
  obtain ⟨before, after, hrows, hinserted⟩ := exists_of_insert? h
  have hkept : ∀ x ∈ before ++ after, (x.id != r.id) = true := by
    intro x hx
    rw [← hrows] at hx
    exact bne_iff_ne.2 (id_ne_of_insert? h hx)
  rw [hrows, hinserted, List.filter_append, List.filter_cons, bne_self_eq_false, if_neg Bool.false_ne_true,
    ← List.filter_append]
  exact List.filter_eq_self.2 hkept

/-- The row between others is overwritten. -/
theorem map_overwrite_append {before after : List (Row k)} {r r' : Row k}
    (hordered : (before ++ r :: after).Pairwise fun a b => a.id < b.id) (hid : r'.id = r.id) :
    (before ++ r :: after).map (fun x => if x.id = r'.id then r' else x) = before ++ r' :: after := by
  rw [List.pairwise_append, List.pairwise_cons] at hordered
  obtain ⟨-, ⟨hafter, -⟩, hbefore⟩ := hordered
  have hkeep {rows : List (Row k)} (hne : ∀ x ∈ rows, x.id ≠ r.id) :
      rows.map (fun x => if x.id = r'.id then r' else x) = rows := by
    refine (List.map_congr_left fun x hx => if_neg ?_).trans (List.map_id rows)
    rw [hid]
    exact hne x hx
  rw [List.map_append, List.map_cons, if_pos hid.symm, hkeep, hkeep]
  · intro x hx
    have := hafter x hx
    omega
  · intro x hx
    have := hbefore x hx r List.mem_cons_self
    omega

theorem overwritten_append {t : Table k} {before after : List (Row k)} {r r' : Row k}
    (hrows : t.rows = before ++ r :: after) (hid : r'.id = r.id) : t.overwritten r' = before ++ r' :: after := by
  have hordered := t.ordered
  rw [hrows] at hordered
  rw [overwritten, hrows, map_overwrite_append hordered hid]

/-- A row of the table can be replaced by one with its number and identifier. -/
theorem exists_replace? {t : Table k} {r new : Row k} (hr : r ∈ t.rows) (hid : new.id = r.id)
    (huuid : new.uuid = r.uuid) :
    ∃ u, t.replace? r.id new = some u ∧ u.rows = t.overwritten new := by
  have hfree : (t.erase r.id).isFree new = true := by
    refine List.all_eq_true.2 fun x hx => ?_
    rw [rows_erase, List.mem_filter] at hx
    have hne : x.id ≠ r.id := by simpa using hx.2
    have huuid' : x.uuid ≠ new.uuid := fun h => hne (t.distinct x hx.1 r hr (h.trans huuid))
    simp [hid, hne, huuid']
  have hplaced : (t.erase r.id).placed new = t.overwritten new := by
    have hcut := cut_eq_map t.ordered ⟨r, hr, hid.symm⟩
    rw [overwritten, ← hcut, placed, rows_erase, List.filter_filter, List.filter_filter]
    congr 1
    · refine List.filter_congr fun x _ => ?_
      by_cases h : x.id < new.id
      · have : x.id ≠ r.id := by omega
        simp [h, this]
      · simp [h]
    · congr 1
      refine List.filter_congr fun x _ => ?_
      by_cases h : new.id < x.id
      · have : x.id ≠ r.id := by omega
        simp [h, this]
      · simp [h]
  rw [replace?, insert?, dif_pos hfree]
  exact ⟨_, rfl, hplaced⟩

theorem id_le_of_getLast? {rows : List (Row k)} (hordered : rows.Pairwise fun a b => a.id < b.id)
    {last : Row k} (hlast : rows.getLast? = some last) : ∀ r ∈ rows, r.id ≤ last.id := by
  obtain ⟨before, rfl⟩ := List.getLast?_eq_some_iff.1 hlast
  intro r hr
  rcases List.mem_append.1 hr with hr | hr
  · exact Int.le_of_lt ((List.pairwise_append.1 hordered).2.2 r hr last (List.mem_singleton_self last))
  · exact Int.le_of_eq (congrArg Row.id (List.mem_singleton.1 hr))

private theorem freeFrom_of_lt {n : Int} {rows : List (Row k)} (hlt : ∀ r ∈ rows, n < r.id) : freeFrom n rows = n := by
  induction rows with
  | nil => rfl
  | cons r rest ih =>
    have hr := hlt r List.mem_cons_self
    have hne : ¬r.id = n := by omega
    rw [freeFrom, if_neg hne]
    exact ih fun x hx => hlt x (List.mem_cons_of_mem r hx)

private theorem id_ne_freeFrom {rows : List (Row k)} (hordered : rows.Pairwise fun a b => a.id < b.id) (n : Int) :
    n ≤ freeFrom n rows ∧ ∀ r ∈ rows, r.id ≠ freeFrom n rows := by
  induction hordered generalizing n with
  | nil => exact ⟨Int.le_refl n, fun r hr => absurd hr List.not_mem_nil⟩
  | @cons a rest hlt _ ih =>
    rw [freeFrom]
    split
    next ha =>
      obtain ⟨hle, hne⟩ := ih (n + 1)
      refine ⟨by omega, fun r hr => ?_⟩
      rcases List.mem_cons.1 hr with rfl | hr
      · omega
      · exact hne r hr
    next ha =>
      obtain ⟨hle, hne⟩ := ih n
      refine ⟨hle, fun r hr => ?_⟩
      rcases List.mem_cons.1 hr with rfl | hr
      · rcases Int.lt_or_gt_of_ne ha with hsmall | hgreat
        · omega
        · have hrest : ∀ x ∈ rest, n < x.id := fun x hx => Int.lt_trans hgreat (hlt x hx)
          rw [freeFrom_of_lt hrest]
          exact ha
      · exact hne r hr

/-- The number of the next row is not the number of a row. -/
theorem id_ne_nextId {t : Table k} {r : Row k} (hr : r ∈ t.rows) : r.id ≠ t.nextId := by
  rw [nextId]
  split
  next =>
    cases hlast : t.rows.getLast? with
    | none =>
      rw [List.getLast?_eq_none_iff.1 hlast] at hr
      cases hr
    | some last =>
      have hle := id_le_of_getLast? t.ordered hlast r hr
      rw [numberAfter, hlast]
      dsimp only
      omega
  next => exact (id_ne_freeFrom t.ordered 1).2 r hr

theorem overwritten_self {t : Table k} {r : Row k} (hr : r ∈ t.rows) : t.overwritten r = t.rows := by
  refine (List.map_congr_left fun x hx => ?_).trans (List.map_id t.rows)
  split
  next h => exact (eq_of_id hx hr h).symm
  next h => rfl

end Table

namespace Store

@[simp] theorem table_withTable (s : Store) (t : Table k) : (s.withTable k t).table k = t := by
  cases k <;> rfl

@[simp] theorem memberships_withTable (s : Store) (t : Table k) :
    (s.withTable k t).memberships = s.memberships := by
  cases k <;> rfl

@[simp] theorem companies_withTable (s : Store) (t : Table k) : (s.withTable k t).companies = s.companies := by
  cases k <;> rfl

@[simp] theorem withTable_withTable (s : Store) (t u : Table k) :
    (s.withTable k t).withTable k u = s.withTable k u := by
  cases k <;> rfl

@[simp] theorem withTable_table (s : Store) (k : Kind) : s.withTable k (s.table k) = s := by
  cases k <;> rfl

theorem mem_owned {s : Store} {owner : Company} {r : Row k} :
    r ∈ s.owned k owner ↔ r ∈ (s.table k).rows ∧ r.company = .integer owner.id := by
  rw [owned, List.mem_filter, beq_iff_eq]

theorem pairwise_owned (s : Store) (k : Kind) (owner : Company) :
    (s.owned k owner).Pairwise fun a b => a.id < b.id :=
  (s.table k).ordered.filter _

theorem nodup_owned (s : Store) (k : Kind) (owner : Company) : (s.owned k owner).Nodup := by
  have hordered := s.pairwise_owned k owner
  refine hordered.imp ?_
  rintro a b hlt rfl
  exact Int.lt_irrefl a.id hlt

theorem mem_rows_of_owned {s : Store} {owner : Company} {r : Row k} (hr : r ∈ s.owned k owner) :
    r ∈ (s.table k).rows :=
  (mem_owned.1 hr).1

/-- A store has a row, and another store has another row in its place; the number, the identifier, the
company and the time of creation of the row and everything else in the store are the same. -/
structure Rewrites (s : Store) (r r' : Row k) (s' : Store) : Prop where
  mem : r ∈ (s.table k).rows
  id : r'.id = r.id
  uuid : r'.uuid = r.uuid
  company : r'.company = r.company
  created : r'.created = r.created
  store : ∃ t : Table k, s' = s.withTable k t ∧ t.rows = (s.table k).overwritten r'

namespace Rewrites

variable {s s' s'' : Store} {r r' r'' : Row k}

theorem refl (hr : r ∈ (s.table k).rows) : s.Rewrites r r s :=
  ⟨hr, rfl, rfl, rfl, rfl, s.table k, (s.withTable_table k).symm, (Table.overwritten_self hr).symm⟩

theorem rows (h : s.Rewrites r r' s') : (s'.table k).rows = (s.table k).overwritten r' := by
  obtain ⟨t, rfl, ht⟩ := h.store
  rw [table_withTable, ht]

theorem memberships (h : s.Rewrites r r' s') : s'.memberships = s.memberships := by
  obtain ⟨t, rfl, -⟩ := h.store
  rw [memberships_withTable]

theorem withMemberships (h : s.Rewrites r r' s') (memberships : List Membership) :
    ({ s with memberships } : Store).Rewrites r r' { s' with memberships } := by
  obtain ⟨hmem, hid, huuid, hcompany, hcreated, t, rfl, ht⟩ := h
  cases k with
  | user => exact ⟨hmem, hid, huuid, hcompany, hcreated, t, rfl, ht⟩
  | group => exact ⟨hmem, hid, huuid, hcompany, hcreated, t, rfl, ht⟩

theorem mem_new (h : s.Rewrites r r' s') : r' ∈ (s'.table k).rows := by
  rw [h.rows]
  exact List.mem_map.2 ⟨r, h.mem, if_pos h.id.symm⟩

theorem trans (h : s.Rewrites r r' s') (h' : s'.Rewrites r' r'' s'') : s.Rewrites r r'' s'' where
  mem := h.mem
  id := h'.id.trans h.id
  uuid := h'.uuid.trans h.uuid
  company := h'.company.trans h.company
  created := h'.created.trans h.created
  store := by
    obtain ⟨t, rfl, ht⟩ := h.store
    obtain ⟨u, rfl, hu⟩ := h'.store
    refine ⟨u, by rw [withTable_withTable], ?_⟩
    rw [hu, table_withTable, Table.overwritten, ht, Table.overwritten, List.map_map]
    refine List.map_congr_left fun x _ => ?_
    have hid := h'.id
    by_cases hx : x.id = r'.id
    · simp [hx, hid]
    · simp [hx, hid]

theorem mem_owned (h : s.Rewrites r r' s') {owner : Company} (hr : r ∈ s.owned k owner) :
    r' ∈ s'.owned k owner :=
  Store.mem_owned.2 ⟨h.mem_new, h.company.trans (Store.mem_owned.1 hr).2⟩

/-- The rows of the company are those from before, with the new row in the place of the old one. -/
theorem owned_eq (h : s.Rewrites r r' s') {owner : Company} (hr : r ∈ s.owned k owner) :
    s'.owned k owner = (s.owned k owner).map fun x => if x.id = r'.id then r' else x := by
  obtain ⟨hmem, hcompany⟩ := Store.mem_owned.1 hr
  rw [owned, h.rows, Table.overwritten, List.filter_map, owned]
  congr 1
  refine List.filter_congr fun x hx => ?_
  rw [Function.comp_apply]
  split
  next hid =>
    have hsame : x = r := Table.eq_of_id hx hmem (hid.trans h.id)
    rw [h.company, hsame]
  next => rfl

end Rewrites

variable {s s' : Store} {owner : Company}

/-- A row has been written into a store: it belongs to its company now, no row of the store before is lost,
there is no other new one, and everything else is the same. -/
structure Writes (s : Store) (owner : Company) (r : Row k) (s' : Store) : Prop where
  mem : r ∈ s'.owned k owner
  memberships : s'.memberships = s.memberships
  others : ∀ k', k' ≠ k → s'.table k' = s.table k'
  kept : ∀ x ∈ (s.table k).rows, ∃ y ∈ (s'.table k).rows, y.id = x.id ∧ y.company = x.company
  origin : ∀ y ∈ (s'.table k).rows, y.id = r.id ∨ ∃ x ∈ (s.table k).rows, x.id = y.id

theorem table_withTable_of_ne {k k' : Kind} (s : Store) (t : Table k) (h : k' ≠ k) :
    (s.withTable k t).table k' = s.table k' := by
  cases k <;> cases k' <;> first | rfl | exact absurd rfl h

theorem rows_table_erase (s : Store) (r : Row k) :
    ((s.erase k r).table k).rows = (s.table k).rows.filter fun x => x.id != r.id := by
  cases k <;> rfl

theorem table_erase_of_ne {k k' : Kind} (s : Store) (r : Row k) (h : k' ≠ k) :
    (s.erase k r).table k' = s.table k' := by
  cases k <;> cases k' <;> first | rfl | exact absurd rfl h

theorem Rewrites.writes {r r' : Row k} (h : s.Rewrites r r' s') (hr : r ∈ s.owned k owner) :
    s.Writes owner r' s' where
  mem := h.mem_owned hr
  memberships := h.memberships
  others k' hk := by
    obtain ⟨t, rfl, -⟩ := h.store
    exact s.table_withTable_of_ne t hk
  kept x hx := by
    rw [h.rows]
    refine ⟨if x.id = r'.id then r' else x, List.mem_map_of_mem hx, ?_⟩
    split
    next e =>
      have hxr : x = r := Table.eq_of_id hx h.mem (e.trans h.id)
      exact ⟨e.symm, h.company.trans (congrArg Row.company hxr.symm)⟩
    next => exact ⟨rfl, rfl⟩
  origin y hy := by
    rw [h.rows] at hy
    rcases Table.mem_overwritten hy with rfl | ⟨hy, -⟩
    · exact .inl rfl
    · exact .inr ⟨y, hy, rfl⟩

theorem Writes.rewrites {r r' : Row k} {s'' : Store} (h : s.Writes owner r s') (hr : s'.Rewrites r r' s'') :
    s.Writes owner r' s'' where
  mem := hr.mem_owned h.mem
  memberships := hr.memberships.trans h.memberships
  others k' hk := ((hr.writes h.mem).others k' hk).trans (h.others k' hk)
  kept x hx := by
    obtain ⟨y, hy, hid, hcompany⟩ := h.kept x hx
    obtain ⟨z, hz, hid', hcompany'⟩ := (hr.writes h.mem).kept y hy
    exact ⟨z, hz, hid'.trans hid, hcompany'.trans hcompany⟩
  origin z hz := by
    rcases (hr.writes h.mem).origin z hz with e | ⟨y, hy, e⟩
    · exact .inl e
    · rcases h.origin y hy with e' | ⟨x, hx, e'⟩
      · exact .inl (e.symm.trans (e'.trans hr.id.symm))
      · exact .inr ⟨x, hx, e'.trans e⟩

theorem Writes.of_insert {r : Row k} {t : Table k} (ht : (s.table k).insert? r = some t)
    (hcompany : r.company = .integer owner.id) : s.Writes owner r (s.withTable k t) := by
  obtain ⟨hfree, hrows⟩ := Table.rows_of_insert? ht
  have hmem {x : Row k} : x ∈ ((s.withTable k t).table k).rows ↔ x ∈ (s.table k).placed r := by
    rw [table_withTable, hrows]
  constructor
  · refine mem_owned.2 ⟨?_, hcompany⟩
    rw [table_withTable]
    exact Table.mem_of_insert? ht
  · exact s.memberships_withTable t
  · intro k' hk
    exact s.table_withTable_of_ne t hk
  · intro x hx
    have hne : x.id ≠ r.id := by
      have := List.all_eq_true.1 hfree x hx
      simp at this
      exact this.1
    refine ⟨x, hmem.2 ?_, rfl, rfl⟩
    rcases Int.lt_or_gt_of_ne hne with hlt | hgt
    · exact List.mem_append_left _ (List.mem_filter.2 ⟨hx, by simpa using hlt⟩)
    · exact List.mem_append_right _ (List.mem_cons_of_mem r (List.mem_filter.2 ⟨hx, by simpa using hgt⟩))
  · intro y hy
    rcases Table.mem_placed (hmem.1 hy) with rfl | hy
    · exact .inl rfl
    · exact .inr ⟨y, hy, rfl⟩

theorem Writes.exists_row {r : Row k} (h : s.Writes owner r s') (k' : Kind) {x : Row k'}
    (hx : x ∈ (s.table k').rows) : ∃ y ∈ (s'.table k').rows, y.id = x.id ∧ y.company = x.company := by
  by_cases hk : k' = k
  · subst hk
    exact h.kept x hx
  · refine ⟨x, ?_, rfl, rfl⟩
    rw [h.others k' hk]
    exact hx

theorem Writes.owned_other {r : Row k} (h : s.Writes owner r s') {k' : Kind} (hk : k' ≠ k) :
    s'.owned k' owner = s.owned k' owner := by
  rw [owned, owned, h.others k' hk]

theorem exists_put {s : Store} {r new : Row k} (hr : r ∈ (s.table k).rows) (hid : new.id = r.id)
    (huuid : new.uuid = r.uuid) :
    ∃ t : Table k, s.put r new = .ok (s.withTable k t) ∧ t.rows = (s.table k).overwritten new := by
  obtain ⟨t, ht, hrows⟩ := Table.exists_replace? hr hid huuid
  exact ⟨t, by rw [put, ht], hrows⟩

end Store

end Roster
