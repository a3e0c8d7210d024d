import Mathlib.Data.Fintype.EquivFin
import Roster.Proofs.Requests
import Roster.Proofs.Sample
import Roster.Proofs.Tenancy

/-!
What requests leave alone.

A request writes, inserts or deletes one row at most, a row of the company that makes it, and changes no
memberships but those of this row. All other rows keep their places, and what belongs to other companies is
as it was.
-/

set_option autoImplicit false

namespace Roster

variable {k : Kind} {s s' s'' : Store} {owner : Company} {id : Int}

namespace Store

/-- Two stores differ in one row at most, apart from memberships. The row belongs to a company before and
after, and where it is there both times its identifier is the same. -/
structure Spares (s : Store) (owner : Company) (k : Kind) (id : Int) (s' : Store) : Prop where
  companies : s'.companies = s.companies
  others : ∀ k', k' ≠ k → s'.table k' = s.table k'
  rows : (s'.table k).rows.filter (fun x => x.id != id) = (s.table k).rows.filter fun x => x.id != id
  before : ∀ r ∈ (s.table k).rows, r.id = id → r.company = .integer owner.id
  after : ∀ r' ∈ (s'.table k).rows, r'.id = id → r'.company = .integer owner.id
  uuid : ∀ r ∈ (s.table k).rows, ∀ r' ∈ (s'.table k).rows, r.id = id → r'.id = id → r'.uuid = r.uuid

private theorem find?_filter_of_ne (rows : List (Row k)) {j : Int} (hj : j ≠ id) :
    (rows.filter fun x => x.id != id).find? (fun x => x.id == j) = rows.find? fun x => x.id == j := by
  rw [List.find?_filter]
  congr 1
  funext x
  by_cases hx : x.id = j
  · simp [hx, hj]
  · simp [hx]

namespace Spares

theorem refl (hid : ∀ r ∈ (s.table k).rows, r.id = id → r.company = .integer owner.id) :
    s.Spares owner k id s := by
  refine ⟨rfl, fun _ _ => rfl, rfl, hid, hid, ?_⟩
  intro r hr r' hr' h h'
  have hsame : r' = r := Table.eq_of_id hr' hr (h'.trans h.symm)
  rw [hsame]

theorem of_mem {r : Row k} (hr : r ∈ s.owned k owner) : s.Spares owner k r.id s := by
  obtain ⟨hmem, hcompany⟩ := mem_owned.1 hr
  apply refl
  intro x hx hid
  have hsame : x = r := Table.eq_of_id hx hmem hid
  rw [hsame, hcompany]

/-- Rewriting a row leaves all other rows as they are. -/
theorem rewrites (h : s.Spares owner k id s') {r r' : Row k} (hr : r ∈ s'.owned k owner) (hid : r.id = id)
    (hw : s'.Rewrites r r' s'') : s.Spares owner k id s'' := by
  obtain ⟨hmem, hcompany⟩ := mem_owned.1 hr
  have hid' : r'.id = id := hw.id.trans hid
  have hnew : ∀ x ∈ (s''.table k).rows, x.id = id → x = r' := by
    intro x hx hxid
    exact Table.eq_of_id hx hw.mem_new (hxid.trans hid'.symm)
  constructor
  · obtain ⟨t, rfl, -⟩ := hw.store
    rw [companies_withTable, h.companies]
  · intro k' hk
    rw [(hw.writes hr).others k' hk, h.others k' hk]
  · rw [← h.rows, hw.rows, Table.overwritten, List.filter_map]
    have hother : ((fun x : Row k => x.id != id) ∘ fun x => if x.id = r'.id then r' else x) =
        fun x => x.id != id := by
      funext x
      by_cases hx : x.id = r'.id <;> simp [hx]
    rw [hother]
    refine (List.map_congr_left fun x hx => ?_).trans (List.map_id _)
    have hne : x.id ≠ id := by simpa using (List.mem_filter.1 hx).2
    simp [hid', hne]
  · exact h.before
  · intro x hx hxid
    rw [hnew x hx hxid, hw.company, hcompany]
  · intro x hx x' hx' hxid hxid'
    rw [hnew x' hx' hxid', hw.uuid, h.uuid x hx r hmem hxid hid]

/-- Memberships are no rows. -/
theorem memberships (h : s.Spares owner k id s') (memberships : List Membership) :
    s.Spares owner k id { s' with memberships } := by
  obtain ⟨hcompanies, hothers, hrows, hbefore, hafter, huuid⟩ := h
  cases k with
  | user => exact ⟨hcompanies, fun k' hk => by cases k' <;> exact hothers _ hk, hrows, hbefore, hafter, huuid⟩
  | group => exact ⟨hcompanies, fun k' hk => by cases k' <;> exact hothers _ hk, hrows, hbefore, hafter, huuid⟩

theorem of_insert {r : Row k} {t : Table k} (ht : (s.table k).insert? r = some t)
    (hcompany : r.company = .integer owner.id) : s.Spares owner k r.id (s.withTable k t) := by
  have hnone : ∀ x ∈ (s.table k).rows, x.id ≠ r.id := fun x hx => Table.id_ne_of_insert? ht hx
  have hall : (s.table k).rows.filter (fun x => x.id != r.id) = (s.table k).rows := by
    refine List.filter_eq_self.2 fun x hx => ?_
    simpa using hnone x hx
  constructor
  · exact companies_withTable s t
  · intro k' hk
    exact s.table_withTable_of_ne t hk
  · rw [table_withTable, Table.filter_of_insert? ht, hall]
  · intro x hx hid
    exact absurd hid (hnone x hx)
  · intro x hx hid
    rw [table_withTable, (Table.rows_of_insert? ht).2] at hx
    rcases Table.mem_placed hx with rfl | hx
    · exact hcompany
    · exact absurd hid (hnone x hx)
  · intro x hx x' _ hid _
    exact absurd hid (hnone x hx)

theorem of_erase {r : Row k} (hr : r ∈ s.owned k owner) : s.Spares owner k r.id (s.erase k r) := by
  have hrows := s.rows_table_erase r
  have hgone : ∀ x ∈ ((s.erase k r).table k).rows, x.id ≠ r.id := by
    intro x hx
    rw [hrows] at hx
    simpa using (List.mem_filter.1 hx).2
  constructor
  · cases k <;> rfl
  · exact fun k' hk => s.table_erase_of_ne r hk
  · rw [hrows, List.filter_filter]
    simp
  · exact (of_mem hr).before
  · intro x hx hid
    exact absurd hid (hgone x hx)
  · intro _ _ x hx _ hid
    exact absurd hid (hgone x hx)

theorem find?_of_ne (h : s.Spares owner k id s') {j : Int} (hj : j ≠ id) :
    (s'.table k).find? j = (s.table k).find? j := by
  have hfind := find?_filter_of_ne (s'.table k).rows hj
  rw [h.rows, find?_filter_of_ne (s.table k).rows hj] at hfind
  exact hfind.symm

theorem mem_rows (h : s.Spares owner k id s') {r : Row k} (hr : r.id ≠ id) :
    r ∈ (s'.table k).rows ↔ r ∈ (s.table k).rows := by
  have hother (rows : List (Row k)) : r ∈ rows.filter (fun x => x.id != id) ↔ r ∈ rows := by
    simp [hr]
  rw [← hother (s'.table k).rows, h.rows, hother]

/-- The rows of all other companies are the same. -/
theorem foreign_rows (h : s.Spares owner k id s') (k' : Kind) :
    (s'.table k').rows.filter (fun x => x.company != .integer owner.id) =
      (s.table k').rows.filter fun x => x.company != .integer owner.id := by
  by_cases hk : k' = k
  · subst hk
    have hrest {rows : List (Row k')} (hid : ∀ x ∈ rows, x.id = id → x.company = .integer owner.id) :
        (rows.filter fun x => x.id != id).filter (fun x => x.company != .integer owner.id) =
          rows.filter fun x => x.company != .integer owner.id := by
      rw [List.filter_filter]
      refine List.filter_congr fun x hx => ?_
      by_cases hxid : x.id = id
      · simp [hid x hx hxid]
      · simp [hxid]
    rw [← hrest h.after, ← hrest h.before, h.rows]
  · rw [h.others k' hk]

end Spares

/-! ## Members -/

theorem others_addMembers (s : Store) (clock : Nat) (group : Row .group) (users : List (Row .user)) :
    (s.addMembers clock group users).memberships.filter (fun m => m.group != group.id) =
      s.memberships.filter fun m => m.group != group.id := by
  rw [memberships_addMembers, List.filter_append, List.append_right_eq_self, List.filter_eq_nil_iff]
  intro m hm
  obtain ⟨id, -, rfl⟩ := List.mem_map.1 hm
  simp

theorem others_clearMembers (s : Store) (group : Row .group) :
    (s.clearMembers group).memberships.filter (fun m => m.group != group.id) =
      s.memberships.filter fun m => m.group != group.id := by
  simp [clearMembers, List.filter_filter]

private theorem others_withoutMembers (s : Store) (group : Row .group) (users : List (Row .user)) :
    (s.withoutMembers group users).memberships.filter (fun m => m.group != group.id) =
      s.memberships.filter fun m => m.group != group.id := by
  rw [withoutMembers, List.filter_filter]
  refine List.filter_congr fun m _ => ?_
  by_cases hm : m.group = group.id <;> simp [hm]

/-- Only the memberships of one group are others. -/
def SparesGroups (s : Store) (id : Int) (s' : Store) : Prop :=
  (s'.memberships.filter fun m => m.group != id) = s.memberships.filter fun m => m.group != id

theorem SparesGroups.of_changesMembers {group : Row .group} (h : s.ChangesMembers owner group s') :
    s.SparesGroups group.id s' := by
  cases h with
  | add clock users => exact others_addMembers s clock group users
  | replace clock users => exact (others_addMembers _ clock group users).trans (others_clearMembers s group)
  | remove users => exact others_withoutMembers s group users
  | clear => exact others_clearMembers s group

/-- Members are read off the memberships of their group and the rows of these users. -/
theorem membersOf_congr {group : Row .group}
    (hmemberships : (s'.memberships.filter fun m => m.group == group.id) =
      s.memberships.filter fun m => m.group == group.id)
    (husers : ∀ m ∈ s.memberships, m.group = group.id → s'.users.find? m.user = s.users.find? m.user) :
    s'.membersOf group = s.membersOf group := by
  rw [membersOf, membersOf, hmemberships]
  refine List.filterMap_congr fun m hm => ?_
  obtain ⟨hm, hgroup⟩ := List.mem_filter.1 hm
  exact husers m hm (by simpa using hgroup)

theorem SparesGroups.filter_eq (h : s.SparesGroups id s') {j : Int} (hj : j ≠ id) :
    (s'.memberships.filter fun m => m.group == j) = s.memberships.filter fun m => m.group == j := by
  have hrest (ms : List Membership) :
      (ms.filter fun m => m.group != id).filter (fun m => m.group == j) = ms.filter fun m => m.group == j := by
    rw [List.filter_filter]
    refine List.filter_congr fun m _ => ?_
    by_cases hm : m.group = j
    · simp [hm, hj]
    · simp [hm]
  rw [← hrest s'.memberships, ← hrest s.memberships, h]

/-- A row of a company is written or inserted. If it is a group its memberships may be others; all other
memberships are the same. -/
structure Alters (s : Store) (owner : Company) (k : Kind) (id : Int) (s' : Store) : Prop
    extends s.Spares owner k id s' where
  user : k = .user → s'.memberships = s.memberships
  group : k = .group → s.SparesGroups id s'

namespace Alters

theorem of_mem {r : Row k} (hr : r ∈ s.owned k owner) : s.Alters owner k r.id s :=
  ⟨.of_mem hr, fun _ => rfl, fun _ => rfl⟩

theorem of_insert {r : Row k} {t : Table k} (ht : (s.table k).insert? r = some t)
    (hcompany : r.company = .integer owner.id) : s.Alters owner k r.id (s.withTable k t) := by
  have hsame := s.memberships_withTable t
  refine ⟨.of_insert ht hcompany, fun _ => hsame, fun _ => ?_⟩
  rw [SparesGroups, hsame]

theorem rewrites (h : s.Alters owner k id s') {r r' : Row k} (hr : r ∈ s'.owned k owner) (hid : r.id = id)
    (hw : s'.Rewrites r r' s'') : s.Alters owner k id s'' := by
  refine ⟨h.toSpares.rewrites hr hid hw, ?_, ?_⟩
  · intro hk
    rw [hw.memberships, h.user hk]
  · intro hk
    rw [SparesGroups, hw.memberships]
    exact h.group hk

theorem members (h : s.Alters owner .group id s') {memberships : List Membership}
    (hm : s'.SparesGroups id { s' with memberships }) : s.Alters owner .group id { s' with memberships } :=
  ⟨h.toSpares.memberships memberships, fun hk => (nomatch hk), fun _ => hm.trans (h.group rfl)⟩

theorem withNewMembers (h : s.Alters owner k id s') {r : Row k} (hid : r.id = id) (clock : Nat)
    (users : List (Row .user)) : s.Alters owner k id (s'.withNewMembers clock users k r) := by
  cases k with
  | user => exact h
  | group =>
    rw [Store.withNewMembers, addMembers_eq]
    apply h.members
    rw [← hid]
    exact others_addMembers s' clock r users

theorem withMembers (h : s.Alters owner k id s') {r : Row k} (hid : r.id = id) (clock : Nat)
    (users : List (Row .user)) : s.Alters owner k id (s'.withMembers clock users k r) := by
  cases k with
  | user => exact h
  | group =>
    rw [Store.withMembers, addMembers_eq]
    apply h.members
    rw [← hid]
    exact (others_addMembers _ clock r users).trans (others_clearMembers s' r)

theorem patches (h : s.Alters owner k id s') {r r' : Row k} (hr : r ∈ s'.owned k owner) (hid : r.id = id)
    (hp : s'.Patches owner k r r' s'') : s.Alters owner k id s'' := by
  cases hp with
  | attributes hw => exact h.rewrites hr hid hw
  | members _ hc =>
    have hspares := SparesGroups.of_changesMembers hc
    rw [hc.eq] at hspares ⊢
    apply h.members
    rw [← hid]
    exact hspares

end Alters

/-! ## Requests -/

section Requests

variable {ctx : Context}

private theorem Alters.of_settled (h : s.Alters owner k id s') {r r' : Row k} (hr : r ∈ s'.owned k owner)
    (hid : r.id = id) {clock : Nat} {status : Option Bool} (hs : s'.settled clock r status = .ok (r', s'')) :
    s.Alters owner k id s'' ∧ r'.id = id := by
  have hw : s'.Rewrites r r' s'' := .of_settled (mem_rows_of_owned hr) hs
  exact ⟨h.rewrites hr hid hw, hw.id.trans hid⟩

variable (h : ctx.config.IsStandard)

include h

theorem alters_of_created {uuid : String} {payload : Json} {r : Row k}
    (hc : s.created ctx owner k uuid payload = .ok (r, s')) : s.Alters owner k r.id s' := by
  obtain ⟨p, hp, hc⟩ := bind_eq_ok.1 hc
  obtain ⟨hcomplete, -, -, -, key, -, hexisting⟩ := creation_eq_ok.1 hp
  have hprofile := h.profileOnly_complete hcomplete
  obtain ⟨⟨r₁, s₁⟩, hupserted, hc⟩ := bind_eq_ok.1 hc
  have hwritten : s.Alters owner k r₁.id s₁ ∧ r₁ ∈ s₁.owned k owner := by
    rcases upserted_cases hprofile hupserted with ⟨found, hfound, hupdate⟩ | ⟨-, profile, t, rfl, ht, rfl⟩
    · rw [hfound] at hexisting
      have hmem := mem_owned_of_findBy hexisting
      have hw : s.Rewrites found r₁ s₁ := .of_update (mem_rows_of_owned hmem) hprofile hupdate
      rw [hw.id]
      exact ⟨(Alters.of_mem hmem).rewrites hmem rfl hw, hw.mem_owned hmem⟩
    · exact ⟨.of_insert ht rfl, (Writes.of_insert ht rfl).mem⟩
  obtain ⟨halters, hmem⟩ := hwritten
  obtain ⟨⟨r₂, s₂⟩, hsettled, e⟩ := map_eq_ok.1 hc
  obtain ⟨halters, hid⟩ := halters.of_settled hmem rfl hsettled
  cases e
  rw [hid]
  exact halters.withNewMembers hid ctx.clock p.users

theorem alters_of_replaced {identifier payload : Json} {r : Row k}
    (hc : s.replaced ctx owner k identifier payload = .ok (r, s')) : s.Alters owner k r.id s' := by
  obtain ⟨found, hget, hc⟩ := bind_eq_ok.1 hc
  obtain ⟨users, -, hc⟩ := bind_eq_ok.1 hc
  obtain ⟨status, -, hc⟩ := bind_eq_ok.1 hc
  obtain ⟨attributes, hcomplete, hc⟩ := bind_eq_ok.1 hc
  obtain ⟨-, -, hc⟩ := bind_eq_ok.1 hc
  obtain ⟨⟨r₁, s₁⟩, hupdate, hc⟩ := bind_eq_ok.1 hc
  have hmem := mem_owned_of_get h hget
  have hprofile := h.profileOnly_complete (eq_ok_of_mapError hcomplete)
  have hw : s.Rewrites found r₁ s₁ := .of_update (mem_rows_of_owned hmem) hprofile hupdate
  have halters := (Alters.of_mem hmem).rewrites hmem rfl hw
  obtain ⟨⟨r₂, s₂⟩, hsettled, e⟩ := map_eq_ok.1 hc
  obtain ⟨halters, hid⟩ := halters.of_settled (hw.mem_owned hmem) hw.id hsettled
  cases e
  rw [hid]
  exact halters.withMembers hid ctx.clock users

/-- Every operation of a PATCH request is on the same row, and so are those before one that is refused. -/
theorem Alters.patched {s₀ : Store} (hs : s₀.Alters owner k id s) {r : Row k} (hr : r ∈ s.owned k owner)
    (hid : r.id = id) (operations : List PatchOperation) :
    s₀.Alters owner k id (s.patched ctx owner r operations).2 := by
  induction operations generalizing s r with
  | nil => exact hs
  | cons o rest ih =>
    rw [Store.patched]
    cases he : Step.effect (applyOperation ctx owner k r o) s with
    | error e => exact hs
    | ok p =>
      have hp : s.Patches owner k r p.1 p.2 := .of_applyOperation h (mem_rows_of_owned hr) he
      exact ih (hs.patches hr hid hp) (hp.mem_owned hr) (hp.id.trans hid)

end Requests

/-! ## What belongs to others -/

theorem exists_unused (t : Table k) : ∃ id, ∀ r ∈ t.rows, r.id ≠ id := by
  obtain ⟨id, hid⟩ := Infinite.exists_notMem_finset (t.rows.map Row.id).toFinset
  rw [List.mem_toFinset] at hid
  refine ⟨id, fun r hr e => hid ?_⟩
  rw [← e]
  exact List.mem_map_of_mem hr

variable {group : Row .group}

/-- A request on a group leaves the members of all other groups alone. -/
theorem Spares.membersOf_of_ne (h : s.Spares owner .group id s') (hm : s.SparesGroups id s')
    (hgroup : group.id ≠ id) : s'.membersOf group = s.membersOf group := by
  have husers : s'.users = s.users := h.others .user (by decide)
  apply membersOf_congr (hm.filter_eq hgroup)
  intro m _ _
  rw [husers]

private theorem foreign_of_mem_membersOf (hs : s.TenantLocal) (hgroup : group ∈ s.groups.rows)
    (hcompany : group.company ≠ .integer owner.id) {m : Membership} (hm : m ∈ s.memberships)
    (hmgroup : m.group = group.id) : ∃ u ∈ s.users.rows, u.id = m.user ∧ u.company ≠ .integer owner.id := by
  obtain ⟨u, hu, huser, hucompany⟩ := hs.company_of_mem hm hgroup hmgroup.symm
  exact ⟨u, hu, huser, fun e => hcompany (hucompany.symm.trans e)⟩

/-- The users of other companies are found as before, and so are the members of their groups as long as the
memberships of these groups are the same. -/
theorem Spares.membersOf_foreign (h : s.Spares owner .user id s') (hs : s.TenantLocal)
    (hgroup : group ∈ s.groups.rows) (hcompany : group.company ≠ .integer owner.id)
    (hm : (s'.memberships.filter fun m => m.group == group.id) =
      s.memberships.filter fun m => m.group == group.id) : s'.membersOf group = s.membersOf group := by
  apply membersOf_congr hm
  intro m hm hmgroup
  obtain ⟨u, hu, huser, hucompany⟩ := foreign_of_mem_membersOf hs hgroup hcompany hm hmgroup
  apply h.find?_of_ne
  intro e
  exact hucompany (h.before u hu (huser.trans e))

/-- A row is deleted with its memberships. Of a group nothing else is; a user is taken out of all lists of
members, and what is left of them keeps its order. -/
structure Deletes (s : Store) (k : Kind) (r : Row k) (s' : Store) : Prop where
  rows : (s'.table k).rows = (s.table k).rows.filter fun x => x.id != r.id
  others : ∀ k', k' ≠ k → s'.table k' = s.table k'
  group : k = .group → s'.memberships = s.memberships.filter fun m => m.group != r.id
  user : k = .user → s'.memberships = s.memberships.filter fun m => m.user != r.id
  members : k = .user → ∀ g : Row .group, s'.membersOf g = (s.membersOf g).filter fun u => u.id != r.id

private theorem membersOf_erase_user (s : Store) (r : Row .user) (group : Row .group) :
    (s.erase .user r).membersOf group = (s.membersOf group).filter fun u => u.id != r.id := by
  have hmembers : (s.erase .user r).membersOf group =
      ((s.memberships.filter fun m => m.user != r.id).filter fun m => m.group == group.id).filterMap
        fun m => (s.users.erase r.id).find? m.user := rfl
  rw [hmembers, membersOf, List.filter_filter, List.filterMap_filter, List.filterMap_filter,
    List.filter_filterMap]
  congr 1
  funext m
  by_cases hgroup : m.group = group.id
  · by_cases huser : m.user = r.id
    · cases hfind : s.users.find? m.user with
      | none => simp [huser]
      | some u =>
        have hid : u.id = r.id := (Table.find?_eq_some_iff.1 hfind).2.trans huser
        simp [huser, hid, hgroup, Option.filter_some]
    · have hfind : (s.users.erase r.id).find? m.user = s.users.find? m.user :=
        find?_filter_of_ne s.users.rows huser
      cases hu : s.users.find? m.user with
      | none => simp [hfind, hu, hgroup]
      | some u =>
        have hid : u.id ≠ r.id := by
          rw [(Table.find?_eq_some_iff.1 hu).2]
          exact huser
        simp [hfind, hu, hgroup, huser, hid, Option.filter_some]
  · simp [hgroup]

theorem deletes_erase (s : Store) (r : Row k) : s.Deletes k r (s.erase k r) := by
  have hothers (k' : Kind) (hk : k' ≠ k) : (s.erase k r).table k' = s.table k' := s.table_erase_of_ne r hk
  cases k with
  | user => exact ⟨rfl, hothers, fun hk => (nomatch hk), fun _ => rfl, fun _ => membersOf_erase_user s r⟩
  | group => exact ⟨rfl, hothers, fun _ => rfl, fun hk => (nomatch hk), fun hk => (nomatch hk)⟩

/-- What is left by a request on a directory with a result. -/
structure Frame (s : Store) (owner : Company) (request : Request) (result : Except Failure Json) (s' : Store) :
    Prop where
  row : ∃ id, s.Spares owner request.kind id s' ∧
    (request.kind = .group → ∀ g : Row .group, g.id ≠ id → s'.membersOf g = s.membersOf g)
  users : request.kind = .group → s'.users = s.users
  memberships : request.kind = .user → (∀ identifier, request ≠ .delete .user identifier) →
    s'.memberships = s.memberships
  deletion : ∀ k identifier, request = .delete k identifier →
    (∃ e, result = .error e ∧ s' = s) ∨
      (result = .ok .null ∧ ∃ r ∈ s.owned k owner, r.uuid = identifier.text ∧ s.Deletes k r s')
  foreign : ∀ k, ((s'.table k).rows.filter fun r => r.company != .integer owner.id) =
    (s.table k).rows.filter fun r => r.company != .integer owner.id
  members : s.TenantLocal → ∀ g ∈ s.groups.rows, g.company ≠ .integer owner.id →
    s'.membersOf g = s.membersOf g

namespace Frame

variable {request : Request} {result : Except Failure Json}

theorem refl (s : Store) (owner : Company) (hresult : ∀ k identifier, request = .delete k identifier →
    ∃ e, result = .error e) : s.Frame owner request result s := by
  obtain ⟨id, hid⟩ := exists_unused (s.table request.kind)
  constructor
  · exact ⟨id, .refl fun r hr e => absurd e (hid r hr), fun _ _ _ => rfl⟩
  · exact fun _ => rfl
  · exact fun _ _ => rfl
  · intro k identifier hrequest
    obtain ⟨e, he⟩ := hresult k identifier hrequest
    exact .inl ⟨e, he, rfl⟩
  · exact fun _ => rfl
  · exact fun _ _ _ _ => rfl

theorem of_alters (h : s.Alters owner request.kind id s')
    (hrequest : ∀ k identifier, request ≠ .delete k identifier) : s.Frame owner request result s' := by
  have hspares := h.toSpares
  have hmemberships := h.user
  have hgroups := h.group
  generalize hk : request.kind = k at hspares hmemberships hgroups
  constructor
  · rw [hk]
    refine ⟨id, hspares, ?_⟩
    rintro rfl g hg
    exact hspares.membersOf_of_ne (hgroups rfl) hg
  · rw [hk]
    rintro rfl
    exact hspares.others .user (by decide)
  · rw [hk]
    exact fun hk _ => hmemberships hk
  · exact fun k identifier e => absurd e (hrequest k identifier)
  · exact hspares.foreign_rows
  · intro hs g hg hcompany
    cases k with
    | user =>
      apply hspares.membersOf_foreign hs hg hcompany
      rw [hmemberships rfl]
    | group =>
      apply hspares.membersOf_of_ne (hgroups rfl)
      intro e
      exact hcompany (hspares.before g hg e)

theorem of_erase {r : Row k} (hr : r ∈ s.owned k owner) {identifier : Json} (huuid : r.uuid = identifier.text) :
    s.Frame owner (.delete k identifier) (.ok .null) (s.erase k r) := by
  have hspares : s.Spares owner k r.id (s.erase k r) := .of_erase hr
  have hdeletes := s.deletes_erase r
  have hgroups : k = .group → s.SparesGroups r.id (s.erase k r) := by
    intro hk
    rw [SparesGroups, hdeletes.group hk, List.filter_filter]
    simp
  constructor
  · refine ⟨r.id, hspares, ?_⟩
    intro hk g hg
    change k = .group at hk
    subst hk
    exact hspares.membersOf_of_ne (hgroups rfl) hg
  · intro hk
    change k = .group at hk
    subst hk
    exact hspares.others .user (by decide)
  · intro hk hdelete
    change k = .user at hk
    subst hk
    exact absurd rfl (hdelete identifier)
  · rintro k' identifier' ⟨⟩
    exact .inr ⟨rfl, r, hr, huuid, hdeletes⟩
  · exact hspares.foreign_rows
  · intro hs g hg hcompany
    cases k with
    | user =>
      apply hspares.membersOf_foreign hs hg hcompany
      rw [hdeletes.user rfl, List.filter_filter]
      refine List.filter_congr fun m hm => ?_
      by_cases hmgroup : m.group = g.id
      · -- The members of the group are users of another company, so that it loses none.
        obtain ⟨u, hu, huser, hucompany⟩ := foreign_of_mem_membersOf hs hg hcompany hm hmgroup
        have hne : m.user ≠ r.id := fun e => hucompany (hspares.before u hu (huser.trans e))
        simp [hne]
      · simp [hmgroup]
    | group =>
      apply hspares.membersOf_of_ne (hgroups rfl)
      intro e
      exact hcompany (hspares.before g hg e)

end Frame

end Store

open Store in
private theorem frame_answer {ctx : Context} (h : ctx.config.IsStandard) (d : Directory) (owner : Company)
    (pager : Pager) (request : Request) :
    d.store.Frame owner request (d.answer ctx owner pager request).1 (d.answer ctx owner pager request).2.store := by
  cases request with
  | list k filter start count => exact .refl _ _ fun _ _ e => by cases e
  | «show» k identifier => exact .refl _ _ fun _ _ e => by cases e
  | create k payload =>
    change d.store.Frame _ _ _ (d.store.leftBy (d.store.created ctx owner k (Uuid.numbered (d.drawn + 1)) payload))
    cases hc : d.store.created ctx owner k (Uuid.numbered (d.drawn + 1)) payload with
    | error e => exact .refl _ _ fun _ _ e => by cases e
    | ok p => exact .of_alters (alters_of_created h hc) fun _ _ e => by cases e
  | replace k identifier payload =>
    change d.store.Frame _ _ _ (d.store.leftBy (d.store.replaced ctx owner k identifier payload))
    cases hc : d.store.replaced ctx owner k identifier payload with
    | error e => exact .refl _ _ fun _ _ e => by cases e
    | ok p => exact .of_alters (alters_of_replaced h hc) fun _ _ e => by cases e
  | patch k identifier operations =>
    change d.store.Frame _ _ _ (d.patched ctx owner k identifier operations).2.store
    rw [Directory.patched]
    cases hget : d.store.get ctx.config k owner identifier with
    | error e => exact .refl _ _ fun _ _ e => by cases e
    | ok r =>
      have hmem := mem_owned_of_get h hget
      have halters := (Alters.of_mem hmem).patched h hmem rfl operations
      dsimp only
      split
      · exact .of_alters halters fun _ _ e => by cases e
      · exact .refl _ _ fun _ _ e => by cases e
  | delete k identifier =>
    change d.store.Frame _ _ ((d.store.deleted ctx.config owner k identifier).map fun _ => .null)
      (d.store.leftBy (d.store.deleted ctx.config owner k identifier))
    rw [deleted]
    cases hget : d.store.get ctx.config k owner identifier with
    | error e => exact .refl _ _ fun _ _ _ => ⟨e, rfl⟩
    | ok r =>
      obtain ⟨-, hmem, huuid⟩ := (d.store.get_eq_ok h owner).1 hget
      exact .of_erase hmem huuid

/-- Requests change no companies. -/
theorem Directory.companies_perform {ctx : Context} (h : ctx.config.IsStandard) (d : Directory) (owner : Company)
    (request : Request) : (d.perform ctx owner request).directory.store.companies = d.store.companies := by
  rcases Directory.perform_cases h d owner request with ⟨-, -, -, hdirectory⟩ | ⟨pager, -, -, hdirectory⟩
  · rw [hdirectory]
  · obtain ⟨id, hspares, -⟩ := (frame_answer h d owner pager request).row
    rw [hdirectory]
    exact hspares.companies

/-- Whatever comes of a request, one row at most is inserted, changed or deleted, a row of the company that
makes it, and nothing is changed that belongs to others. -/
theorem frame_perform {s : Settings} {c : Config} (hb : Config.build s = .ok c)
    (hs : s.customUserAttributes = []) (clock : Nat) (d : Directory) (owner : Company) (request : Request) :
    d.store.Frame owner request (d.perform ⟨c, clock⟩ owner request).result
      (d.perform ⟨c, clock⟩ owner request).directory.store := by
  have h : (Context.mk c clock).config.IsStandard := Config.isStandard_of_build hb hs
  rcases Directory.perform_cases h d owner request with ⟨e, -, hresult, hdirectory⟩ | ⟨pager, -, hresult, hdirectory⟩
  · rw [hresult, hdirectory]
    exact .refl _ _ fun _ _ _ => ⟨_, rfl⟩
  · rw [hresult, hdirectory]
    exact frame_answer h d owner pager request

private theorem tenantLocal_sample : Sample.store.TenantLocal := by
  intro m hm
  rw [List.mem_singleton.1 hm]
  exact ⟨Sample.staff, List.mem_singleton_self _, Sample.ada, List.mem_cons_self, rfl, rfl, rfl⟩

/-- A user that is deleted leaves the only group that it is in, and the user of the other company stays. Where
this one is to be deleted by the first company, nothing is. -/
theorem frame_perform_sample :
    ((Sample.directory.perform ⟨Sample.config true, 7⟩ Sample.acme (.delete .user (.str "u1"))).directory.store.membersOf
        Sample.staff = [] ∧
      ((Sample.directory.perform ⟨Sample.config true, 7⟩ Sample.acme
        (.delete .user (.str "u1"))).directory.store.users.rows.filter fun r => r.company != .integer 1) = [Sample.eve]) ∧
    (Sample.directory.perform ⟨Sample.config true, 7⟩ Sample.other
      (.delete .user (.str "u1"))).directory.store.membersOf Sample.staff = [Sample.ada] := by
  constructor
  · have hframe := frame_perform (Sample.build_config true) rfl 7 Sample.directory Sample.acme
      (.delete .user (.str "u1"))
    have hok : (Sample.directory.perform ⟨Sample.config true, 7⟩ Sample.acme
        (.delete .user (.str "u1"))).result.isOk = true := by decide +kernel
    rcases hframe.deletion .user (.str "u1") rfl with ⟨e, he, -⟩ | ⟨-, r, hr, huuid, hdeletes⟩
    · rw [he] at hok
      cases hok
    · have hada : r = Sample.ada :=
        Table.eq_of_uuid (t := Sample.store.users) (Store.mem_rows_of_owned hr) List.mem_cons_self huuid
      refine ⟨?_, hframe.foreign .user⟩
      rw [hdeletes.members rfl, hada]
      rfl
  · have hframe := frame_perform (Sample.build_config true) rfl 7 Sample.directory Sample.other
      (.delete .user (.str "u1"))
    exact hframe.members tenantLocal_sample Sample.staff List.mem_cons_self (by decide)

end Roster
