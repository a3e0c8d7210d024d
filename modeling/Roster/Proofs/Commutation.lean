import Roster.Proofs.Footprint
import Roster.Proofs.Frame
import Roster.Proofs.Runs
import Roster.Proofs.Sample

/-!
Edits of different resources.

An edit rewrites one row and, if this is the row of a group, changes the memberships of this group; nothing else in
the store is another one. So two edits of which one is of a group leave what the other reads as it is, as long as
they are not of the same group, and whichever comes first, each is answered as it would be alone.
-/

set_option autoImplicit false

namespace Roster

variable {k k' : Kind} {s s' s'' : Store} {r r' r'' : Row k}

namespace Store

/-! ## What an edit changes -/

/-- The row of a resource is rewritten. If it is a group its memberships may be others; everything else is the
same. -/
structure Revises (s : Store) (r r' : Row k) (s' : Store) : Prop where
  rewrites : s.Rewrites r r' { s' with memberships := s.memberships }
  user : k = .user → s'.memberships = s.memberships
  group : k = .group → s.SparesGroups r.id s'

namespace Revises

theorem of_rewrites (h : s.Rewrites r r' s') : s.Revises r r' s' := by
  have hmemberships := h.memberships
  constructor
  · rw [← hmemberships]
    exact h
  · intro _
    exact hmemberships
  · intro _
    rw [SparesGroups, hmemberships]

theorem of_memberships {group : Row .group} (hgroup : group ∈ s.groups.rows) {memberships : List Membership}
    (h : s.SparesGroups group.id { s with memberships }) : s.Revises group group { s with memberships } :=
  ⟨.refl hgroup, nofun, fun _ => h⟩

theorem refl (hr : r ∈ (s.table k).rows) : s.Revises r r s :=
  of_rewrites (.refl hr)

theorem trans (h : s.Revises r r' s') (h' : s'.Revises r' r'' s'') : s.Revises r r'' s'' := by
  constructor
  · exact h.rewrites.trans (h'.rewrites.withMemberships s.memberships)
  · intro hk
    rw [h'.user hk, h.user hk]
  · intro hk
    have hspares := h'.group hk
    rw [h.rewrites.id] at hspares
    exact hspares.trans (h.group hk)

theorem of_patches {owner : Company} (h : s.Patches owner k r r' s') : s.Revises r r' s' := by
  cases h with
  | attributes hw => exact of_rewrites hw
  | members hgroup hchanges =>
    have hspares := SparesGroups.of_changesMembers hchanges
    rw [hchanges.eq] at hspares ⊢
    exact of_memberships hgroup hspares

theorem withMembers (hr : r ∈ (s.table k).rows) (clock : Nat) (users : List (Row .user)) :
    s.Revises r r (s.withMembers clock users k r) := by
  cases k with
  | user => exact refl hr
  | group =>
    have hspares : s.SparesGroups r.id (s.withMembers clock users .group r) :=
      (others_addMembers _ clock r users).trans (others_clearMembers s r)
    rw [Store.withMembers, addMembers_eq] at hspares ⊢
    exact of_memberships hr hspares

section Parts

variable (h : s.Revises r r' s')

include h

theorem companies : s'.companies = s.companies := by
  obtain ⟨t, ht, -⟩ := h.rewrites.store
  have hcompanies := congrArg Store.companies ht
  rw [companies_withTable] at hcompanies
  exact hcompanies

theorem rows : (s'.table k).rows = (s.table k).overwritten r' := by
  have hrows := h.rewrites.rows
  cases k with
  | user => exact hrows
  | group => exact hrows

theorem others (hk : k' ≠ k) : s'.table k' = s.table k' := by
  obtain ⟨t, ht, -⟩ := h.rewrites.store
  have htable : ({ s' with memberships := s.memberships } : Store).table k' = s.table k' := by
    rw [ht, table_withTable_of_ne s t hk]
  cases k' with
  | user => exact htable
  | group => exact htable

theorem mem : r' ∈ (s'.table k).rows := by
  rw [h.rows]
  exact List.mem_map.2 ⟨r, h.rewrites.mem, if_pos h.rewrites.id.symm⟩

/-- No row comes or goes, or passes to another company. -/
theorem bare (k' : Kind) : (s'.table k').rows.map Row.bare = (s.table k').rows.map Row.bare := by
  by_cases hk : k' = k
  · subst hk
    rw [h.rows, Table.overwritten, List.map_map]
    refine List.map_congr_left fun x hx => ?_
    rw [Function.comp_apply]
    split
    next hid =>
      have hxr : x = r := Table.eq_of_id hx h.rewrites.mem (hid.trans h.rewrites.id)
      rw [Row.bare, Row.bare, hxr, h.rewrites.id, h.rewrites.uuid, h.rewrites.company]
    next => rfl
  · rw [h.others hk]

theorem memberships_of_ne (id : Int) (hid : k = .group → id ≠ r.id) :
    (s'.memberships.filter fun m => m.group == id) = s.memberships.filter fun m => m.group == id := by
  cases k with
  | user => rw [h.user rfl]
  | group => exact (h.group rfl).filter_eq (hid rfl)

/-- An edit of a group, or of anything when the other resource is a group, leaves what an edit of this resource
reads. -/
theorem sameFor {x : Row k'} (hx : x ∈ (s.table k').rows) (hne : k' = k → x.id ≠ r.id)
    (hgroup : k = .group ∨ k' = .group) : s.SameFor x s' := by
  constructor
  · exact hx
  · by_cases hk : k' = k
    · subst hk
      rw [h.rows]
      refine List.mem_map.2 ⟨x, hx, if_neg ?_⟩
      rw [h.rewrites.id]
      exact hne rfl
    · rw [h.others hk]
      exact hx
  · exact (h.bare .user).symm
  · rintro rfl
    have hk : Kind.user ≠ k := by
      rintro rfl
      simp at hgroup
    exact h.others hk
  · rintro rfl
    apply h.memberships_of_ne
    rintro rfl
    exact hne rfl

end Parts

theorem users_eq {g g' : Row .group} (h : s.Revises g g' s') : s'.users = s.users :=
  h.others (by decide : Kind.user ≠ .group)

theorem groups_eq {u u' : Row .user} (h : s.Revises u u' s') : s'.groups = s.groups :=
  h.others (by decide : Kind.group ≠ .user)

end Revises

section Standard

variable {ctx : Context} (hc : ctx.config.IsStandard) (owner : Company)

include hc

theorem exists_revises_patched (hr : r ∈ (s.table k).rows) (operations : List PatchOperation) :
    ∃ r', s.Revises r r' (s.patched ctx owner r operations).2 := by
  induction operations generalizing s r with
  | nil => exact ⟨r, .refl hr⟩
  | cons o rest ih =>
    rw [patched]
    cases he : Step.effect (applyOperation ctx owner k r o) s with
    | error e => exact ⟨r, .refl hr⟩
    | ok p =>
      have hstep : s.Revises r p.1 p.2 := .of_patches (.of_applyOperation hc hr he)
      obtain ⟨r', hrest⟩ := ih hstep.mem
      exact ⟨r', hstep.trans hrest⟩

/-- Operations that all succeed end with the row that has come of them. -/
theorem Revises.of_patched (hr : r ∈ (s.table k).rows) {operations : List PatchOperation}
    (hpatched : s.patched ctx owner r operations = (.ok r', s')) : s.Revises r r' s' := by
  induction operations generalizing s r with
  | nil =>
    cases hpatched
    exact .refl hr
  | cons o rest ih =>
    rw [patched] at hpatched
    cases he : Step.effect (applyOperation ctx owner k r o) s with
    | error e =>
      rw [he] at hpatched
      cases hpatched
    | ok p =>
      rw [he] at hpatched
      have hstep : s.Revises r p.1 p.2 := .of_patches (.of_applyOperation hc hr he)
      exact hstep.trans (ih hstep.mem hpatched)

theorem Revises.of_rewritten (hr : r ∈ (s.table k).rows) {payload : Json}
    (hrewritten : s.rewritten ctx owner r payload = .ok (r', s')) : s.Revises r r' s' := by
  obtain ⟨users, t, -, hw, rfl⟩ := rewrites_of_rewritten hc hr hrewritten
  exact (of_rewrites hw).trans (.withMembers hw.mem_new ctx.clock users)

/-- Whatever comes of an edit, it has changed nothing but its resource. -/
theorem exists_revises_edited (hr : r ∈ (s.table k).rows) (e : Edit) :
    ∃ r', s.Revises r r' (s.edited ctx owner r e).2 := by
  cases e with
  | replace payload =>
    rw [edited]
    cases hrewritten : s.rewritten ctx owner r payload with
    | error e => exact ⟨r, .refl hr⟩
    | ok p =>
      exact ⟨p.1, .of_rewritten hc owner hr hrewritten⟩
  | patch operations =>
    rw [edited]
    dsimp only
    split
    · exact exists_revises_patched hc owner hr operations
    · exact ⟨r, .refl hr⟩

end Standard

/-! ## What an edit finds -/

section Found

variable {c : Config} (hc : c.IsStandard) {owner : Company} {identifier : Json}

include hc

theorem SameFor.found (h : s.SameFor r s') (hfound : s.found c owner k identifier = .ok r) :
    s'.found c owner k identifier = .ok r := by
  obtain ⟨hserve, hget⟩ := found_eq_ok.1 hfound
  obtain ⟨hplain, hmem, huuid⟩ := (s.get_eq_ok hc owner).1 hget
  have hmem' : r ∈ s'.owned k owner := mem_owned.2 ⟨h.right, (mem_owned.1 hmem).2⟩
  exact found_eq_ok.2 ⟨hserve, (s'.get_eq_ok hc owner).2 ⟨hplain, hmem', huuid⟩⟩

/-- What is not found is not found after an edit either. -/
theorem Revises.found_error (h : s.Revises r r' s') {failure : Failure}
    (hfound : s.found c owner k' identifier = .error failure) :
    s'.found c owner k' identifier = .error failure := by
  have howned (s : Store) : (s.owned k' owner).map Row.bare =
      ((s.table k').rows.map Row.bare).filter fun x => x.company == .integer owner.id := by
    rw [List.filter_map]
    rfl
  have hget : (s'.get c k' owner identifier).map Row.bare = (s.get c k' owner identifier).map Row.bare := by
    cases htorn : identifier.isTorn with
    | true => rw [s.get_torn hc owner htorn, s'.get_torn hc owner htorn]
    | false =>
      rw [s.get_eq hc owner htorn, s'.get_eq hc owner htorn, ← named_map Row.bare fun _ => rfl,
        ← named_map Row.bare fun _ => rfl, howned s, howned s', h.bare]
  rw [Store.found] at hfound ⊢
  cases hserve : c.serve k' with
  | error e =>
    rw [hserve] at hfound
    exact hfound
  | ok pager =>
    rw [hserve] at hfound
    change s.get c k' owner identifier = .error failure at hfound
    change s'.get c k' owner identifier = .error failure
    rw [hfound] at hget
    cases hget' : s'.get c k' owner identifier with
    | error e =>
      rw [hget'] at hget
      cases hget
      rfl
    | ok x =>
      rw [hget'] at hget
      cases hget

end Found

/-! ## Two edits -/

/-- Rows with different numbers can be overwritten in any order. -/
theorem overwritten_comm {t a b ab ba : Table k} {x y : Row k} (hne : x.id ≠ y.id) (ha : a.rows = t.overwritten x)
    (hab : ab.rows = a.overwritten y) (hb : b.rows = t.overwritten y) (hba : ba.rows = b.overwritten x) :
    ba = ab := by
  apply Table.eq_of_rows
  rw [hab, hba, Table.overwritten, Table.overwritten, ha, hb, Table.overwritten, Table.overwritten, List.map_map,
    List.map_map]
  refine List.map_congr_left fun z _ => ?_
  simp only [Function.comp_apply]
  by_cases hx : z.id = x.id
  · have hy : z.id ≠ y.id := by
      rw [hx]
      exact hne
    simp [hx, hne]
  · by_cases hy : z.id = y.id
    · simp [hy, hne.symm]
    · simp [hx, hy]

/-- What is read of a row is the row that an edit has made. -/
theorem Revises.eq_of_sameFor {a b : Store} {x : Row k} (hid : x.id = r.id) (h : s.Revises r r' a)
    (h' : s'.Revises r r'' b) (hsame : a.SameFor x b) : x = r' ∧ x = r'' := by
  constructor
  · exact Table.eq_of_id hsame.left h.mem (hid.trans h.rewrites.id.symm)
  · exact Table.eq_of_id hsame.right h'.mem (hid.trans h'.rewrites.id.symm)

/-- A group and another resource are edited in both orders: in `ab` the group first, in `ba` the group last. Each edit
makes of its resource what it makes of it in the other order. -/
theorem equivalent_of_revises {g g₁ g₂ : Row .group} {r₁ r₂ : Row k} {a b ab ba : Store} (ha : s.Revises g g₁ a)
    (hab : a.Revises r r₂ ab) (hb : s.Revises r r₁ b) (hba : b.Revises g g₂ ba) {x : Row .group} {y : Row k}
    (hx : x.id = g.id) (hy : y.id = r.id) (hxs : a.SameFor x ba) (hys : b.SameFor y ab)
    (hne : k = .group → r.id ≠ g.id) : ba.Equivalent ab := by
  obtain ⟨rfl, rfl⟩ := ha.eq_of_sameFor hx hba hxs
  obtain ⟨rfl, rfl⟩ := hb.eq_of_sameFor hy hab hys
  constructor
  · rw [hab.companies, ha.companies, hba.companies, hb.companies]
  · cases k with
    | user => rw [hba.users_eq, hys.user rfl]
    | group => rw [hab.users_eq, ha.users_eq, hba.users_eq, hb.users_eq]
  · cases k with
    | user =>
      have harows : a.groups.rows = s.groups.overwritten x := ha.rows
      have hbarows : ba.groups.rows = b.groups.overwritten x := hba.rows
      apply Table.eq_of_rows
      rw [hab.groups_eq, harows, hbarows, hb.groups_eq]
    | group =>
      have hids : x.id ≠ y.id := by
        rw [hx, hy]
        exact (hne rfl).symm
      exact (overwritten_comm hids ha.rows hab.rows hb.rows hba.rows).symm
  · intro id
    by_cases hid : id = g.id
    · have hgroup := hxs.group rfl
      rw [hx, ← hid] at hgroup
      rw [hgroup]
      apply hab.memberships_of_ne
      intro hk
      rw [hid]
      exact (hne hk).symm
    · rw [hba.memberships_of_ne id fun _ => hid]
      by_cases hk : k = .group ∧ id = r.id
      · obtain ⟨rfl, rfl⟩ := hk
        have hgroup := hys.group rfl
        rw [hy] at hgroup
        exact hgroup
      · have hother : k = .group → id ≠ r.id := fun e hid => hk ⟨e, hid⟩
        rw [hab.memberships_of_ne id hother, ha.memberships_of_ne id fun _ => hid, hb.memberships_of_ne id hother]

section Attempts

variable {ctx ctx' : Context} (hc : ctx.config.IsStandard) (hc' : ctx'.config.IsStandard) {owner owner' : Company}
  {identifier identifier' : Json}

include hc hc'

/-- Both resources are found. -/
private theorem attempted_comm_of_found {g : Row .group} {r : Row k}
    (hg : s.found ctx.config owner .group identifier = .ok g) (hr : s.found ctx'.config owner' k identifier' = .ok r)
    (hne : k = .group → r.id ≠ g.id) (e e' : Edit) :
    ((s.attempted ctx owner .group identifier e).2.attempted ctx' owner' k identifier' e').1 =
        (s.attempted ctx' owner' k identifier' e').1 ∧
      ((s.attempted ctx' owner' k identifier' e').2.attempted ctx owner .group identifier e).1 =
        (s.attempted ctx owner .group identifier e).1 ∧
      ((s.attempted ctx' owner' k identifier' e').2.attempted ctx owner .group identifier e).2.Equivalent
        ((s.attempted ctx owner .group identifier e).2.attempted ctx' owner' k identifier' e').2 := by
  have hgmem : g ∈ (s.table .group).rows := mem_rows_of_owned (mem_owned_of_get hc (found_eq_ok.1 hg).2)
  have hrmem : r ∈ (s.table k).rows := mem_rows_of_owned (mem_owned_of_get hc' (found_eq_ok.1 hr).2)
  obtain ⟨g₁, ha⟩ := exists_revises_edited hc owner hgmem e
  obtain ⟨r₁, hb⟩ := exists_revises_edited hc' owner' hrmem e'
  rw [attempted_of_ok hg, attempted_of_ok hr]
  dsimp only
  have hrsame : s.SameFor r (s.edited ctx owner g e).2 := ha.sameFor hrmem hne (.inl rfl)
  have hgsame : s.SameFor g (s.edited ctx' owner' r e').2 := by
    apply hb.sameFor hgmem _ (.inr rfl)
    rintro rfl
    exact (hne rfl).symm
  rw [attempted_of_ok (hrsame.found hc' hr), attempted_of_ok (hgsame.found hc hg)]
  refine ⟨hrsame.answered hc' owner' e', hgsame.answered hc owner e, ?_⟩
  obtain ⟨-, x, hx, hxs, -⟩ := hgsame.edited hc owner e
  obtain ⟨-, y, hy, hys, -⟩ := hrsame.edited hc' owner' e'
  obtain ⟨r₂, hab⟩ := exists_revises_edited hc' owner' hrsame.right e'
  obtain ⟨g₂, hba⟩ := exists_revises_edited hc owner hgsame.right e
  exact equivalent_of_revises ha hab hb hba hx hy hxs hys hne

/-- Whether the resources are found or not, two requests come to the same in both orders. -/
theorem attempted_comm (hother : k = .group → ∀ g, s.get ctx.config .group owner identifier = .ok g →
      s.get ctx'.config .group owner' identifier' ≠ .ok g) (e e' : Edit) :
    ((s.attempted ctx owner .group identifier e).2.attempted ctx' owner' k identifier' e').1 =
        (s.attempted ctx' owner' k identifier' e').1 ∧
      ((s.attempted ctx' owner' k identifier' e').2.attempted ctx owner .group identifier e).1 =
        (s.attempted ctx owner .group identifier e).1 ∧
      ((s.attempted ctx' owner' k identifier' e').2.attempted ctx owner .group identifier e).2.Equivalent
        ((s.attempted ctx owner .group identifier e).2.attempted ctx' owner' k identifier' e').2 := by
  cases hg : s.found ctx.config owner .group identifier with
  | error failure =>
    cases hr : s.found ctx'.config owner' k identifier' with
    | error failure' =>
      rw [attempted_of_error hg, attempted_of_error hr, attempted_of_error hg]
      exact ⟨rfl, rfl, .refl s⟩
    | ok r =>
      have hrmem : r ∈ (s.table k).rows := mem_rows_of_owned (mem_owned_of_get hc' (found_eq_ok.1 hr).2)
      obtain ⟨r₁, hb⟩ := exists_revises_edited hc' owner' hrmem e'
      have hgagain := hb.found_error hc hg
      rw [attempted_of_error hg, attempted_of_ok hr]
      dsimp only
      rw [attempted_of_error hgagain]
      exact ⟨rfl, rfl, .refl _⟩
  | ok g =>
    have hgmem : g ∈ (s.table .group).rows := mem_rows_of_owned (mem_owned_of_get hc (found_eq_ok.1 hg).2)
    cases hr : s.found ctx'.config owner' k identifier' with
    | error failure' =>
      obtain ⟨g₁, ha⟩ := exists_revises_edited hc owner hgmem e
      have hragain := ha.found_error hc' hr
      rw [attempted_of_ok hg, attempted_of_error hr, attempted_of_ok hg]
      dsimp only
      rw [attempted_of_error hragain]
      exact ⟨rfl, rfl, .refl _⟩
    | ok r =>
      apply attempted_comm_of_found hc hc' hg hr
      rintro rfl hid
      have hrget := (found_eq_ok.1 hr).2
      have hrmem : r ∈ (s.table .group).rows := mem_rows_of_owned (mem_owned_of_get hc' hrget)
      have hsame : r = g := Table.eq_of_id hrmem hgmem hid
      rw [hsame] at hrget
      exact hother rfl g (found_eq_ok.1 hg).2 hrget

end Attempts

end Store

/-- Two requests that edit resources, one of them a group and the other one another group or a user, whatever they
come to and whoever sends them: each is answered the same whichever comes first, and they leave the same. -/
theorem edits_commute {s : Settings} {c : Config} (hb : Config.build s = .ok c) (hs : s.customUserAttributes = [])
    (d : Directory) (clock clock' : Nat) (owner owner' : Company) (identifier identifier' : Json) (e e' : Edit)
    (hother : k = .group → ∀ g, d.store.get c .group owner identifier = .ok g →
      d.store.get c .group owner' identifier' ≠ .ok g) :
    ∃ answer answer',
      d.results c [⟨clock, owner, e.request .group identifier⟩, ⟨clock', owner', e'.request k identifier'⟩] =
          [answer, answer'] ∧
        d.results c [⟨clock', owner', e'.request k identifier'⟩, ⟨clock, owner, e.request .group identifier⟩] =
          [answer', answer] ∧
        (d.after c [⟨clock, owner, e.request .group identifier⟩, ⟨clock', owner', e'.request k identifier'⟩]).Equivalent
          (d.after c [⟨clock', owner', e'.request k identifier'⟩, ⟨clock, owner, e.request .group identifier⟩]) := by
  have hc : (Context.mk c clock).config.IsStandard := Config.isStandard_of_build hb hs
  have hc' : (Context.mk c clock').config.IsStandard := hc
  obtain ⟨hsecond, hfirst, hleft⟩ := Store.attempted_comm hc hc' hother e e'
  refine ⟨(d.store.attempted ⟨c, clock⟩ owner .group identifier e).1,
    (d.store.attempted ⟨c, clock'⟩ owner' k identifier' e').1, ?_, ?_, ?_⟩
  · simp only [Directory.results, Directory.afterCall]
    rw [Directory.directory_edit hc, Directory.result_edit hc, Directory.result_edit hc', hsecond]
  · simp only [Directory.results, Directory.afterCall]
    rw [Directory.directory_edit hc', Directory.result_edit hc', Directory.result_edit hc, hfirst]
  · simp only [Directory.after, List.foldl_cons, List.foldl_nil, Directory.afterCall]
    rw [Directory.directory_edit hc, Directory.directory_edit hc', Directory.directory_edit hc',
      Directory.directory_edit hc]
    exact ⟨hleft.symm, rfl, rfl⟩

/-- The company has a second group, without members. -/
private def twoGroups : Directory where
  store := { Sample.store with
    groups := ⟨[Sample.staff, ⟨2, "g2", .integer 1, .group "Crew" "crew@acme.example", none, 0, 0⟩], by decide,
      by decide⟩ }
  drawn := 4
  kept := []

/-- Makes the second user of the company a member. -/
private def hiring : Edit :=
  .patch [⟨"add", some "members", some (.arr [.obj [("value", .str "u2")]])⟩]

/-- Two groups take up the same user. Their memberships come in the order of the requests, and nothing else tells the
two orders from each other. -/
theorem edits_commute_sample :
    ((twoGroups.after (Sample.config true) [⟨5, Sample.acme, hiring.request .group (.str "g1")⟩,
          ⟨7, Sample.acme, hiring.request .group (.str "g2")⟩]).store.memberships =
          [⟨1, 1, 0⟩, ⟨1, 2, 5⟩, ⟨2, 2, 7⟩] ∧
        (twoGroups.after (Sample.config true) [⟨7, Sample.acme, hiring.request .group (.str "g2")⟩,
          ⟨5, Sample.acme, hiring.request .group (.str "g1")⟩]).store.memberships =
          [⟨1, 1, 0⟩, ⟨2, 2, 7⟩, ⟨1, 2, 5⟩]) ∧
      (twoGroups.after (Sample.config true) [⟨5, Sample.acme, hiring.request .group (.str "g1")⟩,
          ⟨7, Sample.acme, hiring.request .group (.str "g2")⟩]).Equivalent
        (twoGroups.after (Sample.config true) [⟨7, Sample.acme, hiring.request .group (.str "g2")⟩,
          ⟨5, Sample.acme, hiring.request .group (.str "g1")⟩]) := by
  refine ⟨by decide +kernel, ?_⟩
  have h : (Sample.config true).IsStandard := Config.isStandard_of_build (Sample.build_config true) rfl
  have hother (g : Row .group) (hg : twoGroups.store.get (Sample.config true) .group Sample.acme (.str "g1") = .ok g) :
      twoGroups.store.get (Sample.config true) .group Sample.acme (.str "g2") ≠ .ok g := by
    intro hg'
    have hfirst : g.uuid = "g1" := ((twoGroups.store.get_eq_ok h Sample.acme).1 hg).2.2
    have hsecond : g.uuid = "g2" := ((twoGroups.store.get_eq_ok h Sample.acme).1 hg').2.2
    rw [hfirst] at hsecond
    exact absurd hsecond (by decide)
  obtain ⟨answer, answer', -, -, hleft⟩ := edits_commute (Sample.build_config true) rfl twoGroups 5 7 Sample.acme
    Sample.acme (.str "g1") (.str "g2") hiring hiring fun _ => hother
  exact hleft

end Roster
