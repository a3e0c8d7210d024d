import Roster.Proofs.Renumbering

/-!
Writing into stores that agree.

What a company writes into one of two stores that agree on it, it can write into the other as well, and they
agree on it afterwards. A new row takes the number after the last one in each store, so that it is the last of
the rows of its company in both.
-/

set_option autoImplicit false

namespace Roster

open Step

variable {k : Kind}

namespace Table

/-- As long as there are numbers left, the next one comes after all others. -/
theorem nextId_eq {t : Table k} (hroom : ∀ r ∈ t.rows, r.id + 1 ≤ Number.maxInt64) :
    (∀ r ∈ t.rows, r.id < t.nextId) ∧ (t.nextId = 1 ∨ ∃ r ∈ t.rows, t.nextId = r.id + 1) := by
  cases hlast : t.rows.getLast? with
  | none =>
    have hnumber : numberAfter t.rows = 1 := by rw [numberAfter, hlast]
    have hnext : t.nextId = 1 := by
      rw [nextId, hnumber]
      rfl
    refine ⟨?_, .inl hnext⟩
    rw [List.getLast?_eq_none_iff.1 hlast]
    exact fun _ hr => absurd hr List.not_mem_nil
  | some last =>
    have hmem : last ∈ t.rows := List.mem_of_getLast? hlast
    have hnumber : numberAfter t.rows = last.id + 1 := by rw [numberAfter, hlast]
    have hnext : t.nextId = last.id + 1 := by rw [nextId, hnumber, if_pos (hroom last hmem)]
    refine ⟨fun r hr => ?_, .inr ⟨last, hmem, hnext⟩⟩
    have := id_le_of_getLast? t.ordered hlast r hr
    omega

end Table

namespace Store

/-- There are numbers left for some new rows. -/
def HasRoom (s : Store) (n : Nat) : Prop :=
  n ≤ Number.maxInt64 ∧ ∀ k, ∀ r ∈ (s.table k).rows, r.id + n ≤ Number.maxInt64

/-- No row of another company has an identifier that is still to be drawn. -/
def LeavesFresh (s : Store) (owner : Company) (drawn : Nat) : Prop :=
  ∀ k, ∀ r ∈ (s.table k).rows, r.company ≠ .integer owner.id → ∀ m, drawn < m → r.uuid ≠ Uuid.numbered m

/-- A store admits some new rows of a company: memberships stay within companies, the identifiers that are still
to be drawn are fresh, and there are numbers left. -/
structure Admits (owner : Company) (drawn n : Nat) (s : Store) : Prop where
  tenantLocal : s.TenantLocal
  fresh : s.LeavesFresh owner drawn
  room : s.HasRoom n

/-- Two stores that admit some new rows of a company agree on it. -/
structure Mirrors (f : Renumbering) (owner : Company) (drawn n : Nat) (s s' : Store) : Prop
    extends Renumbers f owner s s' where
  left : s.Admits owner drawn n
  right : s'.Admits owner drawn n

/-- A row of a company in a store, and the same row in a store that agrees on the company. -/
structure Twins (f : Renumbering) (owner : Company) (drawn n : Nat) (p p' : Row k × Store) : Prop where
  stores : Mirrors f owner drawn n p.2 p'.2
  mem : p.1 ∈ p.2.owned k owner
  row : p'.1 = p.1.renumber f

variable {s s' s₁ s₁' : Store} {owner : Company} {f : Renumbering} {drawn drawn' n n' : Nat}

/-- All rows are rows that were there before, or rows of the company with small enough numbers. -/
theorem Admits.of_rows (hs : s.Admits owner drawn n) (hlocal : s₁.TenantLocal)
    (hrows : ∀ k, ∀ r ∈ (s₁.table k).rows,
      r ∈ (s.table k).rows ∨ r.company = .integer owner.id ∧ r.id + n' ≤ Number.maxInt64)
    (hdrawn : drawn ≤ drawn') (hn : n' ≤ n) : s₁.Admits owner drawn' n' := by
  refine ⟨hlocal, ?_, ?_, ?_⟩
  · intro k r hr hcompany m hm
    rcases hrows k r hr with hr | ⟨hown, -⟩
    · exact hs.fresh k r hr hcompany m (by omega)
    · exact absurd hown hcompany
  · have := hs.room.1
    omega
  · intro k r hr
    rcases hrows k r hr with hr | ⟨-, hid⟩
    · have := hs.room.2 k r hr
      omega
    · exact hid

theorem Admits.mono (hs : s.Admits owner drawn n) (hdrawn : drawn ≤ drawn') (hn : n' ≤ n) :
    s.Admits owner drawn' n' :=
  hs.of_rows hs.tenantLocal (fun _ _ hr => .inl hr) hdrawn hn

theorem Mirrors.mono (h : Mirrors f owner drawn n s s') (hdrawn : drawn ≤ drawn') (hn : n' ≤ n) :
    Mirrors f owner drawn' n' s s' :=
  ⟨h.toRenumbers, h.left.mono hdrawn hn, h.right.mono hdrawn hn⟩

/-- As long as there is room, the next number comes after all others. -/
theorem Admits.nextId_eq (hs : s.Admits owner drawn (n + 1)) (k : Kind) :
    (∀ r ∈ (s.table k).rows, r.id < (s.table k).nextId) ∧
      ((s.table k).nextId = 1 ∨ ∃ r ∈ (s.table k).rows, (s.table k).nextId = r.id + 1) := by
  apply Table.nextId_eq
  intro r hr
  have := hs.room.2 k r hr
  omega

/-! ## Rows in the place of others -/

namespace Rewrites

variable {r r' : Row k} (hw : s.Rewrites r r' s₁) (hr : r ∈ s.owned k owner)

include hw hr

theorem joined_eq : s₁.joined owner = s.joined owner := by
  have hids : (s₁.owned .group owner).map Row.id = (s.owned .group owner).map Row.id := by
    by_cases hk : Kind.group = k
    · subst hk
      rw [hw.owned_eq hr, List.map_map]
      refine List.map_congr_left fun x _ => ?_
      rw [Function.comp_apply]
      split
      next e => exact e.symm
      next => rfl
    · rw [(hw.writes hr).owned_other hk]
  rw [joined, joined, hids, hw.memberships]

theorem admits (hs : s.Admits owner drawn n) : s₁.Admits owner drawn n := by
  refine hs.of_rows (hs.tenantLocal.of_writes (hw.writes hr)) ?_ (Nat.le_refl _) (Nat.le_refl _)
  intro k' x hx
  by_cases hk : k' = k
  · subst hk
    rw [hw.rows] at hx
    rcases Table.mem_overwritten hx with rfl | ⟨hx, -⟩
    · refine .inr ⟨hw.company.trans (Store.mem_owned.1 hr).2, ?_⟩
      rw [hw.id]
      exact hs.room.2 k' r hw.mem
    · exact .inl hx
  · rw [(hw.writes hr).others k' hk] at hx
    exact .inl hx

end Rewrites

/-- The same row is rewritten in both stores. -/
theorem Mirrors.rewrites (h : Mirrors f owner drawn n s s') {r r' : Row k} (hr : r ∈ s.owned k owner)
    (hw : s.Rewrites r r' s₁) (hw' : s'.Rewrites (r.renumber f) (r'.renumber f) s₁') :
    Mirrors f owner drawn n s₁ s₁' := by
  have hr' := h.mem_owned hr
  refine ⟨.of_rows ?_ ?_ ?_, hw.admits hr h.left, hw'.admits hr' h.right⟩
  · obtain ⟨t, rfl, -⟩ := hw.store
    obtain ⟨t', rfl, -⟩ := hw'.store
    rw [companies_withTable, companies_withTable]
    exact h.companies
  · intro k'
    by_cases hk : k' = k
    · subst hk
      rw [hw.owned_eq hr, hw'.owned_eq hr', h.rows, List.map_map, List.map_map]
      refine List.map_congr_left fun x hx => ?_
      have hsame : (x.renumber f).id = (r'.renumber f).id ↔ x.id = r'.id := by
        rw [hw'.id, hw.id]
        exact h.eq_iff hx hr
      rw [Function.comp_apply, Function.comp_apply]
      by_cases hid : x.id = r'.id
      · rw [if_pos hid, if_pos (hsame.2 hid)]
      · rw [if_neg hid, if_neg (mt hsame.1 hid)]
    · rw [(hw.writes hr).owned_other hk, (hw'.writes hr').owned_other hk, h.rows]
  · rw [hw.joined_eq hr, hw'.joined_eq hr', h.memberships]

/-- Rows that are made from the same cells are the same but for their numbers. -/
private theorem make_renumber (f : Renumbering) (id : Int) {get get' : Column k → Cell} (hid : get .id = .integer id)
    (hid' : get' .id = .integer (f k id)) (hother : ∀ c, c ≠ .id → get' c = get c) :
    Row.make get' = (Row.make get).map (Row.renumber f) := by
  have hprofile : Profile.make k get' = Profile.make k get := by
    cases k with
    | user =>
      rw [Profile.make, Profile.make, hother .firstName (by decide), hother .lastName (by decide),
        hother .email (by decide), hother .alternateEmail (by decide)]
    | group => rw [Profile.make, Profile.make, hother .displayName (by decide), hother .email (by decide)]
  have huuid := hother .uuid (by cases k <;> decide)
  have hcompany := hother .company (by cases k <;> decide)
  have harchived := hother .archived (by cases k <;> decide)
  have hcreated := hother .created (by cases k <;> decide)
  have hupdated := hother .updated (by cases k <;> decide)
  rw [Row.make, Row.make, hid, hid', hprofile, huuid, hcompany, harchived, hcreated, hupdated]
  dsimp only
  split
  · rfl
  · cases (get .uuid).text? with
    | none => rfl
    | some uuid =>
      cases Profile.make k get with
      | none => rfl
      | some profile =>
        cases (get .archived).optional? Cell.time? with
        | none => rfl
        | some archived =>
          cases (get .created).time? with
          | none => rfl
          | some created => cases (get .updated).time? <;> rfl

/-! ## Attributes and status -/

private theorem unchanged_renumber (f : Renumbering) (r : Row k) {c : Column k} (hc : c.isProfile = true)
    (value : Json) : unchanged (r.renumber f) c value = unchanged r c value := by
  have hid : c ≠ .id := by
    rintro rfl
    cases hc
  rw [unchanged, unchanged, r.get_renumber f hid]

private theorem exists_given (f : Renumbering) (r : Row k) {values : List (Column k × Json)}
    (hvalues : ∀ v ∈ values, v.1.isProfile = true) :
    ∃ given, (values.filter fun (c, value) => !unchanged r c value) = given ∧
      (values.filter fun (c, value) => !unchanged (r.renumber f) c value) = given ∧
      ∀ v ∈ given, v.1.isProfile = true := by
  refine ⟨_, rfl, List.filter_congr fun v hv => ?_, fun v hv => hvalues v (List.mem_filter.1 hv).1⟩
  obtain ⟨c, value⟩ := v
  exact congrArg not (unchanged_renumber f r (hvalues _ hv) value)

private theorem revised_renumber (f : Renumbering) (r : Row k) {changed : List (Column k × Cell)}
    (hchanged : ∀ p ∈ changed, p.1.isProfile = true) (clock : Nat) :
    revised (r.renumber f) (changed ++ [(.updated, .time clock)]) =
      (revised r (changed ++ [(.updated, .time clock)])).map (Row.renumber f) := by
  have hid : (changed ++ [(Column.updated, Cell.time clock)]).lookup Column.id = none := by
    rw [List.lookup_append, lookup_eq_none hchanged rfl]
    rfl
  apply make_renumber f r.id
  · rw [hid]
    rfl
  · rw [hid]
    rfl
  · intro c hc
    rw [r.get_renumber f hc]

namespace Mirrors

variable (h : Mirrors f owner drawn n s s') {r : Row k} (hr : r ∈ s.owned k owner)

include h hr

theorem put {new : Row k} (hid : new.id = r.id) (huuid : new.uuid = r.uuid) (hcompany : new.company = r.company)
    (hcreated : new.created = r.created) :
    Alike (Twins f owner drawn n) (do return (new, ← s.put r new))
      (do return (new.renumber f, ← s'.put (r.renumber f) (new.renumber f))) := by
  have hmem := mem_rows_of_owned hr
  have hmem' := mem_rows_of_owned (h.mem_owned hr)
  have hid' : (new.renumber f).id = (r.renumber f).id := congrArg (f k) hid
  obtain ⟨t, hput, -⟩ := exists_put hmem hid huuid
  have huuid' : (new.renumber f).uuid = (r.renumber f).uuid := huuid
  obtain ⟨t', hput', -⟩ := exists_put hmem' hid' huuid'
  have hw : s.Rewrites r new _ := .of_put hmem hid huuid hcompany hcreated hput
  have hw' : s'.Rewrites (r.renumber f) (new.renumber f) _ := .of_put hmem' hid' huuid hcompany hcreated hput'
  rw [hput, hput']
  exact .ok ⟨h.rewrites hr hw hw', hw.mem_owned hr, rfl⟩

theorem update {attributes : List (String × Json)} (ha : ProfileOnly k attributes) (clock : Nat) :
    Alike (Twins f owner drawn n) (s.update clock r attributes) (s'.update clock (r.renumber f) attributes) := by
  rw [Store.update, Store.update]
  cases hvalues : columns k attributes with
  | error e => exact .error e
  | ok values =>
    have hprofile : ∀ v ∈ values, v.1.isProfile = true := fun v hv => isProfile_of_columns ha hvalues hv
    obtain ⟨given, hgiven, hgiven', hall⟩ := exists_given f r hprofile
    rw [ok_bind, ok_bind]
    dsimp only
    rw [hgiven, hgiven']
    split
    · exact .ok ⟨h, hr, rfl⟩
    · cases hcells : cells given with
      | error fault => exact .error _
      | ok changed =>
        have hchanged := isProfile_of_cells hall hcells
        dsimp only
        rw [revised_renumber f r hchanged]
        cases hnew : revised r (changed ++ [(.updated, .time clock)]) with
        | none => exact .error _
        | some new =>
          obtain ⟨profile, rfl⟩ := eq_of_revised hchanged hnew
          exact h.put hr rfl rfl rfl rfl

theorem settled (status : Option Bool) (clock : Nat) :
    Alike (Twins f owner drawn n) (s.settled clock r status) (s'.settled clock (r.renumber f) status) := by
  cases status with
  | none => exact .ok ⟨h, hr, rfl⟩
  | some active =>
    rw [Store.settled, Store.settled, setActive, setActive]
    have hactive : (r.renumber f).isActive = r.isActive := rfl
    rw [hactive]
    split
    · exact .ok ⟨h, hr, rfl⟩
    · exact h.put hr rfl rfl rfl rfl

end Mirrors

/-! ## Memberships -/

/-- Taking out memberships takes out those of the groups of the company. -/
private theorem joined_eq_filter {p : Membership → Bool} (hmemberships : s₁.memberships = s.memberships.filter p)
    (hgroups : ∀ m, p m = true →
      (m.group ∈ (s₁.owned .group owner).map Row.id ↔ m.group ∈ (s.owned .group owner).map Row.id)) :
    s₁.joined owner = (s.joined owner).filter p := by
  rw [joined, joined, hmemberships, List.filter_filter, List.filter_filter]
  refine List.filter_congr fun m _ => ?_
  cases hp : p m with
  | false => rw [Bool.and_false, Bool.false_and]
  | true =>
    rw [Bool.and_true, Bool.true_and, Bool.eq_iff_iff, List.contains_iff_mem, List.contains_iff_mem]
    exact hgroups m hp

theorem Admits.of_memberships {memberships : List Membership} (hs : s.Admits owner drawn n)
    (hlocal : ({ s with memberships } : Store).TenantLocal) :
    ({ s with memberships } : Store).Admits owner drawn n := by
  refine hs.of_rows hlocal (fun k r hr => .inl ?_) (Nat.le_refl _) (Nat.le_refl _)
  cases k <;> exact hr

private theorem joined_append {g : Row .group} (hg : g ∈ s.owned .group owner) (user : Int)
    (clock : Nat) :
    ({ s with memberships := s.memberships ++ [⟨g.id, user, clock⟩] } : Store).joined owner =
      s.joined owner ++ [⟨g.id, user, clock⟩] := by
  have hcontains : ((s.owned .group owner).map Row.id).contains g.id = true :=
    List.contains_iff_mem.2 (List.mem_map_of_mem hg)
  rw [joined, joined, owned_memberships, List.filter_append, List.filter_singleton, hcontains]
  rfl

theorem Admits.of_join (hs : s.Admits owner drawn n) {g : Row .group} (hg : g ∈ s.owned .group owner)
    {u : Row .user} (hu : u ∈ s.owned .user owner) (clock : Nat) : (s.join clock g u).Admits owner drawn n := by
  have hlocal : (s.addMembers clock g [u]).TenantLocal := by
    apply hs.tenantLocal.addMembers hg
    intro v hv
    rw [List.mem_singleton.1 hv]
    exact hu
  change (s.addMembers clock g [u]).Admits owner drawn n
  rw [addMembers_eq] at hlocal ⊢
  exact hs.of_memberships hlocal

namespace Mirrors

variable (h : Mirrors f owner drawn n s s') {g : Row .group} (hg : g ∈ s.owned .group owner)

include h

private theorem filter {p p' : Membership → Bool} (hp : ∀ m ∈ s.joined owner, p' (m.renumber f) = p m) :
    Mirrors f owner drawn n { s with memberships := s.memberships.filter p }
      { s' with memberships := s'.memberships.filter p' } := by
  have hgroups (s : Store) (p : Membership → Bool) :
      ({ s with memberships := s.memberships.filter p } : Store).joined owner = (s.joined owner).filter p := by
    apply joined_eq_filter rfl
    intro m _
    rw [owned_memberships]
  refine ⟨.of_rows h.companies (fun k => ?_) ?_, ?_, ?_⟩
  · rw [owned_memberships, owned_memberships]
    exact h.rows k
  · rw [hgroups, hgroups, h.memberships, List.filter_map]
    exact congrArg (List.map _) (List.filter_congr hp)
  · exact h.left.of_memberships (h.left.tenantLocal.filter p)
  · exact h.right.of_memberships (h.right.tenantLocal.filter p')

include hg

theorem clearMembers : Mirrors f owner drawn n (s.clearMembers g) (s'.clearMembers (g.renumber f)) := by
  apply h.filter
  intro m hm
  rw [Bool.eq_iff_iff, bne_iff_ne, bne_iff_ne]
  exact not_congr (h.row_iff h.left.tenantLocal hm hg)

theorem withoutMembers {users : List (Row .user)} (husers : ∀ u ∈ users, u ∈ s.owned .user owner) :
    Mirrors f owner drawn n (s.withoutMembers g users)
      (s'.withoutMembers (g.renumber f) (users.map (Row.renumber f))) := by
  apply h.filter
  intro m hm
  have hgroup : ((m.renumber f).group == (g.renumber f).id) = (m.group == g.id) := by
    rw [Bool.eq_iff_iff, beq_iff_eq, beq_iff_eq]
    exact h.row_iff h.left.tenantLocal hm hg
  have huser : ((users.map (Row.renumber f)).any fun u => u.id == (m.renumber f).user) =
      users.any fun u => u.id == m.user := by
    rw [List.any_map, Bool.eq_iff_iff, List.any_eq_true, List.any_eq_true]
    refine exists_congr fun u => and_congr_right fun hu => ?_
    rw [Function.comp_apply, beq_iff_eq, beq_iff_eq, eq_comm, @eq_comm _ u.id]
    exact h.row_iff h.left.tenantLocal hm (husers u hu)
  rw [hgroup, huser]

private theorem mem_memberNumbers_iff {u : Row .user} (hu : u ∈ s.owned .user owner) :
    (u.renumber f).id ∈ s'.memberNumbers (g.renumber f) ↔ u.id ∈ s.memberNumbers g := by
  rw [memberNumbers, memberNumbers, ← filter_joined hg, ← filter_joined (h.mem_owned hg), h.memberships, List.mem_map,
    List.mem_map]
  constructor
  · rintro ⟨m', hm', huser⟩
    obtain ⟨hm', hgroup⟩ := List.mem_filter.1 hm'
    obtain ⟨m, hm, rfl⟩ := List.mem_map.1 hm'
    have hgroup := (h.row_iff h.left.tenantLocal hm hg).1 (beq_iff_eq.1 hgroup)
    exact ⟨m, List.mem_filter.2 ⟨hm, beq_iff_eq.2 hgroup⟩, (h.row_iff h.left.tenantLocal hm hu).1 huser⟩
  · rintro ⟨m, hm, huser⟩
    obtain ⟨hm, hgroup⟩ := List.mem_filter.1 hm
    refine ⟨m.renumber f, List.mem_filter.2 ⟨List.mem_map_of_mem hm, beq_iff_eq.2 ?_⟩, congrArg (f .user) huser⟩
    exact congrArg (f .group) (beq_iff_eq.1 hgroup)

private theorem join {u : Row .user} (hu : u ∈ s.owned .user owner) (clock : Nat) :
    Mirrors f owner drawn n (s.join clock g u) (s'.join clock (g.renumber f) (u.renumber f)) := by
  have hmem := h.mem_memberNumbers_iff hg hu
  rw [← isMember_iff, ← isMember_iff] at hmem
  by_cases hm : s.isMember g u = true
  · rw [Store.join, Store.join, if_pos hm, if_pos (hmem.2 hm)]
    exact h
  · have hjoin := h.left.of_join hg hu clock
    have hjoin' := h.right.of_join (h.mem_owned hg) (h.mem_owned hu) clock
    rw [Store.join, if_neg hm] at hjoin ⊢
    rw [Store.join, if_neg (mt hmem.1 hm)] at hjoin' ⊢
    refine ⟨.of_rows h.companies (fun k => ?_) ?_, hjoin, hjoin'⟩
    · rw [owned_memberships, owned_memberships]
      exact h.rows k
    · rw [joined_append hg, joined_append (h.mem_owned hg), h.memberships, List.map_append]
      rfl

theorem addMembers {users : List (Row .user)} (husers : ∀ u ∈ users, u ∈ s.owned .user owner) (clock : Nat) :
    Mirrors f owner drawn n (s.addMembers clock g users)
      (s'.addMembers clock (g.renumber f) (users.map (Row.renumber f))) := by
  induction users generalizing s s' with
  | nil => exact h
  | cons u rest ih =>
    have howned (k : Kind) : (s.join clock g u).owned k owner = s.owned k owner :=
      s.owned_addMembers clock g [u] k owner
    apply ih (h.join hg (husers u List.mem_cons_self) clock)
    · rw [howned]
      exact hg
    · intro v hv
      rw [howned]
      exact husers v (List.mem_cons_of_mem u hv)

end Mirrors

/-! ## Rows that come and go -/

/-- Numbers as before, but for one. -/
def extended (f : Renumbering) (k : Kind) (id id' : Int) : Renumbering :=
  fun k' i => if k' = k ∧ i = id then id' else f k' i

theorem extended_self (f : Renumbering) (k : Kind) (id id' : Int) : extended f k id id' k id = id' :=
  if_pos ⟨rfl, rfl⟩

theorem extended_of_ne (f : Renumbering) {k k' : Kind} {id i : Int} (id' : Int) (h : k' = k → i ≠ id) :
    extended f k id id' k' i = f k' i :=
  if_neg fun e => h e.1 e.2

/-- A new row that nothing stands in the way of: it takes the next number, and it has no identifier of a row of
its company. -/
theorem Admits.isFree_iff (hs : s.Admits owner drawn (n + 1)) {r : Row k} (hid : r.id = (s.table k).nextId)
    (huuid : r.uuid = Uuid.numbered (drawn + 1)) :
    (s.table k).isFree r = true ↔ ∀ x ∈ s.owned k owner, x.uuid ≠ r.uuid := by
  have hlt := (hs.nextId_eq k).1
  rw [Table.isFree, List.all_eq_true]
  constructor
  · intro hall x hx
    have hfree := hall x (mem_rows_of_owned hx)
    rw [Bool.and_eq_true, bne_iff_ne, bne_iff_ne] at hfree
    exact hfree.2
  · intro hall x hx
    rw [Bool.and_eq_true, bne_iff_ne, bne_iff_ne]
    refine ⟨?_, ?_⟩
    · have := hlt x hx
      omega
    · by_cases hcompany : x.company = .integer owner.id
      · exact hall x (mem_owned.2 ⟨hx, hcompany⟩)
      · rw [huuid]
        exact hs.fresh k x hx hcompany (drawn + 1) (Nat.lt_succ_self drawn)

section Insertion

variable {r : Row k} {t : Table k} (hs : s.Admits owner drawn (n + 1)) (ht : (s.table k).insert? r = some t)
  (hid : r.id = (s.table k).nextId) (hcompany : r.company = .integer owner.id)

include hs ht hid hcompany

/-- A new row is the last one of its company. -/
theorem owned_insert : (s.withTable k t).owned k owner = s.owned k owner ++ [r] := by
  have hlt := (hs.nextId_eq k).1
  have hbefore : (s.table k).rows.filter (fun x => x.id < r.id) = (s.table k).rows := by
    refine List.filter_eq_self.2 fun x hx => ?_
    have := hlt x hx
    rw [decide_eq_true_iff]
    omega
  have hafter : (s.table k).rows.filter (fun x => r.id < x.id) = [] := by
    refine List.filter_eq_nil_iff.2 fun x hx => ?_
    have := hlt x hx
    rw [decide_eq_true_iff]
    omega
  have howned : (r.company == .integer owner.id) = true := beq_iff_eq.2 hcompany
  rw [owned, table_withTable, (Table.rows_of_insert? ht).2, Table.placed, hbefore, hafter, List.filter_append,
    List.filter_singleton, howned]
  rfl

omit hs hid hcompany in
private theorem id_ne_of_owned {k' : Kind} {x : Row k'} (hx : x ∈ s.owned k' owner) : k' = k → x.id ≠ r.id := by
  rintro rfl
  exact Table.id_ne_of_insert? ht (mem_rows_of_owned hx)

/-- No membership waits for a new group. -/
theorem joined_insert : (s.withTable k t).joined owner = s.joined owner := by
  rw [joined, joined, memberships_withTable]
  refine List.filter_congr fun m hm => ?_
  cases k with
  | user => rfl
  | group =>
    rw [owned_insert hs ht hid hcompany, List.map_append, Bool.eq_iff_iff, List.contains_iff_mem,
      List.contains_iff_mem, List.mem_append, List.map_singleton, List.mem_singleton]
    constructor
    · rintro (hgroup | hgroup)
      · exact hgroup
      · obtain ⟨g, hg, -, -, hgid, -, -⟩ := hs.tenantLocal m hm
        exact absurd (hgid.trans hgroup) (Table.id_ne_of_insert? ht hg)
    · exact .inl

theorem admits_insert : (s.withTable k t).Admits owner (drawn + 1) n := by
  have hnext := (hs.nextId_eq k).2
  refine hs.of_rows (hs.tenantLocal.of_writes (.of_insert ht hcompany)) ?_ (Nat.le_succ drawn) (Nat.le_succ n)
  intro k' x hx
  by_cases hk : k' = k
  · subst hk
    rw [table_withTable, (Table.rows_of_insert? ht).2] at hx
    rcases Table.mem_placed hx with rfl | hx
    · refine .inr ⟨hcompany, ?_⟩
      rcases hnext with hnext | ⟨y, hy, hnext⟩
      · have := hs.room.1
        omega
      · have := hs.room.2 k' y hy
        omega
    · exact .inl hx
  · rw [table_withTable_of_ne s t hk] at hx
    exact .inl hx

end Insertion

/-- The same new row is inserted into both stores, in each under the next number. -/
theorem Mirrors.inserted (h : Mirrors f owner drawn (n + 1) s s') {r r' : Row k} {t t' : Table k}
    (ht : (s.table k).insert? r = some t) (ht' : (s'.table k).insert? r' = some t')
    (hid : r.id = (s.table k).nextId) (hid' : r'.id = (s'.table k).nextId)
    (hcompany : r.company = .integer owner.id) (hr' : r' = r.renumber (extended f k r.id r'.id)) :
    Mirrors (extended f k r.id r'.id) owner (drawn + 1) n (s.withTable k t) (s'.withTable k t') := by
  have hcompany' : r'.company = .integer owner.id := by
    rw [hr']
    exact hcompany
  have hold (k' : Kind) : (s.owned k' owner).map (Row.renumber (extended f k r.id r'.id)) =
      (s.owned k' owner).map (Row.renumber f) := by
    refine List.map_congr_left fun x hx => ?_
    rw [Row.renumber, Row.renumber, extended_of_ne f r'.id (id_ne_of_owned ht hx)]
  refine ⟨.of_rows ?_ (fun k' => ?_) ?_, admits_insert h.left ht hid hcompany, admits_insert h.right ht' hid' hcompany'⟩
  · rw [companies_withTable, companies_withTable]
    exact h.companies
  · by_cases hk : k' = k
    · subst hk
      rw [owned_insert h.left ht hid hcompany, owned_insert h.right ht' hid' hcompany', h.rows, List.map_append, hold,
        List.map_singleton, ← hr']
    · rw [owned, owned, table_withTable_of_ne s t hk, table_withTable_of_ne s' t' hk]
      exact (h.rows k').trans (hold k').symm
  · rw [joined_insert h.left ht hid hcompany, joined_insert h.right ht' hid' hcompany', h.memberships]
    refine List.map_congr_left fun m hm => ?_
    obtain ⟨g, hg, u, hu, hgroup, huser⟩ := h.left.tenantLocal.exists_of_mem_joined hm
    rw [Membership.renumber, Membership.renumber, ← hgroup, ← huser,
      extended_of_ne f r'.id (id_ne_of_owned ht hg),
      extended_of_ne f r'.id (id_ne_of_owned ht hu)]

/-- A new row says what it is given and, where nothing is given, what is so of every new row. -/
private theorem lookup_defaults {given : List (Column k × Cell)} (hgiven : ∀ p ∈ given, p.1.isProfile = true)
    (id : Int) (uuid : String) (owner : Company) (clock : Nat) :
    let cells := given ++ [(Column.id, Cell.integer id), (.uuid, .text uuid), (.company, .integer owner.id),
      (.created, .time clock), (.updated, .time clock)]
    cells.lookup .id = some (.integer id) ∧ cells.lookup .uuid = some (.text uuid) ∧
      cells.lookup .company = some (.integer owner.id) ∧
      ∀ c, c ≠ .id → cells.lookup c = (given ++ [(Column.uuid, Cell.text uuid), (.company, .integer owner.id),
        (.created, .time clock), (.updated, .time clock)]).lookup c := by
  refine ⟨?_, ?_, ?_, fun c hc => ?_⟩
  · rw [List.lookup_append, lookup_eq_none hgiven rfl]
    rfl
  · rw [List.lookup_append, lookup_eq_none hgiven rfl]
    rfl
  · rw [List.lookup_append, lookup_eq_none hgiven rfl]
    rfl
  · rw [List.lookup_append, List.lookup_append, List.lookup_cons, beq_eq_false_iff_ne.2 hc]

theorem Mirrors.insert (h : Mirrors f owner drawn (n + 1) s s') {values : List (Column k × Json)}
    (hvalues : ∀ v ∈ values, v.1.isProfile = true) (clock : Nat) :
    Alike (Twins (extended f k (s.table k).nextId (s'.table k).nextId) owner (drawn + 1) n)
      (s.insert clock owner (Uuid.numbered (drawn + 1)) values)
      (s'.insert clock owner (Uuid.numbered (drawn + 1)) values) := by
  have hfilter (p : Column k × Json → Bool) : ∀ v ∈ values.filter p, v.1.isProfile = true :=
    fun v hv => hvalues v (List.mem_filter.1 hv).1
  rw [Store.insert, Store.insert]
  generalize hwritten : values.filter _ = written
  have hwritten : ∀ v ∈ written, v.1.isProfile = true := by
    rw [← hwritten]
    exact hfilter _
  cases hcells : cells written with
  | error fault => exact .error _
  | ok given =>
    have hgiven := isProfile_of_cells hwritten hcells
    obtain ⟨hid, huuid, hcompany, hother⟩ :=
      lookup_defaults hgiven (s.table k).nextId (Uuid.numbered (drawn + 1)) owner clock
    obtain ⟨hid', -, -, hother'⟩ := lookup_defaults hgiven (s'.table k).nextId (Uuid.numbered (drawn + 1)) owner clock
    dsimp only at hid huuid hcompany hother hid' hother' ⊢
    rw [make_renumber (extended f k (s.table k).nextId (s'.table k).nextId) (s.table k).nextId
      (congrArg (Option.getD · .null) hid)
      ((congrArg (Option.getD · .null) hid').trans (congrArg Cell.integer (extended_self f k _ _).symm))
      fun c hc => congrArg (Option.getD · .null) ((hother' c hc).trans (hother c hc).symm)]
    cases hnew : Row.make fun c => ((given ++ [(Column.id, Cell.integer (s.table k).nextId),
      (.uuid, .text (Uuid.numbered (drawn + 1))), (.company, .integer owner.id), (.created, .time clock),
      (.updated, .time clock)]).lookup c).getD .null with
    | none => exact .error _
    | some r =>
      have hrid : r.id = (s.table k).nextId := by
        have hget := (get_of_make hnew .id).trans (congrArg (Option.getD · .null) hid)
        exact Cell.integer.inj hget
      have hruuid : r.uuid = Uuid.numbered (drawn + 1) := by
        have hget := (get_of_make hnew .uuid).trans (congrArg (Option.getD · .null) huuid)
        exact Cell.text.inj hget
      have hrcompany : r.company = .integer owner.id :=
        (get_of_make hnew .company).trans (congrArg (Option.getD · .null) hcompany)
      obtain ⟨r', hr'⟩ : ∃ r', r' = r.renumber (extended f k (s.table k).nextId (s'.table k).nextId) := ⟨_, rfl⟩
      have hrid' : r'.id = (s'.table k).nextId := by
        rw [hr', Row.renumber]
        dsimp only
        rw [hrid, extended_self]
      have hruuid' : r'.uuid = Uuid.numbered (drawn + 1) := by
        rw [hr']
        exact hruuid
      have hfree : (s.table k).isFree r = true ↔ (s'.table k).isFree r' = true := by
        rw [h.left.isFree_iff hrid hruuid, h.right.isFree_iff hrid' hruuid', h.rows, List.forall_mem_map, hruuid,
          hruuid']
        rfl
      rw [Option.map_some, ← hr']
      rw [← hrid, ← hrid'] at hr' ⊢
      by_cases hf : (s.table k).isFree r = true
      · obtain ⟨t, ht⟩ := Table.exists_insert? hf
        obtain ⟨t', ht'⟩ := Table.exists_insert? (hfree.1 hf)
        have hmem : r ∈ (s.withTable k t).owned k owner := by
          rw [owned_insert h.left ht hrid hrcompany]
          exact List.mem_append_right _ (List.mem_singleton_self r)
        simp only [Option.bind_some, ht, ht', Option.map_some]
        exact .ok ⟨h.inserted ht ht' hrid hrid' hrcompany hr', hmem, hr'⟩
      · simp only [Option.bind_some, Table.insert?_eq_none hf, Table.insert?_eq_none (mt hfree.2 hf), Option.map_none]
        exact .error _

private theorem memberships_erase (s : Store) (r : Row k) :
    (s.erase k r).memberships = s.memberships.filter fun m => m.row k != r.id := by
  cases k <;> rfl

private theorem owned_erase (s : Store) (r : Row k) (owner : Company) :
    (s.erase k r).owned k owner = (s.owned k owner).filter fun x => x.id != r.id := by
  rw [owned, owned, rows_table_erase, List.filter_filter, List.filter_filter]
  refine List.filter_congr fun x _ => ?_
  rw [Bool.and_comm]

private theorem joined_erase (s : Store) (r : Row k) (owner : Company) :
    (s.erase k r).joined owner = (s.joined owner).filter fun m => m.row k != r.id := by
  apply joined_eq_filter (s.memberships_erase r)
  intro m hm
  cases k with
  | user => rfl
  | group =>
    rw [owned_erase, List.mem_map, List.mem_map]
    constructor
    · rintro ⟨g, hg, hid⟩
      exact ⟨g, (List.mem_filter.1 hg).1, hid⟩
    · rintro ⟨g, hg, hid⟩
      refine ⟨g, List.mem_filter.2 ⟨hg, ?_⟩, hid⟩
      rw [hid]
      exact hm

private theorem Admits.erase (hs : s.Admits owner drawn n) (r : Row k) : (s.erase k r).Admits owner drawn n := by
  refine hs.of_rows (hs.tenantLocal.erase k r) (fun k' x hx => .inl ?_) (Nat.le_refl _) (Nat.le_refl _)
  by_cases hk : k' = k
  · subst hk
    cases k' <;> exact (List.mem_filter.1 hx).1
  · rw [table_erase_of_ne s r hk] at hx
    exact hx

/-- The same row is taken out of both stores. -/
theorem Mirrors.erase (h : Mirrors f owner drawn n s s') {r : Row k} (hr : r ∈ s.owned k owner) :
    Mirrors f owner drawn n (s.erase k r) (s'.erase k (r.renumber f)) := by
  refine ⟨.of_rows ?_ (fun k' => ?_) ?_, h.left.erase r, h.right.erase (r.renumber f)⟩
  · have hcompanies : s'.companies = s.companies := h.companies
    cases k <;> exact hcompanies
  · by_cases hk : k' = k
    · subst hk
      rw [owned_erase, owned_erase, h.rows, List.filter_map]
      congr 1
      refine List.filter_congr fun x hx => ?_
      rw [Function.comp_apply, Bool.eq_iff_iff, bne_iff_ne, bne_iff_ne]
      exact not_congr (h.eq_iff hx hr)
    · rw [owned, owned, table_erase_of_ne s r hk, table_erase_of_ne s' _ hk]
      exact h.rows k'
  · rw [joined_erase, joined_erase, h.memberships, List.filter_map]
    congr 1
    refine List.filter_congr fun m hm => ?_
    have hrow : (m.renumber f).row k = f k (m.row k) := by cases k <;> rfl
    rw [Function.comp_apply, hrow, Bool.eq_iff_iff, bne_iff_ne, bne_iff_ne]
    exact not_congr (h.row_iff h.left.tenantLocal hm hr)

end Store

end Roster
