import Mathlib.Data.List.Nodup
import Roster.Proofs.Contracts
import Roster.Proofs.Insertion
import Roster.Proofs.MemberLists
import Roster.Proofs.Patching
import Roster.Proofs.Rendering
import Roster.Proofs.Runs
import Roster.Proofs.Sample
import Roster.Proofs.Tenancy

/-!
Memberships over whole runs.

Numbers of deleted rows are given to new ones, so a membership that outlived its group or its user would pass
to another one. None does: every membership joins a group and a user that are stored and belong to the same
company, whatever requests have been made. A new user is therefore in no group, and a new group has the
members that its own request lists.
-/

set_option autoImplicit false

namespace Roster

open Step

variable {k : Kind} {s s' : Store} {owner : Company}

namespace Store

/-- Every membership joins a stored group and a stored user of the same company, and no two join the same. -/
structure Sound (s : Store) : Prop where
  nodup : s.links.Nodup
  joins : ∀ m ∈ s.memberships, ∃ g ∈ s.groups.rows, ∃ u ∈ s.users.rows,
    g.id = m.group ∧ u.id = m.user ∧ g.company = u.company

namespace Sound

theorem tenantLocal (hs : s.Sound) : s.TenantLocal := hs.joins

theorem of_writes (hs : s.Sound) {r : Row k} (h : s.Writes owner r s') : s'.Sound where
  nodup := by
    rw [links, h.memberships]
    exact hs.nodup
  joins := hs.tenantLocal.of_writes h

theorem filter (hs : s.Sound) (p : Membership → Bool) :
    ({ s with memberships := s.memberships.filter p } : Store).Sound where
  nodup := hs.nodup.sublist (List.filter_sublist.map _)
  joins := hs.tenantLocal.filter p

theorem addMembers (hs : s.Sound) {group : Row .group} (hgroup : group ∈ s.owned .group owner)
    (clock : Nat) {users : List (Row .user)} (husers : ∀ u ∈ users, u ∈ s.owned .user owner) :
    (s.addMembers clock group users).Sound where
  nodup := nodup_links_addMembers hs.nodup clock group users
  joins := hs.tenantLocal.addMembers hgroup clock husers

theorem erase (hs : s.Sound) (k : Kind) (r : Row k) : (s.erase k r).Sound where
  nodup := by
    cases k <;> exact hs.nodup.sublist (List.filter_sublist.map _)
  joins := hs.tenantLocal.erase k r

theorem of_changesMembers (hs : s.Sound) {group : Row .group} (hgroup : group ∈ s.owned .group owner)
    (h : s.ChangesMembers owner group s') : s'.Sound := by
  cases h with
  | add clock users husers => exact hs.addMembers hgroup clock husers
  | replace clock users husers => exact (hs.filter _).addMembers hgroup clock husers
  | remove users => exact hs.filter _
  | clear => exact hs.filter _

theorem of_patches (hs : s.Sound) {r r' : Row k} (hr : r ∈ s.owned k owner)
    (h : s.Patches owner k r r' s') : s'.Sound := by
  cases h with
  | attributes h => exact hs.of_writes (h.writes hr)
  | members hgroup h => exact hs.of_changesMembers hr h

end Sound

end Store

/-! ## Users that requests list -/

/-- The public identifiers that a request to create a group lists for its members, each once. -/
def Request.listedMembers (payload : Json) : List String :=
  (((Members.identifiers? (payload.fieldOrNull "members")).getD []).map Json.text).eraseDups

section Listing

variable {ctx : Context} (h : ctx.config.IsStandard)

include h

private theorem listed_of_newMembers {payload : Json} {users : List (Row .user)}
    (he : effect (Request.newMembers ctx owner .group payload) s = .ok (users, s')) :
    s' = s ∧ (∀ u ∈ users, u ∈ s.owned .user owner) ∧
      (users.map Row.uuid).eraseDups = Request.listedMembers payload := by
  rw [Request.newMembers.eq_def] at he
  split at he
  next => contradiction
  next hnull =>
    cases he
    refine ⟨rfl, fun u hu => absurd hu List.not_mem_nil, ?_⟩
    rw [Request.listedMembers, hnull]
    rfl
  next hmembers =>
    rw [effect_listedUsers] at he
    obtain ⟨users', hlisted, e⟩ := map_eq_ok.1 he
    cases e
    obtain ⟨identifiers, hidentifiers, hresolve⟩ := bind_eq_ok.1 hlisted
    have huuids := map_uuid_of_mapM_named (s.mapM_of_resolve h owner hresolve)
    refine ⟨rfl, s.mem_owned_of_resolve h owner hresolve, ?_⟩
    rw [Members.identifiers] at hidentifiers
    split at hidentifiers
    next all hall =>
      cases hidentifiers
      rw [Request.listedMembers, hall, huuids]
      rfl
    next => cases hidentifiers

private theorem listed_of_replacedMembers {payload : Json} {users : List (Row .user)}
    (he : effect (Request.replacedMembers ctx owner k payload) s = .ok (users, s')) :
    s' = s ∧ (k = .group → ∀ u ∈ users, u ∈ s.owned .user owner) := by
  cases k with
  | user =>
    cases he
    exact ⟨rfl, fun hk => by cases hk⟩
  | group =>
    rw [Request.replacedMembers, effect_listedUsers] at he
    obtain ⟨users', hlisted, e⟩ := map_eq_ok.1 he
    cases e
    exact ⟨rfl, fun _ => Store.mem_owned_of_listed h hlisted⟩

end Listing

/-- A request to create a resource has been made on a store: in the store that it leaves memberships are
sound, users that are new are in no group, and groups that are new have the members that it lists. -/
structure Store.Created (old : Store) (payload : Json) (s : Store) : Prop where
  sound : s.Sound
  users : ∀ u ∈ s.users.rows, (∀ x ∈ old.users.rows, x.id ≠ u.id) → ∀ m ∈ s.memberships, m.user ≠ u.id
  groups : ∀ g ∈ s.groups.rows, (∀ x ∈ old.groups.rows, x.id ≠ g.id) →
    s.memberUuids g = Request.listedMembers payload

theorem Store.Created.refl (hs : s.Sound) (payload : Json) : s.Created payload s :=
  ⟨hs, fun u hu hnew => absurd rfl (hnew u hu), fun g hg hnew => absurd rfl (hnew g hg)⟩

/-! ## Steps of requests -/

section Steps

variable {ctx : Context} (h : ctx.config.IsStandard)

include h

private theorem ensures_applyOperations (r : Row k) (operations : List PatchOperation) :
    Ensures Store.Sound (fun s => s.Sound ∧ r ∈ s.owned k owner) (applyOperations ctx owner r operations)
      fun r' s => s.Sound ∧ r' ∈ s.owned k owner := by
  induction operations generalizing r with
  | nil =>
    refine (ensures_pure r).mono ?_
    rintro r' s ⟨rfl, hs⟩
    exact hs
  | cons o rest ih =>
    have hstep : Ensures Store.Sound (fun s => s.Sound ∧ r ∈ s.owned k owner)
        (applyOperation ctx owner k r o) fun r' s => s.Sound ∧ r' ∈ s.owned k owner := by
      refine (local_applyOperation ctx owner r o).ensures.mono ?_
      rintro r' s ⟨s₀, ⟨hsound, howned⟩, he⟩
      have hpatches : s₀.Patches owner k r r' s := .of_applyOperation h (Store.mem_rows_of_owned howned) he
      exact ⟨hsound.of_patches howned hpatches, hpatches.mem_owned howned⟩
    rw [applyOperations]
    refine hstep.bind fun r' => ?_
    dsimp only
    split
    · exact (ensures_commit fun s hs => hs.1).bind fun _ => ih r'
    · exact ih r'

private theorem ensures_runPatch (identifier : Json) (operations : List PatchOperation) :
    Ensures Store.Sound Store.Sound (Request.runPatch ctx owner k identifier operations) fun _ _ => True := by
  unfold Request.runPatch
  refine (ensures_notify _).bind fun _ => (ensures_look _).bind fun r => ?_
  refine Ensures.bind ((ensures_applyOperations h r operations).weaken ?_) fun r' => ?_
  · rintro s ⟨hget, hsound⟩
    exact ⟨hsound, Store.mem_owned_of_get h hget⟩
  · exact ensures_finish (fun s hs => hs.1) .updated [] r'

/-- A resource that is about to get members: it and, for a group, the users belong to its company. -/
private structure Ready (owner : Company) (users : List (Row .user)) (r : Row k) (s : Store) : Prop where
  sound : s.Sound
  mem : r ∈ s.owned k owner
  users : k = .group → ∀ u ∈ users, u ∈ s.owned .user owner

omit h in
private theorem Ready.rewrites {users : List (Row .user)} {r r' : Row k} (hready : Ready owner users r s)
    (hr : s.Rewrites r r' s') : Ready owner users r' s' := by
  have hwrites := hr.writes hready.mem
  refine ⟨hready.sound.of_writes hwrites, hwrites.mem, fun hk u hu => ?_⟩
  have hne : Kind.user ≠ k := by
    rw [hk]
    decide
  rw [Store.owned, hwrites.others .user hne]
  exact hready.users hk u hu

private theorem ensures_runReplace (identifier payload : Json) :
    Ensures Store.Sound Store.Sound (Request.runReplace ctx owner k identifier payload) fun _ _ => True := by
  unfold Request.runReplace
  refine (ensures_notify _).bind fun _ => (ensures_look _).bind fun r => ?_
  have hmembers : Ensures Store.Sound (fun s => s.get ctx.config k owner identifier = .ok r ∧ s.Sound)
      (Request.replacedMembers ctx owner k payload) fun users s => Ready owner users r s := by
    refine (local_replacedMembers ctx owner payload).ensures.mono ?_
    rintro users s ⟨s₀, ⟨hget, hsound⟩, he⟩
    obtain ⟨rfl, husers⟩ := listed_of_replacedMembers h he
    exact ⟨hsound, Store.mem_owned_of_get h hget, husers⟩
  refine hmembers.bind fun users => (ensures_check _).bind fun status => ?_
  refine Ensures.of_fact fun _ => (ensures_check _).bind fun attributes => ?_
  refine Ensures.of_fact fun hcomplete => ?_
  have hprofile := h.profileOnly_complete hcomplete
  have hupdate : Ensures Store.Sound (Ready owner users r) (updateAttributes ctx owner r attributes)
      fun r' s => Ready owner users r' s := by
    refine (local_updateAttributes ctx owner r attributes).ensures.mono ?_
    rintro r' s ⟨s₀, hready, he⟩
    exact hready.rewrites (.of_updateAttributes (Store.mem_rows_of_owned hready.mem) hprofile he)
  have hstatus (r : Row k) : Ensures Store.Sound (Ready owner users r) (applyStatus ctx r status)
      fun r' s => Ready owner users r' s := by
    refine (local_applyStatus ctx r status).ensures.mono ?_
    rintro r' s ⟨s₀, hready, he⟩
    exact hready.rewrites (.of_applyStatus (Store.mem_rows_of_owned hready.mem) he)
  have hset (r : Row k) : Ensures Store.Sound (Ready owner users r) (Request.setMembers ctx users k r)
      fun _ s => s.Sound := by
    refine (local_setMembers ctx users r).ensures.mono ?_
    rintro u s ⟨s₀, hready, he⟩
    cases k with
    | user =>
      cases he
      exact hready.sound
    | group =>
      cases he
      exact hready.sound.of_changesMembers hready.mem (.replace ctx.clock users (hready.users rfl))
  refine hupdate.bind fun r => (hstatus r).bind fun r => (hset r).bind fun _ => ?_
  exact ensures_finish (fun s hs => hs) .updated [] r

omit h in
private theorem ensures_runDelete (identifier : Json) :
    Ensures Store.Sound Store.Sound (Request.runDelete ctx owner k identifier) fun _ _ => True := by
  unfold Request.runDelete
  refine (ensures_notify _).bind fun _ => (ensures_look _).bind fun r => ?_
  have herase : Ensures Store.Sound (fun s => s.get ctx.config k owner identifier = .ok r ∧ s.Sound)
      (modifyStore fun s => s.erase k r) fun _ s => s.Sound := by
    refine (local_modifyStore _).ensures.mono ?_
    rintro u s ⟨s₀, ⟨-, hsound⟩, he⟩
    cases he
    exact hsound.erase k r
  refine herase.bind fun _ => (ensures_commit fun s hs => hs).bind fun _ => (ensures_notify _).bind fun _ => ?_
  exact (ensures_pure _).mono fun _ _ _ => trivial

omit h

private theorem created_of_writes_user {old : Store} (hold : old.Sound) {r : Row .user} (hw : old.Writes owner r s)
    (payload : Json) : old.Created payload s := by
  have hgroups : s.groups = old.groups := hw.others .group (by decide)
  refine ⟨hold.of_writes hw, ?_, ?_⟩
  · intro u hu hnew m hm e
    rw [hw.memberships] at hm
    obtain ⟨-, -, x, hx, -, hid, -⟩ := hold.joins m hm
    exact hnew x hx (hid.trans e)
  · intro g hg hnew
    rw [hgroups] at hg
    exact absurd rfl (hnew g hg)

private theorem created_of_writes_group {old : Store} (hold : old.Sound) {r : Row .group}
    (hw : old.Writes owner r s) {users : List (Row .user)} (husers : ∀ u ∈ users, u ∈ old.owned .user owner)
    {payload : Json} (hlisted : (users.map Row.uuid).eraseDups = Request.listedMembers payload) (clock : Nat) :
    old.Created payload (s.addMembers clock r users) := by
  have hsame : s.users = old.users := hw.others .user (by decide)
  have howned : ∀ u ∈ users, u ∈ s.owned .user owner := by
    intro u hu
    rw [Store.owned]
    change u ∈ s.users.rows.filter _
    rw [hsame]
    exact husers u hu
  refine ⟨(hold.of_writes hw).addMembers hw.mem clock howned, ?_, ?_⟩
  · intro u hu hnew
    rw [Store.addMembers_eq] at hu
    change u ∈ s.users.rows at hu
    rw [hsame] at hu
    exact absurd rfl (hnew u hu)
  · intro g hg hnew
    rw [Store.addMembers_eq] at hg
    have hid : g.id = r.id := by
      rcases hw.origin g hg with e | ⟨x, hx, e⟩
      · exact e
      · exact absurd e (hnew x hx)
    -- No membership can have been left under the number of the new group.
    have hnone : s.memberUuids r = [] := by
      refine List.map_eq_nil_iff.2 (List.eq_nil_iff_forall_not_mem.2 fun u hu => ?_)
      obtain ⟨m, hm, hmgroup, -⟩ := Store.mem_memberNumbers.1 (Store.mem_membersOf.1 hu).2
      rw [hw.memberships] at hm
      obtain ⟨x, hx, -, -, hgroup, -, -⟩ := hold.joins m hm
      exact hnew x hx (hgroup.trans (hmgroup.trans hid.symm))
    have husers' : ∀ u ∈ users, u ∈ s.users.rows := fun u hu => Store.mem_rows_of_owned (howned u hu)
    rw [Store.memberUuids_of_id _ hid, Store.memberUuids_addMembers clock husers', hnone, including_nil_left, hlisted]

private theorem ensures_overwriteResource {old : Store} {I : Store → Prop} {found : Row k}
    (hfound : found ∈ old.owned k owner) {values : Schema.Values} (hprofile : ProfileOnly k values) :
    Ensures I (· = old) (Request.overwriteResource ctx found values)
      fun p s => old.Writes owner p.1 s := by
  refine (local_overwriteResource ctx found values).ensures.mono ?_
  rintro p s ⟨s₀, rfl, he⟩
  rw [Request.overwriteResource, effect_bind _ (local_change _) fun _ => local_pure _, effect_change] at he
  obtain ⟨⟨r', s'⟩, hupdate, e⟩ := bind_eq_ok.1 he
  cases e
  exact (Store.Rewrites.of_update (Store.mem_rows_of_owned hfound) hprofile hupdate).writes hfound

private theorem ensures_insertResource {old : Store} {I : Store → Prop} {values : Schema.Values}
    (hprofile : ProfileOnly k values) :
    Ensures I (· = old) (Request.insertResource ctx owner k values) fun p s => old.Writes owner p.1 s := by
  obtain ⟨cells, hcells, hexec⟩ := exists_exec_insertResource ctx owner hprofile
  rintro σ hI rfl
  rw [hexec]
  split
  next r s hinsert =>
    refine ⟨hI, ?_⟩
    intro p hp
    cases hp
    obtain ⟨profile, rfl, t, ht, rfl⟩ := Store.exists_of_insert hcells hinsert
    exact .of_insert ht rfl
  next =>
    refine ⟨hI, ?_⟩
    intro p hp
    cases hp

private theorem ensures_look_old {α : Type} {old : Store} {I : Store → Prop} (f : Store → Except Failure α) :
    Ensures I (· = old) (look f) fun a s => f old = .ok a ∧ s = old := by
  refine (ensures_look f).mono ?_
  rintro a s ⟨ha, rfl⟩
  exact ⟨ha, rfl⟩

/-- The users are those that a request lists for a new group. -/
private def IsListed (old : Store) (owner : Company) (payload : Json) (users : List (Row .user)) : Prop :=
  (∀ u ∈ users, u ∈ old.owned .user owner) ∧ (users.map Row.uuid).eraseDups = Request.listedMembers payload

private theorem ensures_addNewMembers {old : Store} {I : Store → Prop} (hold : old.Sound)
    {payload : Json} {users : List (Row .user)} (husers : k = .group → IsListed old owner payload users) (r : Row k) :
    Ensures I (fun s => old.Writes owner r s) (Request.addNewMembers ctx users k r)
      fun _ s => old.Created payload s := by
  refine (local_addNewMembers ctx users r).ensures.mono ?_
  rintro u s ⟨s₀, hw, he⟩
  cases k with
  | user =>
    cases he
    exact created_of_writes_user hold hw payload
  | group =>
    cases he
    obtain ⟨howned, hlisted⟩ := husers rfl
    exact created_of_writes_group hold hw howned hlisted ctx.clock

include h

private theorem ensures_newMembers {old : Store} {I : Store → Prop} (payload : Json) :
    Ensures I (· = old) (Request.newMembers ctx owner k payload)
      fun users s => (k = .group → IsListed old owner payload users) ∧ s = old := by
  refine (local_newMembers ctx owner payload).ensures.mono ?_
  rintro users s ⟨s₀, rfl, he⟩
  cases k with
  | user =>
    cases he
    exact ⟨fun hk => (nomatch hk), rfl⟩
  | group =>
    obtain ⟨rfl, howned, hlisted⟩ := listed_of_newMembers h he
    exact ⟨fun _ => ⟨howned, hlisted⟩, rfl⟩

/-- Overwriting and inserting both write one row. -/
private theorem ensures_runCreate {old : Store} (hold : old.Sound) (payload : Json) :
    Ensures (old.Created payload) (· = old) (Request.runCreate ctx owner k payload) fun _ _ => True := by
  unfold Request.runCreate
  refine (ensures_notify _).bind fun _ => (ensures_check _).bind fun attributes => ?_
  refine Ensures.of_fact fun hcomplete => (ensures_check _).bind fun status => Ensures.of_fact fun _ => ?_
  have hprofile := h.profileOnly_merged (h.profileOnly_complete hcomplete)
  refine (ensures_newMembers h payload).bind fun users => Ensures.of_fact fun husers => ?_
  have hfinish (p : Row k × List (String × Json)) :
      Ensures (old.Created payload) (fun s => old.Writes owner p.1 s) (do
        let r ← applyStatus ctx p.1 status
        Request.addNewMembers ctx users k r
        commit
        notify (.after .created (.one r.uuid))
        Request.renderOne ctx k p.2 r) fun _ _ => True := by
    have hstatus : Ensures (old.Created payload) (fun s => old.Writes owner p.1 s)
        (applyStatus ctx p.1 status) fun r s => old.Writes owner r s := by
      refine (local_applyStatus ctx p.1 status).ensures.mono ?_
      rintro r s ⟨s₀, hw, he⟩
      exact hw.rewrites (.of_applyStatus (Store.mem_rows_of_owned hw.mem) he)
    refine hstatus.bind fun r => (ensures_addNewMembers hold husers r).bind fun _ => ?_
    exact ensures_finish (fun s hs => hs) .created p.2 r
  split
  · exact (ensures_attempt _).mono fun _ _ _ => trivial
  · refine (ensures_look_old _).bind fun existing => Ensures.of_fact fun hexisting => ?_
    dsimp only
    split
    · split
      · exact (ensures_refuse _ _).bind hfinish
      · exact (ensures_overwriteResource (Store.mem_owned_of_findBy hexisting) hprofile).bind hfinish
    · exact (ensures_insertResource hprofile).bind hfinish

end Steps

section Calls

variable {c : Config} (h : c.IsStandard) (clock : Nat) (owner : Company) {d : Directory} (hd : d.store.Sound)

include h hd

private theorem created_perform (k : Kind) (payload : Json) :
    d.store.Created payload (d.perform ⟨c, clock⟩ owner (.create k payload)).directory.store := by
  have hsteps : Ensures (d.store.Created payload) (· = d.store)
      (Request.steps ⟨c, clock⟩ owner (.create k payload)) fun _ _ => True := by
    unfold Request.steps
    exact (ensures_check _).bind fun _ => Ensures.of_fact fun _ => ensures_runCreate h hd payload
  exact hsteps.run (.refl hd payload) rfl

private theorem sound_perform (request : Request) :
    (d.perform ⟨c, clock⟩ owner request).directory.store.Sound := by
  have hserved {steps : Pager → Step Json} {result : Except Error Pager}
      (hrequest : ∀ pager, Ensures Store.Sound Store.Sound (steps pager) fun _ _ => True) :
      Ensures Store.Sound Store.Sound (check result >>= steps) fun _ _ => True :=
    (ensures_check result).bind fun pager => Ensures.of_fact fun _ => hrequest pager
  cases request with
  | list k filter start count =>
    exact Ensures.run (hserved fun pager => (uncommitted_runList _ owner pager filter start count).ensures) hd hd
  | «show» k identifier =>
    exact Ensures.run (hserved fun _ => (uncommitted_runShow _ owner identifier).ensures) hd hd
  | create k payload => exact (created_perform h clock owner hd k payload).sound
  | replace k identifier payload =>
    exact Ensures.run (hserved fun _ => ensures_runReplace h identifier payload) hd hd
  | patch k identifier operations =>
    exact Ensures.run (hserved fun _ => ensures_runPatch h identifier operations) hd hd
  | delete k identifier => exact Ensures.run (hserved fun _ => ensures_runDelete identifier) hd hd

end Calls

/-- Memberships stay sound over every run of requests, and after any of them a user that is new is in no
group, and a group that is new has the members that the request for it lists. -/
theorem memberships_sound_after {s : Settings} {c : Config} (hb : Config.build s = .ok c)
    (hs : s.customUserAttributes = []) (d : Directory) (hd : d.store.Sound) (calls : List Call) :
    (d.after c calls).store.Sound ∧
    ∀ (clock : Nat) (owner : Company) (k : Kind) (payload : Json),
      (d.after c calls).store.Created payload
        ((d.after c calls).perform ⟨c, clock⟩ owner (.create k payload)).directory.store := by
  have h := Config.isStandard_of_build hb hs
  have hafter : (d.after c calls).store.Sound :=
    Directory.after_induction (P := fun d => d.store.Sound)
      (fun d call hd => sound_perform h call.clock call.owner hd call.request) hd calls
  exact ⟨hafter, fun clock owner k payload => created_perform h clock owner hafter k payload⟩

theorem sound_sample : Sample.store.Sound where
  nodup := by decide
  joins m hm := by
    rw [List.mem_singleton.1 hm]
    exact ⟨Sample.staff, List.mem_singleton_self _, Sample.ada, List.mem_cons_self, rfl, rfl, rfl⟩

private def desk : Json := .obj [
  ("displayName", .str "Desk"),
  ("email", .str "desk@acme.example"),
  ("members", .arr [.obj [("value", .str "u2")]])]

/-- A group takes the number of a deleted one and none of its members. -/
theorem memberships_sound_after_sample :
    (((Sample.directory.after (Sample.config true) [⟨8, Sample.acme, .delete .group (.str "g1")⟩]).perform
        ⟨Sample.config true, 9⟩ Sample.acme (.create .group desk)).directory.store.groups.rows.map Row.id) = [1] ∧
    ∀ g ∈ ((Sample.directory.after (Sample.config true) [⟨8, Sample.acme, .delete .group (.str "g1")⟩]).perform
        ⟨Sample.config true, 9⟩ Sample.acme (.create .group desk)).directory.store.groups.rows,
      ((Sample.directory.after (Sample.config true) [⟨8, Sample.acme, .delete .group (.str "g1")⟩]).perform
        ⟨Sample.config true, 9⟩ Sample.acme (.create .group desk)).directory.store.memberUuids g = ["u2"] := by
  have hcreated := (memberships_sound_after (Sample.build_config true) rfl Sample.directory sound_sample
    [⟨8, Sample.acme, .delete .group (.str "g1")⟩]).2 9 Sample.acme .group desk
  have hnone : (Sample.directory.after (Sample.config true)
      [⟨8, Sample.acme, .delete .group (.str "g1")⟩]).store.groups.rows = [] := by decide +kernel
  have hlisted : Request.listedMembers desk = ["u2"] := by decide +kernel
  refine ⟨by decide +kernel, fun g hg => ?_⟩
  rw [← hlisted]
  refine hcreated.groups g hg fun x hx => ?_
  rw [hnone] at hx
  cases hx

end Roster
