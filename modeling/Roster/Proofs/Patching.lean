import Roster.Proofs.Locality
import Roster.Proofs.Lookup
import Roster.Proofs.Writing

/-!
What one operation of a PATCH request does to the store.

An operation either rewrites the row of its resource or changes the members of its group. The members change
in one of four ways, and new members are always users of the company.
-/

set_option autoImplicit false

namespace Roster

open Step

variable {k : Kind} {ctx : Context} {owner : Company} {s s' : Store}

/-- The users of a company that a list of members names. -/
def Store.listed (s : Store) (config : Config) (owner : Company) (members : Json) (expected : String) :
    Except Failure (List (Row .user)) := do
  let identifiers ← (Members.identifiers members expected).mapError .refused
  s.resolve config owner identifiers

/-- Writes attributes of a row, if there are any. -/
def Store.written (s : Store) (ctx : Context) (owner : Company) (r : Row k) (attributes : Schema.Values) :
    Except Failure (Row k × Store) :=
  if attributes.isEmpty then .ok (r, s)
  else do
    s.checkKey ctx.config owner r attributes
    s.update ctx.clock r attributes

/-- Archives or restores a row if a status is asked for. -/
def Store.settled (s : Store) (clock : Nat) (r : Row k) : Option Bool → Except Failure (Row k × Store)
  | none => .ok (r, s)
  | some active => s.setActive clock r active

/-! ## Effects of operations -/

/-- There is always room for a status that can be read. -/
theorem PatchOperation.status_eq_ok {room : Nat} {document : Json} {status : Option Bool} :
    PatchOperation.status room document = .ok status ↔ parseActive (document.fieldOrNull "active") = .ok status := by
  rw [PatchOperation.status]
  split
  next hstatus => rw [hstatus, Except.ok.injEq, Except.ok.injEq]
  next hstatus =>
    rw [hstatus]
    split <;> exact iff_of_false (fun h => nomatch h) (fun h => nomatch h)

section Effects

variable (ctx owner s)

theorem effect_listedUsers (members : Json) (expected : String) :
    effect (listedUsers ctx owner members expected) s =
      (s.listed ctx.config owner members expected).map fun users => (users, s) := by
  rw [listedUsers, effect_check_bind, Store.listed]
  cases Members.identifiers members expected with
  | error e => rfl
  | ok identifiers => exact effect_look _ s

theorem effect_applyStatus (r : Row k) (status : Option Bool) :
    effect (applyStatus ctx r status) s = s.settled ctx.clock r status := by
  cases status with
  | none => rfl
  | some active => exact effect_change (fun s => s.setActive ctx.clock r active) s

private theorem effect_written (r : Row k) (attributes : Schema.Values) :
    effect (if attributes.isEmpty then pure r else updateAttributes ctx owner r attributes) s =
      s.written ctx owner r attributes := by
  rw [Store.written]
  split
  · rfl
  · exact effect_change _ s

theorem effect_replaceAttributes (r : Row k) (o : PatchOperation) :
    effect (replaceAttributes ctx owner r o) s =
      (o.document ctx.config.room (ctx.config.resource k).mutableSchema).bind fun document =>
        if document.isObject then
          (PatchOperation.status ctx.config.room document).bind fun status =>
            (s.written ctx owner r ((ctx.config.resource k).mutableSchema.extractPresent document)).bind
              fun p => p.2.settled ctx.clock p.1 status
        else .error (.refused .patchValue) := by
  rw [replaceAttributes, effect_attempt_bind]
  congr 1
  funext document
  dsimp only
  cases document.isObject with
  | false => rfl
  | true =>
    rw [Bool.not_true, if_neg Bool.false_ne_true, if_pos rfl, effect_attempt_bind]
    congr 1
    funext status
    rw [← effect_written]
    split
    · rw [effect_pure]
      exact effect_applyStatus ctx s r status
    · rw [effect_bind _ (local_updateAttributes ctx owner r _) fun r => local_applyStatus ctx r status]
      congr 1
      funext p
      exact effect_applyStatus ctx p.2 p.1 status

theorem effect_addListed (group : Row .group) (o : PatchOperation) :
    effect (addListed ctx owner group o) s =
      if o.path != none && o.path != some "members" then .error (.refused (.patchPath o.path))
      else (s.listed ctx.config owner o.addedMembers Members.patchExpectation).map fun users =>
        ((), s.addMembers ctx.clock group users) := by
  rw [addListed]
  dsimp only
  split
  · rfl
  · rw [effect_bind _ (local_listedUsers ctx owner _ _) fun _ => local_modifyStore _, effect_listedUsers]
    cases s.listed ctx.config owner o.addedMembers Members.patchExpectation <;> rfl

theorem effect_removeListed (group : Row .group) (o : PatchOperation) :
    effect (removeListed ctx owner group o) s =
      if o.path == some "members" then
        match o.value with
        | none => .ok ((), s.clearMembers group)
        | some members =>
          ((Members.identifiers members Members.patchExpectation).mapError .refused).bind fun identifiers =>
            (s.resolveMembers ctx.config group identifiers).bind fun users =>
              (s.removeMembers group users).map fun s => ((), s)
      else
        ((memberFilter ctx.config o.path).mapError .refused).bind fun filter =>
          (s.matchingMembers owner group filter).bind fun users =>
            (s.removeMembers group users).map fun s => ((), s) := by
  have hremove (f : Store → Except Failure (List (Row .user))) :
      effect (do
        let users ← look f
        removeUsers group users) s =
      (f s).bind fun users => (s.removeMembers group users).map fun s => ((), s) := by
    rw [effect_look_bind]
    congr 1
    funext users
    exact effect_change _ s
  rw [removeListed]
  split
  · cases o.value with
    | none => rfl
    | some members =>
      dsimp only
      rw [effect_check_bind]
      congr 1
      funext identifiers
      exact hremove _
  · rw [effect_check_bind]
    congr 1
    funext filter
    exact hremove _

theorem effect_replaceInGroup (group : Row .group) (o : PatchOperation) :
    effect (replaceInGroup ctx owner group o) s =
      if o.path == some "members" then
        (s.listed ctx.config owner o.valueOrNull Members.patchExpectation).map fun users =>
          (group, (s.clearMembers group).addMembers ctx.clock group users)
      else effect (replaceAttributes ctx owner group o) s := by
  rw [replaceInGroup]
  split
  · rw [effect_bind _ (local_listedUsers ctx owner _ _) fun _ =>
      (local_replaceMembers ctx group _).bind fun _ => local_pure group, effect_listedUsers]
    cases s.listed ctx.config owner o.valueOrNull Members.patchExpectation <;> rfl
  · rfl

end Effects

/-! ## Successful operations -/

theorem Store.Rewrites.of_updateAttributes {r r' : Row k} (hr : r ∈ (s.table k).rows)
    {attributes : Schema.Values} (ha : ProfileOnly k attributes)
    (he : effect (updateAttributes ctx owner r attributes) s = .ok (r', s')) : s.Rewrites r r' s' := by
  rw [updateAttributes, effect_change] at he
  obtain ⟨-, -, hupdate⟩ := bind_eq_ok.1 he
  exact .of_update hr ha hupdate

theorem Store.Rewrites.of_settled {r r' : Row k} {clock : Nat} {status : Option Bool}
    (hr : r ∈ (s.table k).rows) (he : s.settled clock r status = .ok (r', s')) : s.Rewrites r r' s' := by
  cases status with
  | none =>
    cases he
    exact .refl hr
  | some active => exact .of_setActive hr he

theorem Store.Rewrites.of_applyStatus {r r' : Row k} {status : Option Bool} (hr : r ∈ (s.table k).rows)
    (he : effect (applyStatus ctx r status) s = .ok (r', s')) : s.Rewrites r r' s' := by
  rw [effect_applyStatus] at he
  exact .of_settled hr he

theorem Store.mem_owned_of_listed {c : Config} (h : c.IsStandard) {members : Json} {expected : String}
    {users : List (Row .user)} (husers : s.listed c owner members expected = .ok users) :
    ∀ u ∈ users, u ∈ s.owned .user owner := by
  obtain ⟨identifiers, -, hresolve⟩ := bind_eq_ok.1 husers
  exact s.mem_owned_of_resolve h owner hresolve

namespace Store

/-- At most as many users as one statement takes besides the group can be taken out of it. -/
theorem removeMembers_eq_ok {group : Row .group} {users : List (Row .user)} :
    s.removeMembers group users = .ok s' ↔ users.length < maxVariables ∧ s' = s.withoutMembers group users := by
  rw [removeMembers]
  split
  next hfew => exact ⟨fun h => ⟨hfew, (Except.ok.inj h).symm⟩, fun h => congrArg Except.ok h.2.symm⟩
  next hmany => exact iff_of_false (fun h => nomatch h) fun h => hmany h.1

/-- The members of a group are changed: users of a company are added to them or take their place, or some or
all members are taken out. -/
inductive ChangesMembers (s : Store) (owner : Company) (group : Row .group) : Store → Prop
  | add (clock : Nat) (users : List (Row .user)) (husers : ∀ u ∈ users, u ∈ s.owned .user owner) :
    ChangesMembers s owner group (s.addMembers clock group users)
  | replace (clock : Nat) (users : List (Row .user)) (husers : ∀ u ∈ users, u ∈ s.owned .user owner) :
    ChangesMembers s owner group ((s.clearMembers group).addMembers clock group users)
  | remove (users : List (Row .user)) : ChangesMembers s owner group (s.withoutMembers group users)
  | clear : ChangesMembers s owner group (s.clearMembers group)

private theorem exists_join (s : Store) (clock : Nat) (group : Row .group) (u : Row .user) :
    ∃ memberships, s.join clock group u = { s with memberships } := by
  rw [join]
  split
  · exact ⟨s.memberships, rfl⟩
  · exact ⟨_, rfl⟩

theorem addMembers_eq (s : Store) (clock : Nat) (group : Row .group) (users : List (Row .user)) :
    s.addMembers clock group users = { s with memberships := (s.addMembers clock group users).memberships } := by
  have hadd : ∃ memberships, s.addMembers clock group users = { s with memberships } := by
    induction users generalizing s with
    | nil => exact ⟨s.memberships, rfl⟩
    | cons u rest ih =>
      obtain ⟨joined, hjoin⟩ := exists_join s clock group u
      obtain ⟨memberships, hrest⟩ := ih (s.join clock group u)
      refine ⟨memberships, hrest.trans ?_⟩
      rw [hjoin]
  obtain ⟨memberships, hadd⟩ := hadd
  rw [hadd]

/-- Only memberships change. -/
theorem ChangesMembers.eq {group : Row .group} (h : s.ChangesMembers owner group s') :
    s' = { s with memberships := s'.memberships } := by
  cases h with
  | add clock users => exact s.addMembers_eq clock group users
  | replace clock users => exact (s.clearMembers group).addMembers_eq clock group users
  | remove users => rfl
  | clear => rfl

/-- A row is rewritten, or it is the row of a group and the members of the group are changed. -/
inductive Patches (s : Store) (owner : Company) : (k : Kind) → Row k → Row k → Store → Prop
  | attributes {k : Kind} {r r' : Row k} {s' : Store} (h : s.Rewrites r r' s') : Patches s owner k r r' s'
  | members {group : Row .group} {s' : Store} (hgroup : group ∈ s.groups.rows)
    (h : s.ChangesMembers owner group s') : Patches s owner .group group group s'

namespace Patches

variable {r r' : Row k}

theorem id (h : s.Patches owner k r r' s') : r'.id = r.id := by
  cases h with
  | attributes h => exact h.id
  | members => rfl

theorem uuid (h : s.Patches owner k r r' s') : r'.uuid = r.uuid := by
  cases h with
  | attributes h => exact h.uuid
  | members => rfl

/-- The resource still belongs to its company. -/
theorem mem_owned {company : Company} (h : s.Patches owner k r r' s') (hr : r ∈ s.owned k company) :
    r' ∈ s'.owned k company := by
  cases h with
  | attributes h => exact h.mem_owned hr
  | members hgroup h =>
    rw [h.eq]
    exact hr

end Patches

end Store

section Standard

variable (h : ctx.config.IsStandard)

include h

private theorem rewrites_of_replaceAttributes {r r' : Row k} (hr : r ∈ (s.table k).rows) {o : PatchOperation}
    (he : effect (replaceAttributes ctx owner r o) s = .ok (r', s')) : s.Rewrites r r' s' := by
  rw [effect_replaceAttributes, h.mutableSchema] at he
  obtain ⟨document, -, he⟩ := bind_eq_ok.1 he
  split at he
  · obtain ⟨status, -, he⟩ := bind_eq_ok.1 he
    obtain ⟨⟨r₁, s₁⟩, hwritten, hsettled⟩ := bind_eq_ok.1 he
    have hrewrites : s.Rewrites r r₁ s₁ := by
      rw [Store.written] at hwritten
      split at hwritten
      · cases hwritten
        exact .refl hr
      · exact .of_updateAttributes hr (profileOnly_extractPresent k document)
          ((effect_change _ s).trans hwritten)
    exact hrewrites.trans (.of_settled hrewrites.mem_new hsettled)
  · cases he

private theorem changesMembers_of_addListed {group : Row .group} {o : PatchOperation} {u : Unit}
    (he : effect (addListed ctx owner group o) s = .ok (u, s')) : s.ChangesMembers owner group s' := by
  rw [effect_addListed] at he
  split at he
  · cases he
  · obtain ⟨users, husers, e⟩ := map_eq_ok.1 he
    cases e
    exact .add ctx.clock users (Store.mem_owned_of_listed h husers)

omit h in
private theorem changesMembers_of_removeListed {group : Row .group} {o : PatchOperation} {u : Unit}
    (he : effect (removeListed ctx owner group o) s = .ok (u, s')) : s.ChangesMembers owner group s' := by
  have hremoved (users : List (Row .user)) (he : (s.removeMembers group users).map (fun s => ((), s)) = .ok (u, s')) :
      s.ChangesMembers owner group s' := by
    obtain ⟨removed, hremoved, e⟩ := map_eq_ok.1 he
    obtain ⟨-, rfl⟩ := Store.removeMembers_eq_ok.1 hremoved
    cases e
    exact .remove users
  rw [effect_removeListed] at he
  split at he
  · split at he
    · cases he
      exact .clear
    · obtain ⟨identifiers, -, he⟩ := bind_eq_ok.1 he
      obtain ⟨users, -, he⟩ := bind_eq_ok.1 he
      exact hremoved users he
  · obtain ⟨filter, -, he⟩ := bind_eq_ok.1 he
    obtain ⟨users, -, he⟩ := bind_eq_ok.1 he
    exact hremoved users he

private theorem patches_of_replaceInGroup {r r' : Row .group} (hr : r ∈ s.groups.rows) {o : PatchOperation}
    (he : effect (replaceInGroup ctx owner r o) s = .ok (r', s')) : s.Patches owner .group r r' s' := by
  rw [effect_replaceInGroup] at he
  split at he
  · obtain ⟨users, husers, e⟩ := map_eq_ok.1 he
    cases e
    exact .members hr (.replace ctx.clock users (Store.mem_owned_of_listed h husers))
  · exact .attributes (rewrites_of_replaceAttributes h hr he)

theorem Store.Patches.of_applyOperation {r r' : Row k} (hr : r ∈ (s.table k).rows) {o : PatchOperation}
    (he : effect (applyOperation ctx owner k r o) s = .ok (r', s')) : s.Patches owner k r r' s' := by
  cases k with
  | user =>
    rw [applyOperation] at he
    split at he
    · exact .attributes (rewrites_of_replaceAttributes h hr he)
    · cases he
  | group =>
    rw [applyOperation] at he
    split at he
    · exact patches_of_replaceInGroup h hr he
    · split at he
      · rw [effect_bind _ (local_addListed ctx owner r o) fun _ => local_pure r] at he
        obtain ⟨⟨u, s₁⟩, hadd, hpure⟩ := bind_eq_ok.1 he
        cases hpure
        exact .members hr (changesMembers_of_addListed h hadd)
      · split at he
        · rw [effect_bind _ (local_removeListed ctx owner r o) fun _ => local_pure r] at he
          obtain ⟨⟨u, s₁⟩, hremove, hpure⟩ := bind_eq_ok.1 he
          cases hpure
          exact .members hr (changesMembers_of_removeListed hremove)
        · cases he

/-! ## Operations on attributes and on members -/

/-- An operation replaces attributes of a resource of a kind, and not the members of a group. -/
def PatchOperation.OnAttributes (o : PatchOperation) (k : Kind) : Prop :=
  o.name = "replace" ∧ (k = .group → o.path ≠ some "members")

omit h in
theorem effect_applyOperation_of_onAttributes {r : Row k} {o : PatchOperation} (ho : o.OnAttributes k) :
    effect (applyOperation ctx owner k r o) s = effect (replaceAttributes ctx owner r o) s := by
  obtain ⟨hname, hpath⟩ := ho
  cases k with
  | user => rw [applyOperation, if_pos hname]
  | group =>
    have hmembers : ¬(o.path == some "members") = true := by simpa using hpath rfl
    rw [applyOperation, if_pos hname, effect_replaceInGroup, if_neg hmembers]

/-- Any other operation that is carried out is one on the members of a group, and keeps its row. -/
theorem members_of_applyOperation {r r' : Row k} {o : PatchOperation} (ho : ¬o.OnAttributes k)
    (he : effect (applyOperation ctx owner k r o) s = .ok (r', s')) :
    k = .group ∧ r' = r ∧ ∃ memberships, s' = { s with memberships } := by
  cases k with
  | user =>
    rw [applyOperation] at he
    split at he
    next hname => exact absurd ⟨hname, fun hkind => Kind.noConfusion hkind⟩ ho
    next => cases he
  | group =>
    rw [applyOperation] at he
    split at he
    next hname =>
      rw [effect_replaceInGroup] at he
      split at he
      next =>
        obtain ⟨users, -, e⟩ := map_eq_ok.1 he
        cases e
        exact ⟨rfl, rfl, _, Store.addMembers_eq _ ctx.clock r users⟩
      next hpath => exact absurd ⟨hname, fun _ => by simpa using hpath⟩ ho
    next =>
      split at he
      · rw [effect_bind _ (local_addListed ctx owner r o) fun _ => local_pure r] at he
        obtain ⟨⟨u, s₁⟩, hadd, hpure⟩ := bind_eq_ok.1 he
        cases hpure
        exact ⟨rfl, rfl, _, (changesMembers_of_addListed h hadd).eq⟩
      · split at he
        · rw [effect_bind _ (local_removeListed ctx owner r o) fun _ => local_pure r] at he
          obtain ⟨⟨u, s₁⟩, hremove, hpure⟩ := bind_eq_ok.1 he
          cases hpure
          exact ⟨rfl, rfl, _, (changesMembers_of_removeListed hremove).eq⟩
        · cases he

/-- What an operation that replaces attributes comes to: its document is read, and its attributes and its status are
written. -/
theorem exists_of_replaceAttributes {r r' : Row k} {o : PatchOperation}
    (he : effect (replaceAttributes ctx owner r o) s = .ok (r', s')) :
    ∃ document status r₁ s₁, o.document ctx.config.room (Schema.writable k) = .ok document ∧
      parseActive (document.fieldOrNull "active") = .ok status ∧
      s.written ctx owner r ((Schema.writable k).extractPresent document) = .ok (r₁, s₁) ∧
      s₁.settled ctx.clock r₁ status = .ok (r', s') := by
  rw [effect_replaceAttributes, h.mutableSchema] at he
  obtain ⟨document, hdocument, he⟩ := bind_eq_ok.1 he
  split at he
  · obtain ⟨status, hstatus, he⟩ := bind_eq_ok.1 he
    obtain ⟨⟨r₁, s₁⟩, hwritten, hsettled⟩ := bind_eq_ok.1 he
    exact ⟨document, status, r₁, s₁, hdocument, PatchOperation.status_eq_ok.1 hstatus, hwritten, hsettled⟩
  · cases he

end Standard

end Roster
