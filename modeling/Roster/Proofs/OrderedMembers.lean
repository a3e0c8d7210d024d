import Roster.Proofs.GroupAttributes
import Roster.Proofs.MemberLists
import Roster.Proofs.NamedMembers
import Roster.Proofs.NaturalKeys
import Roster.Proofs.PatchSequence
import Roster.Proofs.Sample

/-!
The members of a group under PATCH requests are an ordered set.

The set is the list of the identifiers of the members, and each operation makes another list of it or is
refused, whatever else is in the store.
-/

set_option autoImplicit false

namespace Roster

open Step

/-- Whether an operation that replaces attributes of a group is accepted. -/
def PatchOperation.attributesVerdict (room : Nat) (o : PatchOperation) : Except Failure Unit := do
  let document ← o.document room (Schema.writable .group)
  if !document.isObject then throw (.refused .patchValue)
  let _ ← PatchOperation.status room document
  storable ((Schema.writable .group).extractPresent document)

/-- The members that an operation lists are given by texts. -/
structure PatchOperation.ListsTexts (o : PatchOperation) : Prop where
  added : o.name = "add" → Members.AreTexts o.addedMembers
  listed : o.path = some "members" → Members.AreTexts o.valueOrNull

/-- The members without some of them, if one statement can name those who are left out. -/
def withoutListed (members gone : List String) : Except Failure (List String) :=
  if gone.eraseDups.length < Store.maxVariables then .ok (members.filter fun u => !gone.contains u)
  else .error (.fault .store)

/-- What an operation makes of the members of a group, given the users that may be members. -/
def memberStep (c : Config) (users members : List String) (o : PatchOperation) :
    Except Failure (List String) :=
  if o.name = "add" then
    if o.path = none ∨ o.path = some "members" then
      (soughtAmong users o.addedMembers).map fun listed => including members listed
    else .error (.refused (.patchPath o.path))
  else if o.name = "replace" then
    if o.path = some "members" then (soughtAmong users o.valueOrNull).map List.eraseDups
    else (o.attributesVerdict c.room).map fun _ => members
  else if o.name = "remove" then
    if o.path = some "members" then
      match o.value with
      | none => .ok []
      | some value => (listedAmong members value).bind fun listed => withoutListed members listed
    else
      ((memberFilter c o.path).mapError Failure.refused).bind fun e =>
        if e.isTooLong && !users.isEmpty then .error (.fault .store)
        else withoutListed members (members.filter e.selects)
  else .error (.refused (.patchOperation .group))

/-! ## One operation -/

/-- The users of a company that a test on identifiers selects and that are found to be members of a group. -/
private def Store.foundMembers (s : Store) (owner : Company) (group : Row .group) (selects : String → Bool) :
    List (Row .user) :=
  (sortRows [(.id, false)] ((s.owned .user owner).filter fun u => selects u.uuid)).filter fun u =>
    (s.membersOf group).any fun m => m.id == u.id

private theorem mem_rows_of_foundMembers {s : Store} {owner : Company} {group : Row .group} {selects : String → Bool}
    {u : Row .user} (hu : u ∈ s.foundMembers owner group selects) : u ∈ s.users.rows := by
  have hsorted := (List.mem_filter.1 hu).1
  rw [Store.sortRows, List.mem_mergeSort] at hsorted
  exact Store.mem_rows_of_owned (List.mem_filter.1 hsorted).1

section Found

variable {s : Store} {owner : Company} {group : Row .group}
  (hlocal : ∀ u ∈ s.membersOf group, u ∈ s.owned .user owner) (selects : String → Bool)

include hlocal

/-- Members that are users of a company are found among its users. -/
private theorem mem_foundMembers {uuid : String} :
    uuid ∈ (s.foundMembers owner group selects).map Row.uuid ↔ uuid ∈ (s.memberUuids group).filter selects := by
  rw [List.mem_map, List.mem_filter, Store.memberUuids, List.mem_map]
  constructor
  · rintro ⟨u, hu, rfl⟩
    obtain ⟨hsorted, hmember⟩ := List.mem_filter.1 hu
    rw [Store.sortRows, List.mem_mergeSort] at hsorted
    obtain ⟨m, hm, hid⟩ := List.any_eq_true.1 hmember
    have hmu : m = u :=
      Table.eq_of_id (Store.mem_of_mem_membersOf hm) (mem_rows_of_foundMembers hu) (beq_iff_eq.1 hid)
    exact ⟨⟨m, hm, congrArg Row.uuid hmu⟩, (List.mem_filter.1 hsorted).2⟩
  · rintro ⟨⟨u, hu, rfl⟩, hselects⟩
    refine ⟨u, List.mem_filter.2 ⟨?_, List.any_eq_true.2 ⟨u, hu, beq_self_eq_true _⟩⟩, rfl⟩
    rw [Store.sortRows, List.mem_mergeSort]
    exact List.mem_filter.2 ⟨hlocal u hu, hselects⟩

private theorem memberUuids_withoutFound :
    (s.withoutMembers group (s.foundMembers owner group selects)).memberUuids group =
      (s.memberUuids group).filter fun uuid => !((s.memberUuids group).filter selects).contains uuid := by
  rw [Store.memberUuids_withoutMembers fun _ => mem_rows_of_foundMembers]
  refine List.filter_congr fun uuid _ => congrArg not ?_
  rw [Bool.eq_iff_iff, List.contains_iff_mem, List.contains_iff_mem]
  exact mem_foundMembers hlocal selects

/-- Each of the members that are selected is found once. -/
private theorem length_foundMembers :
    (s.foundMembers owner group selects).length = ((s.memberUuids group).filter selects).eraseDups.length := by
  have hnodup : ((s.foundMembers owner group selects).map Row.uuid).Nodup := by
    have hrows : (s.foundMembers owner group selects).Nodup :=
      ((List.mergeSort_perm _ _).nodup_iff.2 ((s.nodup_owned .user owner).filter _)).filter _
    refine hrows.map_on fun u hu v hv huuid => ?_
    exact Table.eq_of_uuid (mem_rows_of_foundMembers hu) (mem_rows_of_foundMembers hv) huuid
  have hperm : ((s.foundMembers owner group selects).map Row.uuid).Perm
      ((s.memberUuids group).filter selects).eraseDups := by
    refine (List.perm_ext_iff_of_nodup hnodup (nodup_eraseDups _)).2 fun uuid => ?_
    rw [List.mem_eraseDups]
    exact mem_foundMembers hlocal selects
  rw [← hperm.length_eq, List.length_map]

end Found

section Steps

variable {c : Config} (h : c.IsStandard) {clock : Nat} {owner : Company} {s s' : Store} {group : Row .group}

include h

private theorem memberUuids_of_addListed {o : PatchOperation} (htexts : Members.AreTexts o.addedMembers) :
    (effect (addListed ⟨c, clock⟩ owner group o) s).map (fun p => p.2.memberUuids group) =
      if o.path = none ∨ o.path = some "members" then
        (soughtAmong ((s.owned .user owner).map Row.uuid) o.addedMembers).map fun listed =>
          including (s.memberUuids group) listed
      else .error (.refused (.patchPath o.path)) := by
  have hpath : (o.path != none && o.path != some "members") = true ↔
      ¬(o.path = none ∨ o.path = some "members") := by
    rw [Bool.and_eq_true, bne_iff_ne, bne_iff_ne, not_or]
  rw [effect_addListed]
  by_cases hlisting : o.path = none ∨ o.path = some "members"
  · rw [if_neg fun e => hpath.1 e hlisting, if_pos hlisting]
    rcases listed_cases h s owner htexts with ⟨e, he, hlisted⟩ | ⟨users, texts, husers, hlisted, huuids, hrows⟩
    · rw [he, hlisted]
      rfl
    · rw [husers, hlisted]
      change Except.ok ((s.addMembers clock group users).memberUuids group) = .ok _
      rw [Store.memberUuids_addMembers clock hrows, huuids, including_eraseDups]
  · rw [if_pos (hpath.2 hlisting), if_neg hlisting]
    rfl

private theorem memberUuids_of_replaceMembers {o : PatchOperation} (htexts : Members.AreTexts o.valueOrNull) :
    ((s.listed c owner o.valueOrNull Members.patchExpectation).map fun users =>
        (s.clearMembers group).addMembers clock group users).map (fun s' => s'.memberUuids group) =
      (soughtAmong ((s.owned .user owner).map Row.uuid) o.valueOrNull).map List.eraseDups := by
  rcases listed_cases h s owner htexts with ⟨e, he, hlisted⟩ | ⟨users, texts, husers, hlisted, huuids, hrows⟩
  · rw [he, hlisted]
    rfl
  · have hcleared : ∀ u ∈ users, u ∈ (s.clearMembers group).users.rows := hrows
    rw [husers, hlisted]
    change Except.ok (((s.clearMembers group).addMembers clock group users).memberUuids group) = .ok texts.eraseDups
    rw [Store.memberUuids_addMembers clock hcleared, huuids, Store.memberUuids_clearMembers, including_eraseDups,
      including_nil_left]

private theorem memberUuids_of_removeNamed {members : Json} (htexts : Members.AreTexts members) :
    ((((Members.identifiers members Members.patchExpectation).mapError Failure.refused).bind fun identifiers =>
        (s.resolveMembers c group identifiers).bind fun users => s.removeMembers group users).map
      fun s' => s'.memberUuids group) =
      (listedAmong (s.memberUuids group) members).bind fun listed => withoutListed (s.memberUuids group) listed := by
  rw [← bind_bind]
  rcases resolveMembers_cases h s group htexts with
    ⟨e, he, hlisted⟩ | ⟨users, texts, husers, hlisted, huuids, hrows⟩
  · rw [he, hlisted]
    rfl
  · have hlength : users.length = texts.eraseDups.length := by rw [← huuids, List.length_map]
    have hfilter : (s.withoutMembers group users).memberUuids group =
        (s.memberUuids group).filter fun u => !texts.contains u := by
      rw [Store.memberUuids_withoutMembers hrows, huuids]
      refine List.filter_congr fun u _ => congrArg not ?_
      rw [Bool.eq_iff_iff, List.contains_iff_mem, List.contains_iff_mem, List.mem_eraseDups]
    rw [husers, hlisted]
    change (s.removeMembers group users).map _ = withoutListed _ _
    rw [Store.removeMembers, withoutListed, hlength, ← hfilter]
    split <;> rfl

/-- The members that a filter selects are those users of the company that it selects. -/
private theorem memberUuids_of_removeMatching (hlocal : ∀ u ∈ s.membersOf group, u ∈ s.owned .user owner)
    {path : Option String} :
    (((memberFilter c path).mapError Failure.refused).bind fun e =>
        (s.matchingMembers owner group e).bind fun users => s.removeMembers group users).map
      (fun s' => s'.memberUuids group) =
      ((memberFilter c path).mapError Failure.refused).bind fun e =>
        if e.isTooLong && !((s.owned .user owner).map Row.uuid).isEmpty then .error (.fault .store)
        else withoutListed (s.memberUuids group) ((s.memberUuids group).filter e.selects) := by
  cases hfilter : memberFilter c path with
  | error cause => rfl
  | ok e =>
    change ((s.matchingMembers owner group e).bind _).map _ = _
    rw [matchingMembers_eq (column_of_memberFilter h hfilter)]
    change _ = if _ then _ else _
    split
    · rfl
    · change (s.removeMembers group (s.foundMembers owner group e.selects)).map _ = withoutListed _ _
      rw [Store.removeMembers, withoutListed, length_foundMembers hlocal, ← memberUuids_withoutFound hlocal]
      split <;> rfl

/-- Attributes can be written unless they cannot be stored, and the members stay. -/
private theorem memberUuids_of_written (hgroup : group ∈ s.owned .group owner) (document : Json)
    (status : Option Bool) :
    (((s.written ⟨c, clock⟩ owner group ((Schema.writable .group).extractPresent document)).bind
        fun p => p.2.settled clock p.1 status).map fun p => p.2.memberUuids group) =
      (storable ((Schema.writable .group).extractPresent document)).map fun _ => s.memberUuids group := by
  have hrow : group ∈ (s.table .group).rows := Store.mem_rows_of_owned hgroup
  have hsettled (r : Row .group) (s₁ : Store) (hw : s.Rewrites group r s₁) :
      (s₁.settled clock r status).map (fun p => p.2.memberUuids group) = .ok (s.memberUuids group) := by
    cases status with
    | none => exact congrArg Except.ok (hw.memberUuids rfl)
    | some active =>
      obtain ⟨r', s', hset, hw'⟩ := Store.exists_setActive clock hw.mem_new active
      rw [Store.settled, hset]
      exact congrArg Except.ok ((hw.trans hw').memberUuids rfl)
  rw [Store.written]
  split
  next hempty =>
    rw [List.isEmpty_iff.1 hempty]
    exact hsettled group s (.refl hrow)
  next =>
    rw [← update_verdict hgroup clock document, s.checkKey_group h, ok_bind, map_bind]
    cases hupdate : s.update clock group ((Schema.writable .group).extractPresent document) with
    | error e => rfl
    | ok p =>
      have hprofile := profileOnly_extractPresent .group document
      have hw : s.Rewrites group p.1 p.2 := .of_update hrow hprofile hupdate
      exact hsettled p.1 p.2 hw

private theorem memberUuids_of_replaceAttributes (hgroup : group ∈ s.owned .group owner) (o : PatchOperation) :
    (effect (replaceAttributes ⟨c, clock⟩ owner group o) s).map (fun p => p.2.memberUuids group) =
      (o.attributesVerdict c.room).map fun _ => s.memberUuids group := by
  rw [effect_replaceAttributes, h.mutableSchema, PatchOperation.attributesVerdict]
  cases o.document c.room (Schema.writable .group) with
  | error e => rfl
  | ok document =>
    change (if document.isObject then _ else _ : Except Failure (Row .group × Store)).map _ = _
    rw [ok_bind]
    dsimp only
    cases document.isObject with
    | false => rfl
    | true =>
      rw [if_pos rfl]
      cases PatchOperation.status c.room document with
      | error e => rfl
      | ok status => exact memberUuids_of_written h hgroup document status

private theorem memberUuids_of_replaceInGroup (hgroup : group ∈ s.owned .group owner) {o : PatchOperation}
    (htexts : o.path = some "members" → Members.AreTexts o.valueOrNull) :
    (effect (replaceInGroup ⟨c, clock⟩ owner group o) s).map (fun p => p.2.memberUuids group) =
      if o.path = some "members" then
        (soughtAmong ((s.owned .user owner).map Row.uuid) o.valueOrNull).map List.eraseDups
      else (o.attributesVerdict c.room).map fun _ => s.memberUuids group := by
  rw [effect_replaceInGroup]
  by_cases hpath : o.path = some "members"
  · rw [if_pos (beq_iff_eq.2 hpath), if_pos hpath, ← memberUuids_of_replaceMembers h (htexts hpath), map_map,
      map_map]
  · rw [if_neg (mt beq_iff_eq.1 hpath), if_neg hpath]
    exact memberUuids_of_replaceAttributes h hgroup o

private theorem memberUuids_of_removeListed (hlocal : ∀ u ∈ s.membersOf group, u ∈ s.owned .user owner)
    {o : PatchOperation} (htexts : o.path = some "members" → Members.AreTexts o.valueOrNull) :
    (effect (removeListed ⟨c, clock⟩ owner group o) s).map (fun p => p.2.memberUuids group) =
      if o.path = some "members" then
        match o.value with
        | none => .ok []
        | some members =>
          (listedAmong (s.memberUuids group) members).bind fun listed => withoutListed (s.memberUuids group) listed
      else
        ((memberFilter c o.path).mapError Failure.refused).bind fun e =>
          if e.isTooLong && !((s.owned .user owner).map Row.uuid).isEmpty then .error (.fault .store)
          else withoutListed (s.memberUuids group) ((s.memberUuids group).filter e.selects) := by
  rw [effect_removeListed]
  by_cases hpath : o.path = some "members"
  · rw [if_pos (beq_iff_eq.2 hpath), if_pos hpath]
    have htexts := htexts hpath
    rw [PatchOperation.valueOrNull] at htexts
    cases hvalue : o.value with
    | none => exact congrArg Except.ok (s.memberUuids_clearMembers group)
    | some members =>
      rw [hvalue, Option.getD_some] at htexts
      dsimp only
      rw [← memberUuids_of_removeNamed h htexts]
      simp only [map_bind, map_map]
  · rw [if_neg (mt beq_iff_eq.1 hpath), if_neg hpath, ← memberUuids_of_removeMatching h hlocal]
    simp only [map_bind, map_map]

variable (clock) in
/-- What an operation makes of the members of a group depends on nothing but the members and the users of the
company. -/
theorem memberUuids_of_applyOperation (hgroup : group ∈ s.owned .group owner)
    (hlocal : ∀ u ∈ s.membersOf group, u ∈ s.owned .user owner) {o : PatchOperation} (htexts : o.ListsTexts) :
    (effect (applyOperation ⟨c, clock⟩ owner .group group o) s).map (fun p => p.2.memberUuids group) =
      memberStep c ((s.owned .user owner).map Row.uuid) (s.memberUuids group) o := by
  rw [applyOperation, memberStep]
  by_cases hadd : o.name = "add"
  · have hreplace : o.name ≠ "replace" := by
      rw [hadd]
      decide
    rw [if_neg hreplace, if_pos hadd, if_pos hadd, effect_return (local_addListed _ owner group o), map_map]
    exact memberUuids_of_addListed h (htexts.added hadd)
  · rw [if_neg hadd, if_neg hadd]
    by_cases hreplace : o.name = "replace"
    · rw [if_pos hreplace, if_pos hreplace]
      exact memberUuids_of_replaceInGroup h hgroup htexts.listed
    · rw [if_neg hreplace, if_neg hreplace]
      by_cases hremove : o.name = "remove"
      · rw [if_pos hremove, if_pos hremove, effect_return (local_removeListed _ owner group o), map_map]
        exact memberUuids_of_removeListed h hlocal htexts.listed
      · rw [if_neg hremove, if_neg hremove]
        rfl

end Steps

/-! ## One operation after the other -/

section Runs

variable {owner : Company} {s s' : Store} {group group' : Row .group}

/-- A new membership is one of a user of the company. -/
private theorem mem_memberships_of_changesMembers (h : s.ChangesMembers owner group s') {m : Membership}
    (hm : m ∈ s'.memberships) : m ∈ s.memberships ∨ ∃ u ∈ s.owned .user owner, u.id = m.user := by
  have hnew {users : List (Row .user)} (husers : ∀ u ∈ users, u ∈ s.owned .user owner) {clock : Nat}
      (hm : ∃ u ∈ users, m = ⟨group.id, u.id, clock⟩) : ∃ u ∈ s.owned .user owner, u.id = m.user := by
    obtain ⟨u, hu, rfl⟩ := hm
    exact ⟨u, husers u hu, rfl⟩
  cases h with
  | add clock users husers => exact (Store.mem_memberships_addMembers hm).imp_right (hnew husers)
  | replace clock users husers =>
    rcases Store.mem_memberships_addMembers hm with hm | hm
    · exact .inl (List.mem_filter.1 hm).1
    · exact .inr (hnew husers hm)
  | remove users => exact .inl (List.mem_filter.1 hm).1
  | clear => exact .inl (List.mem_filter.1 hm).1

private theorem users_of_patches (h : s.Patches owner .group group group' s') : s'.users = s.users := by
  cases h with
  | attributes h =>
    obtain ⟨t, rfl, -⟩ := h.store
    rfl
  | members _ h => rw [h.eq]

/-- The members of the group are still users of its company. -/
private theorem local_of_patches (h : s.Patches owner .group group group' s')
    (hlocal : ∀ u ∈ s.membersOf group, u ∈ s.owned .user owner) :
    ∀ u ∈ s'.membersOf group', u ∈ s.owned .user owner := by
  intro u hmember
  obtain ⟨hu, hnumber⟩ := Store.mem_membersOf.1 hmember
  obtain ⟨m, hm, hgroup, hid⟩ := Store.mem_memberNumbers.1 hnumber
  rw [users_of_patches h] at hu
  rw [h.id] at hgroup
  have hold (hm : m ∈ s.memberships) : u ∈ s.owned .user owner :=
    hlocal u (Store.mem_membersOf.2 ⟨hu, Store.mem_memberNumbers.2 ⟨m, hm, hgroup, hid⟩⟩)
  cases h with
  | attributes h => exact hold (h.memberships ▸ hm)
  | members _ h =>
    rcases mem_memberships_of_changesMembers h hm with hm | ⟨v, hv, hvm⟩
    · exact hold hm
    · have hvu : v = u := Table.eq_of_id (Store.mem_rows_of_owned hv) hu (hvm.trans hid)
      exact hvu ▸ hv

theorem memberUuids_of_patched {c : Config} (h : c.IsStandard) (clock : Nat)
    (operations : List PatchOperation) (hgroup : group' ∈ s.owned .group owner) (hid : group'.id = group.id)
    (hlocal : ∀ u ∈ s.membersOf group', u ∈ s.owned .user owner) (htexts : ∀ o ∈ operations, o.ListsTexts) :
    ((s.patched ⟨c, clock⟩ owner group' operations).1.map fun _ =>
        (s.patched ⟨c, clock⟩ owner group' operations).2.memberUuids group) =
      operations.foldlM (memberStep c ((s.owned .user owner).map Row.uuid)) (s.memberUuids group) := by
  induction operations generalizing s group' with
  | nil => rfl
  | cons o rest ih =>
    have hstep := memberUuids_of_applyOperation h clock hgroup hlocal (htexts o List.mem_cons_self)
    rw [s.memberUuids_of_id hid] at hstep
    rw [List.foldlM_cons, ← hstep, Store.patched]
    cases he : effect (applyOperation ⟨c, clock⟩ owner .group group' o) s with
    | error e => rfl
    | ok p =>
      obtain ⟨r, s₁⟩ := p
      have hrow : group' ∈ (s.table .group).rows := Store.mem_rows_of_owned hgroup
      have hpatches : s.Patches owner .group group' r s₁ := .of_applyOperation h hrow he
      have husers : s₁.owned .user owner = s.owned .user owner := by
        rw [Store.owned, Store.table, users_of_patches hpatches]
        rfl
      have hlocal' := local_of_patches hpatches hlocal
      have hrest := ih (hpatches.mem_owned hgroup) (hpatches.id.trans hid) (husers ▸ hlocal')
        fun o' ho' => htexts o' (List.mem_cons_of_mem o ho')
      rw [husers] at hrest
      change _ = (Except.ok (s₁.memberUuids group') >>= _ : Except Failure (List String))
      rw [ok_bind, s₁.memberUuids_of_id hid]
      exact hrest

end Runs

/-- The members of a group after an atomic PATCH request are what its operations make of the list of its
members, one after the other. The request is refused as the first operation is that is refused, and then
nothing changes. -/
theorem patched_members_eq_foldlM {s : Settings} {c : Config} (hb : Config.build s = .ok c)
    (hs : s.customUserAttributes = []) (atomic : s.atomicPatch = true) (hdefault : 0 ≤ s.defaultPageSize)
    (hmax : ∀ n, s.maxPageSize = some n → 0 ≤ n) (clock : Nat) (d : Directory) {owner : Company}
    {group : Row .group} (hgroup : group ∈ d.store.owned .group owner)
    (hlocal : ∀ u ∈ d.store.membersOf group, u ∈ d.store.owned .user owner)
    (operations : List PatchOperation) (htexts : ∀ o ∈ operations, o.ListsTexts) :
    ((d.perform ⟨c, clock⟩ owner (.patch .group (.str group.uuid) operations)).result.map fun _ =>
        (d.perform ⟨c, clock⟩ owner (.patch .group (.str group.uuid) operations)).directory.store.memberUuids
          group) =
      operations.foldlM (memberStep c ((d.store.owned .user owner).map Row.uuid)) (d.store.memberUuids group) ∧
    ∀ e, (d.perform ⟨c, clock⟩ owner (.patch .group (.str group.uuid) operations)).result = .error e →
      (d.perform ⟨c, clock⟩ owner (.patch .group (.str group.uuid) operations)).directory = d := by
  have h := Config.isStandard_of_build hb hs
  have hatomic : c.atomicPatch = true := (Config.atomicPatch_of_build hb).trans atomic
  obtain ⟨pager, hserve⟩ := Config.exists_serve hb hdefault hmax .group
  have hget : d.store.get c .group owner (.str group.uuid) = .ok group :=
    (d.store.get_eq_ok h owner).2 ⟨rfl, hgroup, rfl⟩
  have hmembers := memberUuids_of_patched h clock operations hgroup rfl hlocal htexts
  obtain ⟨hresult, hdirectory⟩ := perform_patch ⟨c, clock⟩ owner h d hserve hget operations
  rw [hresult, hdirectory, ← hmembers]
  generalize d.store.patched ⟨c, clock⟩ owner group operations = p
  obtain ⟨result, left⟩ := p
  cases result with
  | error e =>
    refine ⟨rfl, fun _ _ => ?_⟩
    dsimp only
    rw [hatomic]
    rfl
  | ok r =>
    refine ⟨rfl, fun e he => ?_⟩
    cases he

private def addWithoutPath (uuids : List String) : PatchOperation :=
  ⟨"add", none, some (.obj [("members", Members.ofTexts uuids)])⟩

private theorem listsTexts_addWithoutPath (uuids : List String) : (addWithoutPath uuids).ListsTexts where
  added _ := Members.areTexts_ofTexts uuids
  listed hpath := nomatch hpath

private theorem staff_mem_owned : Sample.staff ∈ Sample.directory.store.owned .group Sample.acme := by
  decide +kernel

private theorem staff_members_mem_owned : ∀ u ∈ Sample.directory.store.membersOf Sample.staff,
    u ∈ Sample.directory.store.owned .user Sample.acme := by
  decide +kernel

private def reshuffle : List PatchOperation :=
  [Sample.replaceMembers "u2", addWithoutPath ["u1", "u2", "u1"],
    ⟨"remove", some "members[value eq u2]", none⟩]

/-- One user takes the place of the other, and the other comes back and is then the only member. -/
theorem patched_members_eq_foldlM_sample :
    (Sample.directory.perform ⟨Sample.config true, 7⟩ Sample.acme
          (.patch .group (.str Sample.staff.uuid) reshuffle)).result.map (fun _ =>
        (Sample.directory.perform ⟨Sample.config true, 7⟩ Sample.acme
          (.patch .group (.str Sample.staff.uuid) reshuffle)).directory.store.memberUuids Sample.staff) =
      .ok ["u1"] := by
  have htexts : ∀ o ∈ reshuffle, o.ListsTexts := by
    intro o ho
    rcases List.mem_cons.1 ho with rfl | ho
    · exact ⟨fun hname => absurd hname (by decide +kernel), fun _ => Members.areTexts_ofTexts ["u2"]⟩
    · rcases List.mem_cons.1 ho with rfl | ho
      · exact listsTexts_addWithoutPath _
      · obtain rfl := List.mem_singleton.1 ho
        exact ⟨fun hname => absurd hname (by decide +kernel), fun hpath => absurd hpath (by decide)⟩
  have hfold := (patched_members_eq_foldlM (Sample.build_config true) rfl rfl (by decide)
    (fun n hn => by cases hn; decide) 7 Sample.directory staff_mem_owned staff_members_mem_owned reshuffle
    htexts).1
  rw [hfold]
  decide +kernel

/-- A request that adds more users than one statement looks for is an error of the store, and nobody is found. -/
private theorem perform_addCrowd :
    (Sample.directory.perform ⟨Sample.config true, 7⟩ Sample.acme
      (.patch .group (.str Sample.staff.uuid) [addWithoutPath Sample.crowd])).result = .error (.fault .store) := by
  have h : (Sample.config true).IsStandard := Config.isStandard_of_build (Sample.build_config true) rfl
  obtain ⟨pager, hserve⟩ := Config.exists_serve (Sample.build_config true) (by decide) (fun n hn => by cases hn; decide)
    .group
  have hget : Sample.directory.store.get (Sample.config true) .group Sample.acme (.str Sample.staff.uuid) =
      .ok Sample.staff := (Sample.directory.store.get_eq_ok h Sample.acme).2 ⟨rfl, staff_mem_owned, rfl⟩
  have htexts : ∀ o ∈ [addWithoutPath Sample.crowd], o.ListsTexts := by
    intro o ho
    obtain rfl := List.mem_singleton.1 ho
    exact listsTexts_addWithoutPath _
  have hmany : ¬Members.AreFew (Members.ofTexts Sample.crowd) := by
    intro hfew
    have hlength := hfew Sample.crowd (Members.texts?_ofTexts _)
    rw [eraseDups_of_nodup Sample.nodup_crowd, Sample.length_crowd] at hlength
    exact Nat.lt_irrefl _ hlength
  have hstep (users members : List String) : memberStep (Sample.config true) users members
      (addWithoutPath Sample.crowd) = .error (.fault .store) := by
    have hsought : soughtAmong users (addWithoutPath Sample.crowd).addedMembers = .error (.fault .store) :=
      if_neg hmany
    have hname : (addWithoutPath Sample.crowd).name = "add" := by
      have hop : (addWithoutPath Sample.crowd).name = String.ofList (Text.lowerPlain "add".toList) := rfl
      rw [hop]
      decide
    rw [memberStep, if_pos hname, if_pos (.inl rfl), hsought]
    rfl
  have hmembers := memberUuids_of_patched h 7 _ staff_mem_owned rfl staff_members_mem_owned htexts
  rw [List.foldlM_cons, hstep] at hmembers
  rw [(perform_patch ⟨Sample.config true, 7⟩ Sample.acme h Sample.directory hserve hget _).1]
  generalize Sample.directory.store.patched ⟨Sample.config true, 7⟩ Sample.acme Sample.staff
    [addWithoutPath Sample.crowd] = p at hmembers ⊢
  obtain ⟨result, left⟩ := p
  cases result with
  | error e =>
    obtain rfl : e = .fault .store := Except.error.inj hmembers
    rfl
  | ok r => cases hmembers

/-- Two conditions cannot be left out. A configuration with a negative page size can be built, and its services refuse
every request; and a list of users that is longer than one statement takes is not refused with the status of what is
not found, although it names users that do not exist. -/
theorem not_patched_members_eq_foldlM :
    (¬∀ {s : Settings} {c : Config}, Config.build s = .ok c → s.customUserAttributes = [] →
      s.atomicPatch = true → ∀ (clock : Nat) (d : Directory) {owner : Company} {group : Row .group},
      group ∈ d.store.owned .group owner → (∀ u ∈ d.store.membersOf group, u ∈ d.store.owned .user owner) →
      ∀ operations : List PatchOperation, (∀ o ∈ operations, o.ListsTexts) →
        ((d.perform ⟨c, clock⟩ owner (.patch .group (.str group.uuid) operations)).result.map fun _ =>
            (d.perform ⟨c, clock⟩ owner
              (.patch .group (.str group.uuid) operations)).directory.store.memberUuids group) =
          operations.foldlM (memberStep c ((d.store.owned .user owner).map Row.uuid))
            (d.store.memberUuids group)) ∧
    ¬∀ {s : Settings} {c : Config}, Config.build s = .ok c → s.customUserAttributes = [] →
      s.atomicPatch = true → 0 ≤ s.defaultPageSize → (∀ n, s.maxPageSize = some n → 0 ≤ n) →
      ∀ (clock : Nat) (d : Directory) {owner : Company} {group : Row .group}, group ∈ d.store.owned .group owner →
      (∀ u ∈ d.store.membersOf group, u ∈ d.store.owned .user owner) →
      ∀ uuids : List String, (∃ uuid ∈ uuids, uuid ∉ (d.store.owned .user owner).map Row.uuid) →
        ∃ cause : Error, cause.status = 404 ∧ (d.perform ⟨c, clock⟩ owner (.patch .group (.str group.uuid)
          [⟨"add", none, some (.obj [("members", Members.ofTexts uuids)])⟩])).result = .error (.refused cause) := by
  constructor
  · intro hfold
    have hbuild : Config.build { defaultPageSize := -1 } =
        .ok { Sample.config true with defaultPageSize := -1 } := rfl
    have htexts : ∀ o ∈ [addWithoutPath ["u2"]], o.ListsTexts := by
      intro o ho
      obtain rfl := List.mem_singleton.1 ho
      exact listsTexts_addWithoutPath _
    have hmembers := hfold hbuild rfl rfl 7 Sample.directory staff_mem_owned staff_members_mem_owned _ htexts
    have hadded : [addWithoutPath ["u2"]].foldlM (memberStep { Sample.config true with defaultPageSize := -1 }
        ((Sample.directory.store.owned .user Sample.acme).map Row.uuid))
        (Sample.directory.store.memberUuids Sample.staff) = .ok ["u1", "u2"] := by decide +kernel
    have hrefused : (Sample.directory.perform ⟨{ Sample.config true with defaultPageSize := -1 }, 7⟩
        Sample.acme (.patch .group (.str Sample.staff.uuid) [addWithoutPath ["u2"]])).result.isOk = false := by
      decide +kernel
    rw [hadded] at hmembers
    obtain ⟨answer, hanswer, -⟩ := map_eq_ok.1 hmembers
    rw [hanswer] at hrefused
    cases hrefused
  · intro hall
    have hunknown : "" ∈ Sample.crowd ∧ "" ∉ (Sample.directory.store.owned .user Sample.acme).map Row.uuid :=
      ⟨List.mem_map.2 ⟨0, List.mem_range.2 (by decide), rfl⟩, by decide +kernel⟩
    obtain ⟨cause, -, hresult⟩ := hall (Sample.build_config true) rfl rfl (by decide)
      (fun n hn => by cases hn; decide) 7 Sample.directory staff_mem_owned staff_members_mem_owned Sample.crowd
      ⟨"", hunknown⟩
    have hfault := perform_addCrowd
    rw [addWithoutPath, hresult] at hfault
    cases hfault

end Roster
