import Mathlib.Data.List.Nodup
import Roster.Proofs.Distinct
import Roster.Proofs.Lookup

/-!
The members of a group in their order.

A group is seen as the list of the identifiers of its members. Adding users takes up those that are not
listed, removing users leaves out those that are named, and rewriting rows changes nothing.
-/

set_option autoImplicit false

namespace Roster.Store

variable {s : Store} {group : Row .group}

/-- The identifiers of the members of a group, in the order in which they became members. -/
def memberUuids (s : Store) (group : Row .group) : List String :=
  (s.membersOf group).map Row.uuid

/-- The numbers of the users that memberships join to a group, in the order of the memberships. -/
def memberNumbers (s : Store) (group : Row .group) : List Int :=
  (s.memberships.filter fun m => m.group == group.id).map Membership.user

theorem mem_memberNumbers {id : Int} :
    id ∈ s.memberNumbers group ↔ ∃ m ∈ s.memberships, m.group = group.id ∧ m.user = id := by
  rw [memberNumbers, List.mem_map]
  constructor
  · rintro ⟨m, hm, hid⟩
    obtain ⟨hm, hgroup⟩ := List.mem_filter.1 hm
    exact ⟨m, hm, beq_iff_eq.1 hgroup, hid⟩
  · rintro ⟨m, hm, hgroup, hid⟩
    exact ⟨m, List.mem_filter.2 ⟨hm, beq_iff_eq.2 hgroup⟩, hid⟩

theorem isMember_iff {u : Row .user} : s.isMember group u = true ↔ u.id ∈ s.memberNumbers group := by
  simp [isMember, mem_memberNumbers]

theorem membersOf_eq (s : Store) (group : Row .group) :
    s.membersOf group = (s.memberNumbers group).filterMap s.users.find? := by
  rw [membersOf, memberNumbers, List.filterMap_map]
  rfl

theorem mem_membersOf {u : Row .user} :
    u ∈ s.membersOf group ↔ u ∈ s.users.rows ∧ u.id ∈ s.memberNumbers group := by
  rw [membersOf_eq, List.mem_filterMap]
  constructor
  · rintro ⟨id, hid, hu⟩
    obtain ⟨hrow, rfl⟩ := Table.find?_eq_some_iff.1 hu
    exact ⟨hrow, hid⟩
  · rintro ⟨hu, hid⟩
    exact ⟨u.id, hid, Table.find?_eq_some_iff.2 ⟨hu, rfl⟩⟩

theorem uuid_mem_memberUuids {u : Row .user} (hu : u ∈ s.users.rows) :
    u.uuid ∈ s.memberUuids group ↔ u.id ∈ s.memberNumbers group := by
  constructor
  · intro h
    obtain ⟨v, hv, huuid⟩ := List.mem_map.1 h
    obtain ⟨hv, hm⟩ := mem_membersOf.1 hv
    rw [Table.eq_of_uuid hv hu huuid] at hm
    exact hm
  · intro h
    exact List.mem_map_of_mem (mem_membersOf.2 ⟨hu, h⟩)

/-- The numbers of the groups and users that memberships join. -/
def links (s : Store) : List (Int × Int) :=
  s.memberships.map fun m => (m.group, m.user)

theorem mem_links {id : Int} : (group.id, id) ∈ s.links ↔ id ∈ s.memberNumbers group := by
  simp [links, mem_memberNumbers]

/-- The list depends on the number of the group alone. -/
theorem memberUuids_of_id {group' : Row .group} (s : Store) (hid : group'.id = group.id) :
    s.memberUuids group' = s.memberUuids group := by
  rw [memberUuids, membersOf, hid, ← membersOf, ← memberUuids]

/-! ## Users who join -/

private theorem join_of_mem {u : Row .user} (clock : Nat) (hu : u.id ∈ s.memberNumbers group) :
    s.join clock group u = s := by
  rw [join, if_pos (isMember_iff.2 hu)]

private theorem join_of_not_mem {u : Row .user} (clock : Nat) (hu : u.id ∉ s.memberNumbers group) :
    s.join clock group u = { s with memberships := s.memberships ++ [⟨group.id, u.id, clock⟩] } := by
  rw [join, if_neg (mt isMember_iff.1 hu)]

private theorem memberNumbers_join_of_not_mem {u : Row .user} (clock : Nat) (hu : u.id ∉ s.memberNumbers group) :
    (s.join clock group u).memberNumbers group = s.memberNumbers group ++ [u.id] := by
  rw [join_of_not_mem clock hu, memberNumbers, List.filter_append, List.map_append, List.filter_cons_of_pos (by simp)]
  rfl

/-- Those who are no members yet become members in their order, all at one reading of the clock. -/
theorem memberships_addMembers (s : Store) (clock : Nat) (group : Row .group) (users : List (Row .user)) :
    (s.addMembers clock group users).memberships = s.memberships ++
      (newcomers (s.memberNumbers group) (users.map Row.id)).map fun id => ⟨group.id, id, clock⟩ := by
  induction users generalizing s with
  | nil => exact (List.append_nil _).symm
  | cons u rest ih =>
    rw [addMembers, List.foldl_cons, ← addMembers, ih, List.map_cons]
    by_cases hu : u.id ∈ s.memberNumbers group
    · rw [join_of_mem clock hu, newcomers_cons_of_mem hu]
    · rw [memberNumbers_join_of_not_mem clock hu, join_of_not_mem clock hu, newcomers_cons_of_not_mem hu, List.map_cons,
        List.append_assoc, List.singleton_append]

theorem mem_memberships_addMembers {clock : Nat} {users : List (Row .user)} {m : Membership}
    (hm : m ∈ (s.addMembers clock group users).memberships) :
    m ∈ s.memberships ∨ ∃ u ∈ users, m = ⟨group.id, u.id, clock⟩ := by
  rw [memberships_addMembers, List.mem_append, List.mem_map] at hm
  refine hm.imp_right fun ⟨id, hid, e⟩ => ?_
  obtain ⟨u, hu, rfl⟩ := List.mem_map.1 (mem_newcomers.1 hid).1
  exact ⟨u, hu, e.symm⟩

theorem memberNumbers_addMembers (s : Store) (clock : Nat) (group : Row .group) (users : List (Row .user)) :
    (s.addMembers clock group users).memberNumbers group =
      including (s.memberNumbers group) (users.map Row.id) := by
  rw [memberNumbers, memberships_addMembers, List.filter_append, List.map_append, including, memberNumbers,
    List.filter_map]
  simp only [Function.comp_def, beq_self_eq_true, List.filter_true, List.map_map, List.map_id']

/-- Nobody becomes a member twice. -/
theorem nodup_links_addMembers (h : s.links.Nodup) (clock : Nat) (group : Row .group) (users : List (Row .user)) :
    (s.addMembers clock group users).links.Nodup := by
  have hlinks : (s.addMembers clock group users).links =
      s.links ++ (newcomers (s.memberNumbers group) (users.map Row.id)).map fun id => (group.id, id) := by
    rw [links, memberships_addMembers, List.map_append, List.map_map]
    rfl
  rw [hlinks]
  refine h.append ((nodup_eraseDups _).map fun a b e => congrArg Prod.snd e) fun link hold hnew => ?_
  obtain ⟨id, hid, rfl⟩ := List.mem_map.1 hnew
  exact (mem_newcomers.1 hid).2 (mem_links.1 hold)

/-- Users who are members already are not added. -/
theorem addMembers_of_mem {users : List (Row .user)} (clock : Nat)
    (h : ∀ u ∈ users, u.id ∈ s.memberNumbers group) : s.addMembers clock group users = s := by
  induction users with
  | nil => rfl
  | cons u rest ih =>
    rw [addMembers, List.foldl_cons, join_of_mem clock (h u List.mem_cons_self)]
    exact ih fun v hv => h v (List.mem_cons_of_mem u hv)

theorem addMembers_again (s : Store) (clock later : Nat) (group : Row .group) (users : List (Row .user)) :
    (s.addMembers clock group users).addMembers later group users = s.addMembers clock group users := by
  apply addMembers_of_mem
  intro u hu
  rw [memberNumbers_addMembers, mem_including]
  exact .inr (List.mem_map_of_mem hu)

theorem users_addMembers (s : Store) (clock : Nat) (group : Row .group) (users : List (Row .user)) :
    (s.addMembers clock group users).users = s.users := by
  induction users generalizing s with
  | nil => rfl
  | cons u rest ih =>
    rw [addMembers, List.foldl_cons, ← addMembers, ih, join]
    split <;> rfl

/-! ## Lists of identifiers -/

private theorem memberUuids_eq (s : Store) (group : Row .group) :
    s.memberUuids group = (s.memberNumbers group).filterMap fun id => (s.users.find? id).map Row.uuid := by
  rw [memberUuids, membersOf_eq, List.map_filterMap]

private theorem memberUuids_join {u : Row .user} (clock : Nat) (hu : u ∈ s.users.rows) :
    (s.join clock group u).memberUuids group = including (s.memberUuids group) [u.uuid] := by
  by_cases hm : u.id ∈ s.memberNumbers group
  · rw [join_of_mem clock hm, including_cons_of_mem ((uuid_mem_memberUuids hu).2 hm), including_nil]
  · have hnew : u.uuid ∉ s.memberUuids group := mt (uuid_mem_memberUuids hu).1 hm
    have husers : (s.join clock group u).users = s.users := by rw [join_of_not_mem clock hm]
    have huuid : [u.id].filterMap (fun id => (s.users.find? id).map Row.uuid) = [u.uuid] := by
      rw [List.filterMap_cons, Table.find?_eq_some_iff.2 ⟨hu, rfl⟩]
      rfl
    rw [memberUuids_eq, husers, memberNumbers_join_of_not_mem clock hm, List.filterMap_append, ← memberUuids_eq,
      including_cons_of_not_mem hnew, including_nil, huuid]

/-- Adding users takes up their identifiers. -/
theorem memberUuids_addMembers {users : List (Row .user)} (clock : Nat) (husers : ∀ u ∈ users, u ∈ s.users.rows) :
    (s.addMembers clock group users).memberUuids group =
      including (s.memberUuids group) (users.map Row.uuid) := by
  induction users generalizing s with
  | nil => exact (including_nil _).symm
  | cons u rest ih =>
    have hu := husers u List.mem_cons_self
    have hrest : ∀ v ∈ rest, v ∈ (s.join clock group u).users.rows := by
      intro v hv
      have hjoined := users_addMembers s clock group [u]
      rw [addMembers, List.foldl_cons, List.foldl_nil] at hjoined
      rw [hjoined]
      exact husers v (List.mem_cons_of_mem u hv)
    rw [addMembers, List.foldl_cons, ← addMembers, ih hrest, memberUuids_join clock hu, ← including_append,
      List.singleton_append, List.map_cons]

theorem memberNumbers_clearMembers (s : Store) (group : Row .group) :
    (s.clearMembers group).memberNumbers group = [] := by
  have hnone : (s.memberships.filter fun m => m.group != group.id).filter (fun m => m.group == group.id) = [] := by
    rw [List.filter_filter]
    refine List.filter_eq_nil_iff.2 fun m _ => ?_
    simp
  rw [memberNumbers, clearMembers]
  dsimp only
  rw [hnone]
  rfl

/-- A group is left with the memberships that it is given, behind those of all other groups. -/
theorem memberships_clearMembers_addMembers (s : Store) (clock : Nat) (group : Row .group) (users : List (Row .user)) :
    ((s.clearMembers group).addMembers clock group users).memberships =
      (s.memberships.filter fun m => m.group != group.id) ++
        (users.map Row.id).eraseDups.map fun id => ⟨group.id, id, clock⟩ := by
  rw [memberships_addMembers, memberNumbers_clearMembers, newcomers_nil_left]
  rfl

theorem memberUuids_clearMembers (s : Store) (group : Row .group) :
    (s.clearMembers group).memberUuids group = [] := by
  rw [memberUuids_eq, memberNumbers_clearMembers]
  rfl

theorem memberNumbers_withoutMembers (s : Store) (group : Row .group) (users : List (Row .user)) :
    (s.withoutMembers group users).memberNumbers group =
      (s.memberNumbers group).filter fun id => !users.any fun u => u.id == id := by
  rw [memberNumbers, memberNumbers, withoutMembers, List.filter_map, List.filter_filter, List.filter_filter]
  refine congrArg (List.map Membership.user) (List.filter_congr fun m _ => ?_)
  cases hgroup : m.group == group.id with
  | false => simp
  | true => simp

/-- Removing users leaves out their identifiers. -/
theorem memberUuids_withoutMembers {users : List (Row .user)} (husers : ∀ u ∈ users, u ∈ s.users.rows) :
    (s.withoutMembers group users).memberUuids group =
      (s.memberUuids group).filter fun uuid => !(users.map Row.uuid).contains uuid := by
  have hsame : (s.withoutMembers group users).users = s.users := rfl
  rw [memberUuids_eq, memberUuids_eq, hsame, memberNumbers_withoutMembers, List.filter_filterMap, List.filterMap_filter]
  congr 1
  funext id
  cases hfind : s.users.find? id with
  | none => rw [Option.map_none, ite_self, Option.filter_none]
  | some v =>
    obtain ⟨hv, hid⟩ := Table.find?_eq_some_iff.1 hfind
    have hnamed : (users.any fun u => u.id == id) = (users.map Row.uuid).contains v.uuid := by
      rw [Bool.eq_iff_iff, List.any_eq_true, List.contains_iff_mem, List.mem_map]
      constructor
      · rintro ⟨u, hu, e⟩
        have huv : u = v := Table.eq_of_id (husers u hu) hv ((beq_iff_eq.1 e).trans hid.symm)
        exact ⟨u, hu, congrArg Row.uuid huv⟩
      · rintro ⟨u, hu, e⟩
        have huv : u = v := Table.eq_of_uuid (husers u hu) hv e
        exact ⟨u, hu, beq_iff_eq.2 ((congrArg Row.id huv).trans hid)⟩
    rw [hnamed, Option.map_some, Option.filter_some]

/-! ## Rows that are rewritten -/

private theorem uuid_find?_overwritten {k : Kind} {t t' : Table k} {r r' : Row k} (hr : r ∈ t.rows)
    (hid : r'.id = r.id) (huuid : r'.uuid = r.uuid) (hrows : t'.rows = t.overwritten r') (id : Int) :
    (t'.find? id).map Row.uuid = (t.find? id).map Row.uuid := by
  have hsame : ((fun x : Row k => x.id == id) ∘ fun x => if x.id = r'.id then r' else x) = fun x => x.id == id := by
    funext x
    rw [Function.comp_apply]
    split
    next e => rw [e]
    next => rfl
  rw [Table.find?, hrows, Table.overwritten, List.find?_map, hsame, Option.map_map, Table.find?]
  cases hfind : t.rows.find? fun x => x.id == id with
  | none => rfl
  | some x =>
    have hx := List.mem_of_find?_eq_some hfind
    rw [Option.map_some, Option.map_some, Function.comp_apply]
    split
    next e =>
      have hxr : x = r := Table.eq_of_id hx hr (e.trans hid)
      rw [hxr, huuid]
    next => rfl

/-- Rewriting a row changes no list of members. -/
theorem Rewrites.memberUuids {k : Kind} {r r' : Row k} {s' : Store} (h : s.Rewrites r r' s')
    {group' : Row .group} (hid : group'.id = group.id) :
    s'.memberUuids group' = s.memberUuids group := by
  have hfind (id : Int) : (s'.users.find? id).map Row.uuid = (s.users.find? id).map Row.uuid := by
    cases k with
    | user => exact uuid_find?_overwritten h.mem h.id h.uuid h.rows id
    | group =>
      obtain ⟨t, rfl, -⟩ := h.store
      rfl
  rw [memberUuids_eq, memberUuids_eq, memberNumbers, h.memberships, hid, ← memberNumbers]
  simp only [hfind]

end Roster.Store
