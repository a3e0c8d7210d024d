import Roster.Proofs.MemberLists
import Roster.Proofs.Patching

/-!
Memberships within companies.

A store is local to tenants when every membership joins a group and a user that are stored and belong to the
same company. Writing rows and changing the members of a group by users of its company keep a store local to
tenants, and so does taking out a row with its memberships.
-/

set_option autoImplicit false

namespace Roster.Store

variable {k : Kind} {s s' : Store} {owner : Company}

/-- Every membership joins a stored group and a stored user of the same company. -/
def TenantLocal (s : Store) : Prop :=
  ∀ m ∈ s.memberships, ∃ g ∈ s.groups.rows, ∃ u ∈ s.users.rows,
    g.id = m.group ∧ u.id = m.user ∧ g.company = u.company

namespace TenantLocal

theorem of_writes (hs : s.TenantLocal) {r : Row k} (h : s.Writes owner r s') : s'.TenantLocal := by
  intro m hm
  rw [h.memberships] at hm
  obtain ⟨g, hg, u, hu, hgroup, huser, hcompany⟩ := hs m hm
  obtain ⟨g', hg', hgid, hgcompany⟩ := h.exists_row .group hg
  obtain ⟨u', hu', huid, hucompany⟩ := h.exists_row .user hu
  exact ⟨g', hg', u', hu', hgid.trans hgroup, huid.trans huser,
    hgcompany.trans (hcompany.trans hucompany.symm)⟩

theorem filter (hs : s.TenantLocal) (p : Membership → Bool) :
    ({ s with memberships := s.memberships.filter p } : Store).TenantLocal := by
  intro m hm
  exact hs m (List.mem_filter.1 hm).1

theorem addMembers (hs : s.TenantLocal) {group : Row .group} (hgroup : group ∈ s.owned .group owner)
    (clock : Nat) {users : List (Row .user)} (husers : ∀ u ∈ users, u ∈ s.owned .user owner) :
    (s.addMembers clock group users).TenantLocal := by
  intro m hm
  rw [addMembers_eq]
  rcases mem_memberships_addMembers hm with hm | ⟨u, hu, rfl⟩
  · exact hs m hm
  · obtain ⟨hg, hgcompany⟩ := mem_owned.1 hgroup
    obtain ⟨hu, hucompany⟩ := mem_owned.1 (husers u hu)
    exact ⟨group, hg, u, hu, rfl, rfl, hgcompany.trans hucompany.symm⟩

/-- A row takes its memberships with it, so that its number is free for another one. -/
theorem erase (hs : s.TenantLocal) (k : Kind) (r : Row k) : (s.erase k r).TenantLocal := by
  intro m hm
  cases k with
  | user =>
    obtain ⟨hm, hne⟩ := List.mem_filter.1 hm
    obtain ⟨g, hg, u, hu, hgroup, huser, hcompany⟩ := hs m hm
    refine ⟨g, hg, u, List.mem_filter.2 ⟨hu, ?_⟩, hgroup, huser, hcompany⟩
    rw [huser]
    exact hne
  | group =>
    obtain ⟨hm, hne⟩ := List.mem_filter.1 hm
    obtain ⟨g, hg, u, hu, hgroup, huser, hcompany⟩ := hs m hm
    refine ⟨g, List.mem_filter.2 ⟨hg, ?_⟩, u, hu, hgroup, huser, hcompany⟩
    rw [hgroup]
    exact hne

/-- A group of a company has users of this company as members. -/
theorem company_of_mem (hs : s.TenantLocal) {m : Membership} (hm : m ∈ s.memberships) {g : Row .group}
    (hg : g ∈ s.groups.rows) (hgroup : g.id = m.group) :
    ∃ u ∈ s.users.rows, u.id = m.user ∧ u.company = g.company := by
  obtain ⟨g', hg', u, hu, hgroup', huser, hcompany⟩ := hs m hm
  have hsame : g' = g := Table.eq_of_id hg' hg (hgroup'.trans hgroup.symm)
  exact ⟨u, hu, huser, hcompany.symm.trans (congrArg Row.company hsame)⟩

end TenantLocal

end Roster.Store
