import Roster.Service.Request
import Roster.Proofs.Attributes
import Roster.Proofs.Session

/-!
New resources.

Attributes of the profile all have columns, so that nothing goes with a new resource that is not stored with
it, and its public identifier is always drawn.
-/

set_option autoImplicit false

namespace Roster

open Store Step

variable {k : Kind}

/-- Attributes of the profile have columns of the profile. -/
theorem exists_columns_eq_ok {attributes : List (String × Json)} (ha : ProfileOnly k attributes) :
    ∃ values, columns k attributes = .ok values ∧ ∀ v ∈ values, v.1.isProfile = true := by
  induction attributes with
  | nil => exact ⟨[], rfl, fun v hv => absurd hv List.not_mem_nil⟩
  | cons f rest ih =>
    obtain ⟨c, hc, hprofile⟩ := ha f List.mem_cons_self
    obtain ⟨values, hvalues, hall⟩ := ih fun g hg => ha g (List.mem_cons_of_mem f hg)
    have hcolumn : column k f.1 = .ok c := by rw [column, hc]
    obtain ⟨name, value⟩ := f
    refine ⟨(c, value) :: values, ?_, ?_⟩
    · rw [columns] at hvalues ⊢
      rw [List.mapM_cons, hvalues]
      dsimp only
      rw [hcolumn]
      rfl
    · intro v hv
      rcases List.mem_cons.1 hv with rfl | hv
      · exact hprofile
      · exact hall v hv

private theorem foldlM_give {attributes : List (String × Json)} {values values₀ : List (Column k × Json)}
    (hvalues : columns k attributes = .ok values) :
    attributes.foldlM (fun d f => Draft.give d f.1 f.2) ⟨values₀, []⟩ =
      Except.ok ⟨values₀ ++ values, []⟩ := by
  induction attributes generalizing values values₀ with
  | nil =>
    have hnil : values = [] := (Except.ok.inj hvalues).symm
    rw [hnil, List.append_nil]
    rfl
  | cons f rest ih =>
    rw [columns, List.mapM_cons] at hvalues
    obtain ⟨v, hv, hvalues⟩ := bind_eq_ok.1 hvalues
    obtain ⟨others, hothers, hvalues⟩ := bind_eq_ok.1 hvalues
    obtain ⟨c, hc, hpure⟩ := bind_eq_ok.1 hv
    cases hvalues
    cases hpure
    have hname : Column.ofName? k f.1 = some c := by
      rw [column] at hc
      split at hc
      next c' hc' =>
        cases hc
        exact hc'
      next => cases hc
    have hgive : Draft.give ⟨values₀, []⟩ f.1 f.2 = Except.ok ⟨values₀ ++ [(c, f.2)], []⟩ := by
      rw [Draft.give, hname]
    rw [List.foldlM_cons, hgive, ok_bind, ih hothers, List.append_assoc, List.singleton_append]

/-- The draft of a resource with attributes of the profile. -/
theorem draft_eq {attributes : List (String × Json)} (ha : ProfileOnly k attributes)
    {values : List (Column k × Json)} (hvalues : columns k attributes = .ok values) :
    draft k attributes = .ok ⟨values, []⟩ := by
  have hcompany : attributes.lookup "company_id" = none := by
    refine List.lookup_eq_none_iff.2 fun f hf => bne_iff_ne.2 fun e => ?_
    obtain ⟨column, hcolumn, hprofile⟩ := ha f hf
    have hname : Column.ofName? k "company_id" = some .company := Column.ofName?_name .company
    rw [← e, hname] at hcolumn
    cases hcolumn
    cases hprofile
  rw [draft, hcompany, if_neg (by decide), foldlM_give hvalues, List.nil_append]

private theorem needsUuid_of_profile {values : List (Column k × Json)}
    (hvalues : ∀ v ∈ values, v.1.isProfile = true) : needsUuid values = true := by
  have hnone : values.lookup .uuid = none := by
    refine List.lookup_eq_none_iff.2 fun v hv => bne_iff_ne.2 fun e => ?_
    have hprofile := hvalues v hv
    rw [← e] at hprofile
    cases hprofile
  rw [needsUuid, hnone]

/-- A new resource is inserted under a drawn identifier. -/
theorem exec_insertResource (ctx : Context) (owner : Company) {attributes : Schema.Values}
    (ha : ProfileOnly k attributes) {values : List (Column k × Json)}
    (hvalues : columns k attributes = .ok values) (σ : Session) :
    exec (Request.insertResource ctx owner k attributes) σ =
      match σ.current.insert ctx.clock owner (Uuid.numbered (σ.drawn + 1)) values with
      | .ok (r, s) => (.ok (r, []), { σ with current := s, drawn := σ.drawn + 1 })
      | .error e => (.error e, { σ with drawn := σ.drawn + 1 }) := by
  obtain ⟨values', hvalues', hprofile⟩ := exists_columns_eq_ok ha
  rw [hvalues] at hvalues'
  cases hvalues'
  have hattempt : exec (attempt (draft k attributes)) σ = (.ok ⟨values, []⟩, σ) := by
    rw [exec_attempt, draft_eq ha hvalues]
  rw [Request.insertResource, exec_bind_ok hattempt]
  dsimp only
  rw [needsUuid_of_profile hprofile, if_pos rfl, exec_bind_ok (exec_drawUuid σ), exec_bind, exec_change]
  cases σ.current.insert ctx.clock owner (Uuid.numbered (σ.drawn + 1)) values with
  | error e => rfl
  | ok p => rfl

theorem exists_exec_insertResource (ctx : Context) (owner : Company) {attributes : Schema.Values}
    (ha : ProfileOnly k attributes) :
    ∃ values : List (Column k × Json), (∀ v ∈ values, v.1.isProfile = true) ∧ ∀ σ : Session,
      exec (Request.insertResource ctx owner k attributes) σ =
        match σ.current.insert ctx.clock owner (Uuid.numbered (σ.drawn + 1)) values with
        | .ok (r, s) => (.ok (r, []), { σ with current := s, drawn := σ.drawn + 1 })
        | .error e => (.error e, { σ with drawn := σ.drawn + 1 }) := by
  obtain ⟨values, hvalues, hprofile⟩ := exists_columns_eq_ok ha
  exact ⟨values, hprofile, exec_insertResource ctx owner ha hvalues⟩

/-- Nothing goes with a new resource. -/
theorem attached_of_insertResource {ctx : Context} {owner : Company} {attributes : Schema.Values}
    (ha : ProfileOnly k attributes) {σ : Session} {p : Row k × List (String × Json)}
    (hp : (exec (Request.insertResource ctx owner k attributes) σ).1 = .ok p) : p.2 = [] := by
  obtain ⟨values, -, hexec⟩ := exists_exec_insertResource ctx owner ha
  rw [hexec] at hp
  split at hp
  · cases hp
    rfl
  · cases hp

end Roster
