import Roster.Proofs.Documents

/-!
Rows that are replaced.

A row that is replaced takes the attributes and the status that a document gives. Both are written only where the row
does not say them already, so that it stays as it is when it is replaced by what it says.
-/

set_option autoImplicit false

namespace Roster

variable {k : Kind} {s : Store} {clock : Nat} {r : Row k} {document : Json}

/-- The profile with what a document gives; the alternate address of a user stays. -/
def Profile.replaced : {k : Kind} → Profile k → Json → Profile k
  | .user, .user _ _ _ alternate, document =>
    .user ((document.fieldOrNull "name").fieldOrNull "givenName").text
      ((document.fieldOrNull "name").fieldOrNull "familyName").text
      ((document.fieldOrNull "emails").firstOrNull.fieldOrNull "value").text alternate
  | .group, .group _ _, document =>
    .group (document.fieldOrNull "displayName").text (document.fieldOrNull "email").text

namespace Row

/-- The archive time of a row when it has been given a status: a row that is archived already keeps its time. -/
def archivedAfter (r : Row k) (clock : Nat) : Option Bool → Option Nat
  | none => r.archived
  | some true => none
  | some false => some (r.archived.getD clock)

/-- The row with the attributes that a document gives. -/
def written (r : Row k) (clock : Nat) (document : Json) : Row k :=
  if r.profile.replaced document = r.profile then r
  else { r with profile := r.profile.replaced document, updated := clock }

/-- The row with a status, if one is asked for. -/
def marked (r : Row k) (clock : Nat) (status : Option Bool) : Row k :=
  if r.archivedAfter clock status = r.archived then r
  else { r with archived := r.archivedAfter clock status, updated := clock }

/-- The row replaced by what a document says: with its attributes and its status. It has been changed by now, if
anything is not as it was before. -/
def replaced (r : Row k) (clock : Nat) (document : Json) : Row k :=
  let profile := r.profile.replaced document
  let archived := r.archivedAfter clock (document.fieldOrNull "active").status?.join
  { r with profile, archived, updated := if profile = r.profile ∧ archived = r.archived then r.updated else clock }

theorem marked_written (r : Row k) (clock : Nat) {status : Option Bool}
    (hstatus : (document.fieldOrNull "active").status? = some status) :
    (r.written clock document).marked clock status = r.replaced clock document := by
  have harchived (profile : Profile k) (updated : Nat) :
      ({ r with profile, updated } : Row k).archivedAfter clock status = r.archivedAfter clock status := by
    cases status with
    | none => rfl
    | some active => cases active <;> rfl
  rw [replaced, hstatus, Option.join_some]
  by_cases hprofile : r.profile.replaced document = r.profile
  · rw [written, if_pos hprofile, hprofile, marked]
    by_cases hsame : r.archivedAfter clock status = r.archived
    · rw [if_pos hsame, if_pos ⟨rfl, hsame⟩, hsame]
    · rw [if_neg hsame, if_neg fun h => hsame h.2]
  · have hother : ¬(r.profile.replaced document = r.profile ∧ r.archivedAfter clock status = r.archived) :=
      fun h => hprofile h.1
    rw [written, if_neg hprofile, marked, harchived, if_neg hother]
    dsimp only
    by_cases hsame : r.archivedAfter clock status = r.archived
    · rw [if_pos hsame, hsame]
    · rw [if_neg hsame]

end Row

theorem get_replaced (r : Row k) (clock : Nat) (document : Json) {c : Column k} (hc : c ≠ .updated) :
    Row.get { r with profile := r.profile.replaced document, updated := clock } c =
      match (document.attributes k).lookup c with
      | some value => .text value.text
      | none => r.get c := by
  obtain ⟨id, uuid, company, profile, archived, created, updated⟩ := r
  cases profile with
  | user firstName lastName email alternate => cases alternate <;> cases c <;> first | rfl | exact absurd rfl hc
  | group displayName email => cases c <;> first | rfl | exact absurd rfl hc

theorem replaced_eq_iff (r : Row k) (document : Json) :
    r.profile.replaced document = r.profile ↔ ∀ p ∈ document.attributes k, r.get p.1 = .text p.2.text := by
  obtain ⟨id, uuid, company, profile, archived, created, updated⟩ := r
  cases profile with
  | user firstName lastName email alternate =>
    simp [Profile.replaced, Json.attributes, Row.get, eq_comm]
  | group displayName email =>
    simp [Profile.replaced, Json.attributes, Row.get, eq_comm]

namespace Store

theorem columns_extract (k : Kind) (document : Json) :
    columns k ((Schema.writable k).extract document) = .ok (document.attributes k) := by
  rw [Schema.extract_writable]
  generalize document.attributes k = values
  induction values with
  | nil => rfl
  | cons p rest ih =>
    have hcolumn : column k p.1.name = .ok p.1 := column_eq_ok.2 rfl
    rw [columns] at ih ⊢
    rw [List.map_cons, List.mapM_cons, ih]
    dsimp only
    rw [hcolumn]
    rfl

theorem unchanged_str_iff {c : Column k} {text : String} : unchanged r c (.str text) = true ↔ r.get c = .text text := by
  refine ⟨str_of_unchanged, fun hget => ?_⟩
  rw [unchanged, hget]
  exact beq_self_eq_true text

/-- Values of the profile become cells one by one. -/
private theorem cells_of_isProfile {values : List (Column k × Json)} (hprofile : ∀ v ∈ values, v.1.isProfile = true) :
    ∃ ordered : List (Column k × Json), (∀ v, v ∈ ordered ↔ values.lookup v.1 = some v.2) ∧
      cells values = ordered.mapM fun v => (Cell.ofJson .text v.2).map fun cell => (v.1, cell) := by
  have htimed : (values.any fun v => isMistimed v.1 v.2) = false := by
    rw [List.any_eq_false]
    intro v hv
    rw [isMistimed, type_of_isProfile (hprofile v hv)]
    simp
  let ordered := (Column.all k).filterMap fun c => (values.lookup c).map fun value => (c, value)
  have hordered (v : Column k × Json) : v ∈ ordered ↔ values.lookup v.1 = some v.2 := by
    rw [List.mem_filterMap]
    constructor
    · rintro ⟨c, -, hv⟩
      obtain ⟨value, hvalue, rfl⟩ := Option.map_eq_some_iff.1 hv
      exact hvalue
    · intro hv
      exact ⟨v.1, Column.mem_all v.1, by rw [hv]; rfl⟩
  refine ⟨ordered, hordered, ?_⟩
  rw [cells, if_neg (by rw [htimed]; exact Bool.false_ne_true)]
  refine mapM_congr fun v hv => ?_
  dsimp only
  rw [type_of_isProfile (hprofile v (mem_of_lookup ((hordered v).1 hv)))]
  cases Cell.ofJson .text v.2 <;> rfl

theorem exists_cells_eq_ok {values : List (Column k × Json)} (hprofile : ∀ v ∈ values, v.1.isProfile = true)
    (htexts : ∀ v ∈ values, ∃ text, v.2 = .str text) : ∃ given, cells values = .ok given := by
  obtain ⟨ordered, hordered, hcells⟩ := cells_of_isProfile hprofile
  rw [hcells]
  refine ⟨_, (mapM_congr fun v hv => ?_).trans (mapM_ok (fun v => (v.1, Cell.text v.2.text)) ordered)⟩
  obtain ⟨text, htext⟩ := htexts v (mem_of_lookup ((hordered v).1 hv))
  rw [htext]
  rfl

/-- The cells that texts become make the row that says them. -/
private theorem revised_of_texts (hcompany : r.company ≠ .null)
    (htexts : ∀ p ∈ document.attributes k, ∃ text, p.2 = .str text) {given : List (Column k × Cell)}
    (hgiven : cells ((document.attributes k).filter fun v => !unchanged r v.1 v.2) = .ok given) :
    revised r (given ++ [(.updated, .time clock)]) =
      some { r with profile := r.profile.replaced document, updated := clock } := by
  let new : Row k := { r with profile := r.profile.replaced document, updated := clock }
  have hget : (fun c => ((given ++ [(Column.updated, Cell.time clock)]).lookup c).getD (r.get c)) = new.get := by
    funext c
    rw [List.lookup_append, List.lookup_cons, List.lookup_nil]
    have hcells := lookup_cells hgiven c
    rw [lookup_filter document.nodup_attributes] at hcells
    by_cases hupdated : c = .updated
    · subst hupdated
      have hnone : (document.attributes k).lookup .updated = none := by cases k <;> rfl
      rw [hnone] at hcells
      rw [hcells]
      rfl
    · rw [beq_eq_false_iff_ne.2 hupdated, Option.or_none, get_replaced r clock document hupdated]
      cases hvalue : (document.attributes k).lookup c with
      | none =>
        rw [hvalue] at hcells
        rw [hcells]
        rfl
      | some value =>
        obtain ⟨text, rfl⟩ := htexts _ (mem_of_lookup hvalue)
        rw [hvalue, Option.filter_some] at hcells
        cases hunchanged : unchanged r c (.str text) with
        | true =>
          rw [hunchanged] at hcells
          rw [hcells]
          exact unchanged_str_iff.1 hunchanged
        | false =>
          rw [hunchanged] at hcells
          obtain ⟨cell, hcell, hlookup⟩ := hcells
          rw [type_of_isProfile (document.isProfile_attributes _ (mem_of_lookup hvalue))] at hcell
          cases hcell
          rw [hlookup]
          rfl
  have hcompany : new.company ≠ .null := hcompany
  rw [revised, hget]
  exact make_get hcompany

/-- Writing texts leaves the row as it is if it says them already, and otherwise puts the row that says them in its
place. -/
theorem update_extract (hcompany : r.company ≠ .null) (htexts : ∀ p ∈ document.attributes k, ∃ text, p.2 = .str text) :
    s.update clock r ((Schema.writable k).extract document) =
      if r.profile.replaced document = r.profile then .ok (r, s)
      else (s.put r (r.written clock document)).map fun t => (r.written clock document, t) := by
  let changed := (document.attributes k).filter fun v => !unchanged r v.1 v.2
  have hunchanged : ∀ p ∈ document.attributes k, unchanged r p.1 p.2 = true ↔ r.get p.1 = .text p.2.text := by
    intro p hp
    obtain ⟨c, value⟩ := p
    obtain ⟨text, rfl⟩ := htexts _ hp
    exact unchanged_str_iff
  have hchanged : changed = [] ↔ r.profile.replaced document = r.profile := by
    rw [replaced_eq_iff, List.filter_eq_nil_iff]
    refine forall₂_congr fun p hp => ?_
    rw [← hunchanged p hp]
    simp
  rw [update, columns_extract, ok_bind]
  change (if changed.isEmpty = true then _ else _) = _
  split
  next hempty =>
    rw [if_pos (hchanged.1 (List.isEmpty_iff.1 hempty))]
    rfl
  next hempty =>
    have hprofile : ¬r.profile.replaced document = r.profile := fun h => hempty (List.isEmpty_iff.2 (hchanged.2 h))
    obtain ⟨given, hgiven⟩ : ∃ given, cells changed = .ok given := by
      apply exists_cells_eq_ok
      · exact fun v hv => document.isProfile_attributes v (List.mem_filter.1 hv).1
      · exact fun v hv => htexts v (List.mem_filter.1 hv).1
    have hrevised : revised r (given ++ [(.updated, .time clock)]) = some (r.written clock document) := by
      rw [Row.written, if_neg hprofile]
      exact revised_of_texts hcompany htexts hgiven
    rw [if_neg hprofile, hgiven]
    dsimp only
    rw [hrevised]
    dsimp only
    cases s.put r (r.written clock document) <;> rfl

theorem exists_update_extract (hr : r ∈ (s.table k).rows) (hcompany : r.company ≠ .null)
    (htexts : ∀ p ∈ document.attributes k, ∃ text, p.2 = .str text) (clock : Nat) :
    ∃ t, s.update clock r ((Schema.writable k).extract document) = .ok (r.written clock document, t) ∧
      s.Rewrites r (r.written clock document) t := by
  rw [update_extract hcompany htexts, Row.written]
  split
  next => exact ⟨s, rfl, .refl hr⟩
  next =>
    let new : Row k := { r with profile := r.profile.replaced document, updated := clock }
    obtain ⟨t, hput, -⟩ : ∃ t : Table k, s.put r new = .ok (s.withTable k t) ∧ t.rows = (s.table k).overwritten new :=
      exists_put hr rfl rfl
    refine ⟨s.withTable k t, ?_, .of_put hr rfl rfl rfl rfl hput⟩
    rw [hput]
    rfl

/-- A row can always be given a status. -/
theorem exists_settled (clock : Nat) (hr : r ∈ (s.table k).rows) (status : Option Bool) :
    ∃ t, s.settled clock r status = .ok (r.marked clock status, t) ∧ s.Rewrites r (r.marked clock status) t := by
  cases status with
  | none =>
    have hsame : r.archivedAfter clock none = r.archived := rfl
    rw [Row.marked, if_pos hsame]
    exact ⟨s, rfl, .refl hr⟩
  | some active =>
    have hactive : r.isActive = active ↔ r.archivedAfter clock (some active) = r.archived := by
      obtain ⟨id, uuid, company, profile, archived, created, updated⟩ := r
      cases active <;> cases archived <;> simp [Row.isActive, Row.archivedAfter]
    have hstamped (hother : ¬r.isActive = active) :
        stamped r (if active then none else some clock) clock =
          { r with archived := r.archivedAfter clock (some active), updated := clock } := by
      obtain ⟨id, uuid, company, profile, archived, created, updated⟩ := r
      cases active with
      | true => rfl
      | false =>
        cases archived with
        | none => rfl
        | some t => exact absurd rfl hother
    rw [settled, setActive, Row.marked]
    split
    next hsame =>
      rw [if_pos (hactive.1 hsame)]
      exact ⟨s, rfl, .refl hr⟩
    next hother =>
      rw [if_neg (mt hactive.2 hother), hstamped hother]
      let new : Row k := { r with archived := r.archivedAfter clock (some active), updated := clock }
      obtain ⟨t, hput, -⟩ : ∃ t : Table k, s.put r new = .ok (s.withTable k t) ∧ t.rows = (s.table k).overwritten new :=
        exists_put hr rfl rfl
      refine ⟨s.withTable k t, ?_, .of_put hr rfl rfl rfl rfl hput⟩
      dsimp only
      rw [hput]
      rfl

end Store

end Roster
