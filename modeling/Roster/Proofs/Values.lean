import Roster.Proofs.Insertion
import Roster.Proofs.Patching
import Roster.Proofs.Writing

/-!
What a row says once it has been written.

A value that is written is read again from its column. A text is read as it has been given, and all columns
without a value say what they said before.
-/

set_option autoImplicit false

namespace Roster

variable {k : Kind}

theorem lookup_filter {α β : Type} [BEq α] [LawfulBEq α] {entries : List (α × β)}
    (hnodup : (entries.map Prod.fst).Nodup) (p : α × β → Bool) (a : α) :
    (entries.filter p).lookup a = (entries.lookup a).filter fun b => p (a, b) := by
  induction entries with
  | nil => rfl
  | cons f rest ih =>
    obtain ⟨b, v⟩ := f
    rw [List.map_cons, List.nodup_cons] at hnodup
    have hrest := ih hnodup.2
    by_cases hb : a = b
    · subst hb
      have hnone : rest.lookup a = none := by
        refine List.lookup_eq_none_iff.2 fun g hg => bne_iff_ne.2 fun e => hnodup.1 ?_
        exact List.mem_map.2 ⟨g, hg, e.symm⟩
      rw [hnone, Option.filter_none] at hrest
      rw [List.lookup_cons, beq_self_eq_true, List.filter_cons]
      by_cases hp : p (a, v) = true
      · simp [hp, Option.filter_some]
      · simp [hp, hrest, Option.filter_some]
    · have hne : (a == b) = false := by simpa using hb
      rw [List.lookup_cons, hne, List.filter_cons]
      by_cases hp : p (b, v) = true
      · simp [hp, List.lookup_cons, hne, hrest]
      · simp [hp, hrest]

theorem lookup_eq_some_of_mem {α β : Type} [BEq α] [LawfulBEq α] {entries : List (α × β)}
    (hnodup : (entries.map Prod.fst).Nodup) {a : α} {b : β} (h : (a, b) ∈ entries) : entries.lookup a = some b := by
  induction entries with
  | nil => cases h
  | cons f rest ih =>
    rw [List.map_cons, List.nodup_cons] at hnodup
    rcases List.mem_cons.1 h with rfl | h
    · simp
    · have hne : (a == f.1) = false := by
        rw [beq_eq_false_iff_ne]
        intro e
        exact hnodup.1 (List.mem_map.2 ⟨(a, b), h, e⟩)
      rw [List.lookup_cons, hne]
      exact ih hnodup.2 h

namespace Store

theorem lookup_columns {attributes : List (String × Json)} {values : List (Column k × Json)}
    (h : columns k attributes = .ok values) (c : Column k) : values.lookup c = attributes.lookup c.name := by
  have hvalues := mapM_eq_ok.1 h
  clear h
  induction hvalues with
  | nil => rfl
  | @cons f v attributes values hf _ ih =>
    obtain ⟨c', hc', hpure⟩ := bind_eq_ok.1 hf
    cases hpure
    have hname := column_eq_ok.1 hc'
    have hkeys : (c == c') = (c.name == f.1) := by
      rw [← hname, Bool.eq_iff_iff, beq_iff_eq, beq_iff_eq]
      constructor
      · exact congrArg Column.name
      · intro e
        have hcolumn := column_eq_ok.2 e
        rw [column_eq_ok.2 rfl] at hcolumn
        exact (Except.ok.inj hcolumn).symm
    rw [List.lookup_cons, List.lookup_cons, hkeys, ih]

theorem nodup_columns {attributes : List (String × Json)} {values : List (Column k × Json)}
    (h : columns k attributes = .ok values) (hnodup : (attributes.map Prod.fst).Nodup) :
    (values.map Prod.fst).Nodup := by
  have hnames : attributes.map Prod.fst = (values.map Prod.fst).map Column.name := by
    have hvalues := mapM_eq_ok.1 h
    clear h hnodup
    induction hvalues with
    | nil => rfl
    | @cons f v attributes values hf _ ih =>
      obtain ⟨c, hc, hpure⟩ := bind_eq_ok.1 hf
      cases hpure
      rw [List.map_cons, ih, List.map_cons, List.map_cons, column_eq_ok.1 hc]
  rw [hnames] at hnodup
  exact hnodup.of_map _

/-- The values that are given for columns, in the order of the columns. -/
private theorem lookup_ordered (values : List (Column k × Json)) (cs : List (Column k)) {c : Column k} (hc : c ∈ cs) :
    (cs.filterMap fun c => (values.lookup c).map fun value => (c, value)).lookup c = values.lookup c := by
  induction cs with
  | nil => cases hc
  | cons a rest ih =>
    have hrest : c ≠ a → (rest.filterMap fun c => (values.lookup c).map fun value => (c, value)).lookup c =
        values.lookup c := by
      intro hne
      exact ih ((List.mem_cons.1 hc).resolve_left hne)
    by_cases hca : c = a
    · subst hca
      cases hv : values.lookup c with
      | some v => simp [hv]
      | none =>
        simp only [List.filterMap_cons, hv, Option.map_none]
        refine List.lookup_eq_none_iff.2 fun p hp => bne_iff_ne.2 ?_
        rintro rfl
        obtain ⟨c', -, hp⟩ := List.mem_filterMap.1 hp
        obtain ⟨v, hv', rfl⟩ := Option.map_eq_some_iff.1 hp
        rw [hv] at hv'
        cases hv'
    · have hne : (c == a) = false := by simpa using hca
      cases hv : values.lookup a with
      | some v => simp [hv, List.lookup_cons, hne, hrest hca]
      | none => simp [hv, hrest hca]

/-- Every value becomes a cell of its column, and there are no other cells. -/
theorem lookup_cells {values : List (Column k × Json)} {given : List (Column k × Cell)}
    (h : cells values = .ok given) (c : Column k) :
    match values.lookup c with
    | none => given.lookup c = none
    | some value => ∃ cell, Cell.ofJson c.type value = .ok cell ∧ given.lookup c = some cell := by
  rw [cells] at h
  split at h
  · cases h
  · rw [← lookup_ordered values (Column.all k) (Column.mem_all c)]
    generalize (Column.all k).filterMap (fun c => (values.lookup c).map fun value => (c, value)) = entries at h ⊢
    have hgiven := mapM_eq_ok.1 h
    clear h
    induction hgiven with
    | nil => rfl
    | @cons f g entries given hf _ ih =>
      obtain ⟨cell, hcell, hpure⟩ := bind_eq_ok.1 hf
      cases hpure
      obtain ⟨a, v⟩ := f
      by_cases hca : c = a
      · subst hca
        simp only [List.lookup_cons, beq_self_eq_true]
        exact ⟨cell, hcell, rfl⟩
      · have hne : (c == a) = false := by simpa using hca
        simp only [List.lookup_cons, hne]
        exact ih

variable {s s' : Store} {clock : Nat} {r r' : Row k}

/-- A value that counts as the same as a text is this text. -/
theorem str_of_unchanged {c : Column k} {text : String} (h : unchanged r c (.str text) = true) :
    r.get c = .text text := by
  rw [unchanged] at h
  cases hc : r.get c with
  | text t =>
    rw [hc] at h
    change (text == t) = true at h
    rw [beq_iff_eq.1 h]
  | null =>
    rw [hc] at h
    cases h
  | integer n =>
    rw [hc] at h
    cases h
  | real x =>
    rw [hc] at h
    cases h
  | time t =>
    rw [hc] at h
    cases h

/-- A column is read from the cell that its value becomes if this value differs, or else from the row before. -/
private theorem get_of_differing {attributes : List (String × Json)} (h : s.update clock r attributes = .ok (r', s'))
    {c : Column k} (hc : c ≠ .updated) :
    ∃ values, columns k attributes = .ok values ∧
      match (values.filter fun v => !unchanged r v.1 v.2).lookup c with
      | none => r'.get c = r.get c
      | some value => Cell.ofJson c.type value = .ok (r'.get c) := by
  obtain ⟨values, hvalues, ⟨hnone, rfl, rfl⟩ | ⟨given, hgiven, hnew, -⟩⟩ := exists_of_update h
  · refine ⟨values, hvalues, ?_⟩
    rw [hnone]
    rfl
  · refine ⟨values, hvalues, ?_⟩
    have hcells := lookup_cells hgiven c
    have hupdated : [(Column.updated, Cell.time clock)].lookup c = none := by
      rw [List.lookup_cons, beq_eq_false_iff_ne.2 hc]
      rfl
    rw [get_of_make hnew, List.lookup_append, hupdated, Option.or_none]
    split at hcells
    · rw [hcells]
      rfl
    · obtain ⟨cell, hcell, hlookup⟩ := hcells
      rw [hlookup, hcell]
      rfl

/-- Columns that no value is given for stay as they are. -/
theorem get_of_update_of_none {attributes : List (String × Json)} (h : s.update clock r attributes = .ok (r', s'))
    {c : Column k} (hc : c ≠ .updated) (hnone : attributes.lookup c.name = none) : r'.get c = r.get c := by
  obtain ⟨values, hvalues, hget⟩ := get_of_differing h hc
  rw [← lookup_columns hvalues, List.lookup_eq_none_iff] at hnone
  have hdiffering : (values.filter fun v => !unchanged r v.1 v.2).lookup c = none :=
    List.lookup_eq_none_iff.2 fun v hv => hnone v (List.mem_filter.1 hv).1
  rw [hdiffering] at hget
  exact hget

/-- A value that is given counts as the same as what its column says, or it is written. -/
theorem get_of_update {attributes : List (String × Json)} (hnodup : (attributes.map Prod.fst).Nodup)
    (h : s.update clock r attributes = .ok (r', s')) {c : Column k} (hc : c ≠ .updated) :
    match attributes.lookup c.name with
    | none => r'.get c = r.get c
    | some value => (unchanged r c value = true ∧ r'.get c = r.get c) ∨ Cell.ofJson c.type value = .ok (r'.get c) := by
  obtain ⟨values, hvalues, hget⟩ := get_of_differing h hc
  rw [lookup_filter (nodup_columns hvalues hnodup), lookup_columns hvalues] at hget
  cases hvalue : attributes.lookup c.name with
  | none =>
    rw [hvalue] at hget
    exact hget
  | some value =>
    rw [hvalue, Option.filter_some] at hget
    cases hunchanged : unchanged r c value with
    | true =>
      rw [hunchanged] at hget
      exact .inl ⟨hunchanged, hget⟩
    | false =>
      rw [hunchanged] at hget
      exact .inr hget

theorem type_of_isProfile {c : Column k} (hc : c.isProfile = true) : c.type = .text := by
  cases c <;> first | rfl | cases hc

/-- A text that is written is read again. -/
theorem get_of_update_str {attributes : List (String × Json)} (hnodup : (attributes.map Prod.fst).Nodup)
    (h : s.update clock r attributes = .ok (r', s')) {c : Column k} (hc : c.type = .text) {text : String}
    (htext : attributes.lookup c.name = some (.str text)) : r'.get c = .text text := by
  have hupdated : c ≠ .updated := by
    rintro rfl
    cases hc
  have hget := get_of_update hnodup h hupdated
  rw [htext] at hget
  rcases hget with ⟨hunchanged, hget⟩ | hcell
  · rw [hget, str_of_unchanged hunchanged]
  · rw [hc] at hcell
    exact (Except.ok.inj hcell).symm

/-- A value other than null that a new row is given is read from its column. -/
theorem get_of_insert {owner : Company} {uuid : String} {values : List (Column k × Json)}
    (hnodup : (values.map Prod.fst).Nodup) (h : s.insert clock owner uuid values = .ok (r, s')) {c : Column k}
    {value : Json} (hvalue : values.lookup c = some value) (hnull : value.isNull = false) :
    Cell.ofJson c.type value = .ok (r.get c) := by
  rw [insert] at h
  split at h
  · cases h
  next given hgiven =>
    dsimp only at h
    split at h
    next made hmade =>
      cases h
      obtain ⟨new, hnew, hinsert⟩ := Option.bind_eq_some_iff.1 hmade
      obtain ⟨t, -, e⟩ := Option.map_eq_some_iff.1 hinsert
      cases e
      have hlookup := lookup_cells hgiven c
      have hgivenvalue := lookup_filter hnodup (fun v => !v.2.isNull) c
      rw [hvalue, Option.filter_some, hnull] at hgivenvalue
      change _ = some value at hgivenvalue
      rw [hgivenvalue] at hlookup
      obtain ⟨cell, hcell, hlookup⟩ := hlookup
      rw [get_of_make hnew, List.lookup_append, hlookup]
      exact hcell
    · cases h

theorem get_of_insert_str {owner : Company} {uuid : String} {values : List (Column k × Json)}
    (hnodup : (values.map Prod.fst).Nodup) (h : s.insert clock owner uuid values = .ok (r, s')) {c : Column k}
    (hc : c.type = .text) {text : String} (htext : values.lookup c = some (.str text)) : r.get c = .text text := by
  have hcell := get_of_insert hnodup h htext rfl
  rw [hc] at hcell
  exact (Except.ok.inj hcell).symm

/-- What is written already is not written again. -/
theorem update_of_unchanged {attributes : List (String × Json)} {values : List (Column k × Json)}
    (hvalues : columns k attributes = .ok values) (h : ∀ v ∈ values, unchanged r v.1 v.2 = true) (clock : Nat) :
    s.update clock r attributes = .ok (r, s) := by
  have hnone : values.filter (fun v => !unchanged r v.1 v.2) = [] := by
    refine List.filter_eq_nil_iff.2 fun v hv => ?_
    simp [h v hv]
  rw [update, hvalues, ok_bind]
  change (if (values.filter fun v => !unchanged r v.1 v.2).isEmpty = true then _ else _) = _
  rw [hnone]
  rfl

/-- The status is no part of the profile. -/
theorem get_of_settled {status : Option Bool} (h : s.settled clock r status = .ok (r', s')) {c : Column k}
    (hc : c.isProfile = true) : r'.get c = r.get c := by
  cases status with
  | none =>
    cases h
    rfl
  | some active =>
    rw [settled, setActive] at h
    split at h
    · cases h
      rfl
    · obtain ⟨t, -, hpure⟩ := bind_eq_ok.1 h
      cases hpure
      obtain ⟨_, _, _, profile, _, _, _⟩ := r
      cases profile <;> cases c <;> first | rfl | cases hc

theorem isActive_of_settled {active : Bool} (h : s.settled clock r (some active) = .ok (r', s')) :
    r'.isActive = active := by
  rw [settled, setActive] at h
  split at h
  next hactive =>
    cases h
    exact hactive
  · obtain ⟨t, -, hpure⟩ := bind_eq_ok.1 h
    cases hpure
    cases active <;> rfl

/-- A row stays as it is when it has the status that is asked for. -/
theorem settled_of_isActive {status : Option Bool} (h : ∀ active, status = some active → r.isActive = active)
    (s : Store) (clock : Nat) : s.settled clock r status = .ok (r, s) := by
  cases status with
  | none => rfl
  | some active => rw [settled, setActive, if_pos (h active rfl)]

/-- A row that has been given a status has it, in whatever store it is. -/
theorem settled_again {status : Option Bool} (h : s.settled clock r status = .ok (r', s')) (t : Store) (clock' : Nat) :
    t.settled clock' r' status = .ok (r', t) := by
  refine settled_of_isActive ?_ t clock'
  rintro active rfl
  exact isActive_of_settled h

end Store

end Roster
