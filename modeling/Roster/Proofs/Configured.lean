import Roster.Proofs.Lookup
import Roster.Proofs.NamedMembers
import Roster.Proofs.NaturalKeys

/-!
Reasons of failures.

A request that has been let in fails for reasons of its own, or by a mistake in the configuration, which it finds where
it looks for a column or a field by a name that there is not. Rows are found and written without one if the names that
they are looked up and written by are known to be names of columns, and a request is read without one, whatever its
document is.
-/

set_option autoImplicit false

namespace Roster

variable {k : Kind} {α β : Type} {known : Prop}

/-- A failure that tells of a mistake in the configuration. -/
def Failure.isConfiguration : Failure → Bool
  | .refused (.configuration _) => true
  | _ => false

/-- A failure that comes of a request itself or of what the store holds. -/
def Failure.isOwn : Failure → Bool
  | .refused (.configuration _) | .refused .credentials => false
  | _ => true

theorem Failure.isConfiguration_of_isOwn {e : Failure} (h : e.isOwn = true) : e.isConfiguration = false := by
  unfold isConfiguration
  split
  · cases h
  · rfl

/-- If a computation fails, it is for a reason of its own, or, as long as the names that it uses are not known to be
right, by a mistake in the configuration. -/
def Configured (known : Prop) (x : Except Failure α) : Prop :=
  ∀ e, x = .error e → e.isOwn = true ∨ e.isConfiguration = true ∧ ¬known

namespace Configured

theorem ok (a : α) : Configured known (.ok a) := nofun

theorem error {e : Failure} (h : e.isOwn = true) : Configured known (.error e : Except Failure α) := by
  intro e' he
  cases he
  exact .inl h

theorem mistake (cause : ConfigurationError) (h : ¬known) :
    Configured known (.error (.refused (.configuration cause)) : Except Failure α) := by
  intro e he
  cases he
  exact .inr ⟨rfl, h⟩

/-- What a computation fails by, what it is a part of may fail by. -/
theorem failed {x : Except Failure α} (h : Configured known x) {e : Failure} (he : x = .error e) :
    Configured known (.error e : Except Failure β) := by
  intro e' he'
  cases he'
  exact h e he

theorem bind {x : Except Failure α} {f : α → Except Failure β} (hx : Configured known x)
    (hf : ∀ a, x = .ok a → Configured known (f a)) : Configured known (x >>= f) := by
  cases x with
  | error e => exact hx.failed rfl
  | ok a => exact hf a rfl

theorem mapM {f : α → Except Failure β} {xs : List α} (hf : ∀ a ∈ xs, Configured known (f a)) :
    Configured known (xs.mapM f) := by
  induction xs with
  | nil => exact ok []
  | cons a rest ih =>
    rw [List.mapM_cons]
    refine (hf a List.mem_cons_self).bind fun b _ => ?_
    exact (ih fun x hx => hf x (List.mem_cons_of_mem a hx)).bind fun bs _ => ok (b :: bs)

theorem mapError {x : Except Error α} (hx : ∀ cause, x = .error cause → (Failure.refused cause).isOwn = true) :
    Configured known (x.mapError .refused) := by
  cases x with
  | error cause => exact error (hx cause rfl)
  | ok a => exact ok a

end Configured

/-! ## Looking things up -/

namespace Store

theorem configured_column {name : String} (h : known → IsColumn k name) : Configured known (column k name) := by
  unfold column
  split
  · exact .ok _
  next hnone => exact .mistake _ fun hknown => absurd (h hknown) (by simp [IsColumn, hnone])

theorem configured_columns {attributes : List (String × Json)} (h : known → ∀ f ∈ attributes, IsColumn k f.1) :
    Configured known (columns k attributes) :=
  .mapM fun f hf => (configured_column fun hknown => h hknown f hf).bind fun c _ => .ok (c, f.2)

theorem configured_test (type : ColumnType) (operator : Filter.Operator) (value : Json) :
    Configured known (test type operator value) := by
  unfold test
  split
  · exact .ok _
  · split
    · exact .ok _
    · exact .error rfl

theorem configured_lookupTest (type : ColumnType) (ignoreCase : Bool) (value : Json) :
    Configured known (lookupTest type ignoreCase value) := by
  unfold lookupTest
  split
  · exact .ok _
  · split
    · exact .ok _
    · exact configured_test _ _ _
  · exact configured_test _ _ _

theorem configured_boundTests (type : ColumnType) (values : List Json) :
    Configured known (boundTests type values) := by
  unfold boundTests
  split
  · exact .mapM fun value _ => configured_test type .eq value
  · exact .error rfl

theorem configured_listedTests (type : ColumnType) (values : List Json) :
    Configured known (listedTests type values) := by
  have huntimely (fits : Bool) :
      Configured known (if fits then .ok [] else .error (.fault .store) : Except Failure (List (Cell → Bool))) := by
    cases fits with
    | false => exact .error rfl
    | true => exact .ok _
  unfold listedTests timeTests
  dsimp only
  split
  · split
    · split
      · exact .error rfl
      · exact configured_boundTests _ _
    · split
      · exact .error rfl
      · exact .error rfl
      · exact huntimely _
      · exact huntimely _
      · exact configured_boundTests _ _
  · exact configured_boundTests _ _

variable (s : Store) (owner : Company)

theorem configured_findBy {name : String} (h : known → IsColumn k name) (value : Json) (ignoreCase : Bool) :
    Configured known (s.findBy k owner name value ignoreCase) := by
  refine (configured_column h).bind fun c _ => ?_
  split
  · exact .ok _
  · exact (configured_lookupTest _ _ _).bind fun _ _ => .ok _

theorem configured_findMany {name : String} (h : known → IsColumn k name) (values : List Json) :
    Configured known (s.findMany k owner name values) :=
  (configured_column h).bind fun c _ => (configured_listedTests c.type _).bind fun _ _ => .ok _

theorem configured_query {filter : Option Filter.Expression} (hfilter : known → ∀ e, filter = some e → IsColumn k e.column)
    {order : List OrderBy} (horder : known → ∀ o ∈ order, IsColumn k o.column) (offset : Int) (limit : Option Int) :
    Configured known (s.query k owner filter order offset limit) := by
  have hselected : Configured known (s.selected k owner filter) := by
    unfold selected
    split
    · exact .ok _
    next e =>
      have hpredicate : Configured known (predicate k e) := by
        refine (configured_column fun hknown => hfilter hknown e rfl).bind fun c _ => ?_
        split
        · exact .ok _
        · exact (configured_test _ _ _).bind fun _ _ => .ok _
      refine hpredicate.bind fun holds _ => ?_
      dsimp only
      split
      · exact .error rfl
      · exact .ok _
  have hkeys : Configured known (sortKeys k order) :=
    (Configured.mapM fun o ho => (configured_column fun hknown => horder hknown o ho).bind fun c _ => .ok (c, o.descending)).bind
      fun _ _ => .ok _
  rw [query_eq]
  refine hselected.bind fun found _ => hkeys.bind fun keys _ => ?_
  split
  · exact .error rfl
  · split
    · exact .ok _
    · exact .error rfl

/-! ## Writing -/

variable (clock : Nat)

theorem configured_put (old new : Row k) : Configured known (s.put old new) := by
  unfold put
  split
  · exact .ok _
  · exact .error rfl

theorem configured_update (r : Row k) {attributes : List (String × Json)} (h : known → ∀ f ∈ attributes, IsColumn k f.1) :
    Configured known (s.update clock r attributes) := by
  refine (configured_columns h).bind fun values _ => ?_
  dsimp only
  split
  · exact .ok _
  · split
    · exact .error rfl
    · split
      · exact .error rfl
      · exact (s.configured_put _ _).bind fun _ _ => .ok _

theorem configured_setActive (r : Row k) (active : Bool) : Configured known (s.setActive clock r active) := by
  unfold setActive
  split
  · exact .ok _
  · exact (s.configured_put _ _).bind fun _ _ => .ok _

theorem configured_insert (uuid : String) (values : List (Column k × Json)) :
    Configured known (s.insert clock owner uuid values) := by
  unfold insert
  split
  · exact .error rfl
  · dsimp only
    split
    · exact .ok _
    · exact .error rfl

theorem configured_draft (attributes : List (String × Json)) : Configured known (draft k attributes) := by
  have hgive (d : Draft k) (f : String × Json) : Configured known (d.give f.1 f.2) := by
    unfold Draft.give
    split
    · exact .ok _
    · split
      · exact .error rfl
      · exact .ok _
  have hgives (d : Draft k) : Configured known (attributes.foldlM (fun d f => d.give f.1 f.2) d) := by
    induction attributes generalizing d with
    | nil => exact .ok d
    | cons f rest ih =>
      rw [List.foldlM_cons]
      exact (hgive d f).bind fun d _ => ih d
  unfold draft
  split
  · exact .error rfl
  · exact hgives _

end Store

/-! ## Reading requests -/

theorem configured_complete (r : ResourceConfig) (payload : Json) :
    Configured known ((r.complete payload).mapError .refused) := by
  refine .mapError fun cause hcause => ?_
  unfold ResourceConfig.complete at hcause
  dsimp only at hcause
  split at hcause
  · split at hcause <;> cases hcause
    rfl
  · cases hcause
    rfl

theorem configured_parseActive (value : Json) : Configured known ((parseActive value).mapError .refused) := by
  refine .mapError fun cause hcause => ?_
  unfold parseActive at hcause
  split at hcause <;> cases hcause
  rfl

theorem configured_identifiers (members : Json) (expected : String) :
    Configured known ((Members.identifiers members expected).mapError .refused) := by
  refine .mapError fun cause hcause => ?_
  unfold Members.identifiers at hcause
  split at hcause <;> cases hcause
  rfl

theorem configured_status (room : Nat) (document : Json) : Configured known (PatchOperation.status room document) := by
  have hactive : Configured known ((parseActive (document.fieldOrNull "active")).mapError .refused) :=
    configured_parseActive _
  unfold PatchOperation.status
  cases hparse : parseActive (document.fieldOrNull "active") with
  | ok status => exact .ok status
  | error cause =>
    rw [hparse] at hactive
    dsimp only
    split
    · exact hactive
    · exact .error rfl

theorem configured_document (room : Nat) (schema : Schema) (o : PatchOperation) :
    Configured known (o.document room schema) := by
  unfold PatchOperation.document
  split
  · exact .ok _
  · exact .ok _
  · split
    · exact .error rfl
    · split
      · exact .ok _
      · exact .error rfl

theorem configured_memberFilter (c : Config) (path : Option String) :
    Configured known ((memberFilter c path).mapError .refused) := by
  refine .mapError fun cause hcause => ?_
  unfold memberFilter at hcause
  split at hcause
  · split at hcause
    · cases hcause
      rfl
    · split at hcause <;> cases hcause
      rfl
  · cases hcause
    rfl

theorem configured_window (pager : Pager) (start count : Json) : Configured known (pager.window start count) := by
  have hinteger (parameter : String) (value : Json) : Configured known (Pager.integer parameter value) := by
    unfold Pager.integer
    split
    all_goals first | exact .ok _ | exact .error rfl | skip
    all_goals split
    all_goals first | exact .ok _ | exact .error rfl
  exact (hinteger _ start).bind fun _ _ => (hinteger _ count).bind fun _ _ => .ok _

theorem configured_filterOf (attributes : List (String × String)) (filter : Json) :
    Configured known (Request.filterOf attributes filter) := by
  have htext : Configured known (Request.filterText filter) := by
    unfold Request.filterText
    split
    all_goals first | exact .ok _ | exact .error rfl | skip
    split
    · exact .ok _
    · exact .error rfl
  refine htext.bind fun text _ => ?_
  split
  · exact .ok _
  · split
    · exact .ok _
    · exact .error rfl

end Roster
