import Roster.Json.Reader
import Roster.Proofs.CustomAttributes

/-!
Proper values.

A value is proper if no object in it has two fields of one name and what is written as a number in it is one. The
reader of documents keeps of fields with one name only the last, so what it reads can only fail to be proper by the
constant that is no number.
-/

set_option autoImplicit false

namespace Roster

open Number (Double)

namespace Json

variable {name : String} {v : Json} {p : Json → Bool} {items : List Json} {fields : List (String × Json)}

/-! ## Values and the values in them -/

/-- What holds of a value whenever it holds of all values directly in it holds of every value. -/
@[elab_as_elim]
theorem inductionOnParts {P : Json → Prop} (null : P .null) (bool : ∀ b, P (.bool b)) (int : ∀ n, P (.int n))
    (double : ∀ x, P (.double x)) (str : ∀ s, P (.str s)) (torn : ∀ codePoints, P (.torn codePoints))
    (arr : ∀ items, (∀ item ∈ items, P item) → P (.arr items))
    (obj : ∀ fields : List (String × Json), (∀ f ∈ fields, P f.2) → P (.obj fields)) (value : Json) : P value :=
  @Json.rec P (fun items => ∀ item ∈ items, P item) (fun fields => ∀ f ∈ fields, P f.2) (fun f => P f.2)
    null bool int double str torn arr obj (fun _ h => absurd h List.not_mem_nil)
    (fun _ _ hfirst hrest => List.forall_mem_cons.2 ⟨hfirst, hrest⟩) (fun _ h => absurd h List.not_mem_nil)
    (fun _ _ hfirst hrest => List.forall_mem_cons.2 ⟨hfirst, hrest⟩) (fun _ _ h => h) value

mutual

/-- The value and all values in it pass a test. -/
def everywhere (p : Json → Bool) : Json → Bool
  | .arr items => p (.arr items) && everywhereItems p items
  | .obj fields => p (.obj fields) && everywhereFields p fields
  | value => p value

def everywhereItems (p : Json → Bool) : List Json → Bool
  | [] => true
  | item :: rest => everywhere p item && everywhereItems p rest

def everywhereFields (p : Json → Bool) : List (String × Json) → Bool
  | [] => true
  | (_, value) :: rest => everywhere p value && everywhereFields p rest

end

theorem everywhereItems_iff : everywhereItems p items = true ↔ ∀ item ∈ items, item.everywhere p = true := by
  induction items with
  | nil => exact iff_of_true rfl fun _ h => absurd h List.not_mem_nil
  | cons item rest ih => rw [everywhereItems, Bool.and_eq_true, List.forall_mem_cons, ih]

theorem everywhereFields_iff : everywhereFields p fields = true ↔ ∀ f ∈ fields, f.2.everywhere p = true := by
  induction fields with
  | nil => exact iff_of_true rfl fun _ h => absurd h List.not_mem_nil
  | cons f rest ih => rw [everywhereFields, Bool.and_eq_true, List.forall_mem_cons, ih]

theorem everywhere_arr : (Json.arr items).everywhere p = true ↔
    p (.arr items) = true ∧ ∀ item ∈ items, item.everywhere p = true := by
  rw [everywhere, Bool.and_eq_true, everywhereItems_iff]

theorem everywhere_obj : (Json.obj fields).everywhere p = true ↔
    p (.obj fields) = true ∧ ∀ f ∈ fields, f.2.everywhere p = true := by
  rw [everywhere, Bool.and_eq_true, everywhereFields_iff]

/-- No two fields of an object have one name. -/
def hasDistinctNames : Json → Bool
  | .obj fields => (fields.map Prod.fst).Nodup
  | _ => true

/-- The value is a number if it is written as one. -/
def isNoNan : Json → Bool
  | .double x => x.magnitude != .nan
  | _ => true

/-- No object in the value has two fields of one name, and what is written as a number in it is one. -/
structure IsProper (value : Json) : Prop where
  names : value.everywhere hasDistinctNames = true
  numbers : value.everywhere isNoNan = true

theorem IsProper.item (h : (Json.arr items).IsProper) : ∀ item ∈ items, item.IsProper :=
  fun item hitem => ⟨(everywhere_arr.1 h.names).2 item hitem, (everywhere_arr.1 h.numbers).2 item hitem⟩

theorem IsProper.field (h : (Json.obj fields).IsProper) : ∀ f ∈ fields, f.2.IsProper :=
  fun f hf => ⟨(everywhere_obj.1 h.names).2 f hf, (everywhere_obj.1 h.numbers).2 f hf⟩

theorem IsProper.nodup (h : (Json.obj fields).IsProper) : (fields.map Prod.fst).Nodup :=
  of_decide_eq_true (everywhere_obj.1 h.names).1

theorem IsProper.magnitude_ne {x : Double} (h : (Json.double x).IsProper) : x.magnitude ≠ .nan :=
  bne_iff_ne.1 h.numbers

/-! ## Documents that are read -/

theorem nodup_setField (h : (fields.map Prod.fst).Nodup) : ((setField name v fields).map Prod.fst).Nodup := by
  induction fields with
  | nil => exact List.pairwise_singleton _ _
  | cons f rest ih =>
    rw [List.map_cons, List.nodup_cons] at h
    rw [setField]
    split
    next => exact List.nodup_cons.2 h
    next hne =>
      refine List.nodup_cons.2 ⟨fun hmem => ?_, ih h.2⟩
      rcases name_of_setField hmem with heq | hmem
      · exact hne heq
      · exact h.1 hmem

theorem forall_setField {P : Json → Prop} (hv : P v) (h : ∀ f ∈ fields, P f.2) :
    ∀ f ∈ setField name v fields, P f.2 := by
  induction fields with
  | nil => exact List.forall_mem_singleton.2 hv
  | cons f rest ih =>
    rw [List.forall_mem_cons] at h
    rw [setField]
    split
    next => exact List.forall_mem_cons.2 ⟨hv, h.2⟩
    next => exact List.forall_mem_cons.2 ⟨h.1, ih h.2⟩

private theorem everywhere_of_readWord {word s rest : List Char} {value : Json}
    (hvalue : value.everywhere hasDistinctNames = true) (h : readWord word value s = .ok (v, rest)) :
    v.everywhere hasDistinctNames = true := by
  rw [readWord] at h
  split at h <;> cases h
  exact hvalue

private theorem everywhere_of_readUnsigned {negative : Bool} {s rest : List Char}
    (h : readUnsigned negative s = .ok (v, rest)) : v.everywhere hasDistinctNames = true := by
  unfold readUnsigned at h
  extract_lets whole at h
  split at h
  next => cases h
  next =>
    dsimp only at h
    split at h
    next =>
      split at h
      next =>
        cases h
        rfl
      next => cases h
    next =>
      cases h
      rfl

/-- What is read in a number of steps has distinct names everywhere. -/
structure ReadsDistinct (fuel : Nat) : Prop where
  value : ∀ {levels s v rest}, readValue fuel levels s = .ok (v, rest) → v.everywhere hasDistinctNames = true
  items : ∀ {levels s items rest}, readItems fuel levels s = .ok (items, rest) →
    ∀ item ∈ items, item.everywhere hasDistinctNames = true
  fields : ∀ {levels done s fields rest}, (Json.obj done).everywhere hasDistinctNames = true →
    readFields fuel levels done s = .ok (fields, rest) → (Json.obj fields).everywhere hasDistinctNames = true

namespace ReadsDistinct

variable {fuel : Nat}

theorem zero : ReadsDistinct 0 where
  value h := by cases h
  items h := by cases h
  fields _ h := by cases h

private theorem value_succ (ih : ReadsDistinct fuel) {levels : Nat} {s rest : List Char}
    (h : readValue (fuel + 1) levels s = .ok (v, rest)) : v.everywhere hasDistinctNames = true := by
  rw [readValue.eq_def] at h
  dsimp only at h
  split at h
  next =>
    obtain ⟨⟨points, rest'⟩, -, h⟩ := bind_eq_ok.1 h
    cases h
    unfold ofPoints
    split <;> rfl
  next => cases h
  next => cases h
  next =>
    split at h
    next =>
      cases h
      rfl
    next =>
      obtain ⟨⟨items, rest'⟩, hitems, h⟩ := bind_eq_ok.1 h
      cases h
      exact everywhere_arr.2 ⟨rfl, ih.items hitems⟩
  next =>
    split at h
    next =>
      cases h
      rfl
    next =>
      obtain ⟨⟨fields, rest'⟩, hfields, h⟩ := bind_eq_ok.1 h
      cases h
      exact ih.fields rfl hfields
  next => exact everywhere_of_readWord rfl h
  next => exact everywhere_of_readWord rfl h
  next => exact everywhere_of_readWord rfl h
  next => exact everywhere_of_readWord rfl h
  next => exact everywhere_of_readWord rfl h
  next => exact everywhere_of_readWord rfl h
  next => exact everywhere_of_readUnsigned h
  next => exact everywhere_of_readUnsigned h

private theorem items_succ (ih : ReadsDistinct fuel) {levels : Nat} {s rest : List Char}
    (h : readItems (fuel + 1) levels s = .ok (items, rest)) :
    ∀ item ∈ items, item.everywhere hasDistinctNames = true := by
  rw [readItems] at h
  obtain ⟨⟨item, rest'⟩, hitem, h⟩ := bind_eq_ok.1 h
  dsimp only at h
  split at h
  next =>
    cases h
    exact List.forall_mem_singleton.2 (ih.value hitem)
  next =>
    obtain ⟨⟨items', rest''⟩, hitems, h⟩ := bind_eq_ok.1 h
    cases h
    exact List.forall_mem_cons.2 ⟨ih.value hitem, ih.items hitems⟩
  next => cases h

private theorem fields_succ (ih : ReadsDistinct fuel) {levels : Nat} {done : List (String × Json)} {s rest : List Char}
    (hdone : (Json.obj done).everywhere hasDistinctNames = true)
    (h : readFields (fuel + 1) levels done s = .ok (fields, rest)) :
    (Json.obj fields).everywhere hasDistinctNames = true := by
  rw [readFields.eq_def] at h
  dsimp only at h
  split at h
  next =>
    obtain ⟨⟨points, rest'⟩, -, h⟩ := bind_eq_ok.1 h
    dsimp only at h
    split at h
    next =>
      obtain ⟨⟨value, rest''⟩, hvalue, h⟩ := bind_eq_ok.1 h
      have hset : (Json.obj (setField (Text.ofPoints points) value done)).everywhere hasDistinctNames = true := by
        obtain ⟨hnodup, hfields⟩ := everywhere_obj.1 hdone
        refine everywhere_obj.2 ⟨decide_eq_true (nodup_setField (of_decide_eq_true hnodup)), ?_⟩
        exact forall_setField (P := fun v => v.everywhere hasDistinctNames = true) (ih.value hvalue) hfields
      dsimp only at h
      split at h
      next =>
        cases h
        exact hset
      next => exact ih.fields hset h
      next => cases h
    next => cases h
  next => cases h

theorem succ (ih : ReadsDistinct fuel) : ReadsDistinct (fuel + 1) where
  value := ih.value_succ
  items := ih.items_succ
  fields := ih.fields_succ

end ReadsDistinct

theorem readsDistinct (fuel : Nat) : ReadsDistinct fuel := by
  induction fuel with
  | zero => exact .zero
  | succ fuel ih => exact ih.succ

/-- What a document says is proper if no number in it is none. -/
theorem isProper_of_readWithin {levels : Nat} {s : List Char} (h : readWithin levels s = .ok v)
    (hnumbers : v.everywhere isNoNan = true) : v.IsProper := by
  obtain ⟨⟨value, rest⟩, hvalue, h⟩ := bind_eq_ok.1 h
  dsimp only at h
  split at h
  next =>
    cases h
    exact ⟨(readsDistinct _).value hvalue, hnumbers⟩
  next => cases h

end Json

end Roster
