import Mathlib.Data.List.Induction
import Mathlib.Data.List.Pairwise
import Roster.Members
import Roster.Proofs.Sameness

/-!
Distinct identifiers in lists of members.

A list of members is read if each member is an object with a value that is not null. What is read are the values at
the places before which no value stands that counts as the same, in the order of these places. So no two of them count
as the same, each value counts as the same as exactly one of them, and they are read again from a list of members made
of them.
-/

set_option autoImplicit false

namespace Roster

/-! ## First occurrences -/

section Firsts

variable {α : Type} {R : α → α → Prop} {values firsts : List α}

/-- The values of a list that are related to none before them, in their order. -/
inductive Firsts (R : α → α → Prop) : List α → List α → Prop
  | nil : Firsts R [] []
  | fresh {values firsts : List α} {v : α} : Firsts R values firsts → (∀ w ∈ values, ¬R w v) →
      Firsts R (values ++ [v]) (firsts ++ [v])
  | repeated {values firsts : List α} {v : α} : Firsts R values firsts → (∃ w ∈ values, R w v) →
      Firsts R (values ++ [v]) firsts

namespace Firsts

theorem sublist (h : Firsts R values firsts) : firsts.Sublist values := by
  induction h with
  | nil => exact .slnil
  | fresh _ _ ih => exact ih.append (.refl _)
  | repeated _ _ ih => exact ih.trans (List.sublist_append_left _ _)

theorem pairwise (h : Firsts R values firsts) : firsts.Pairwise fun v w => ¬R v w := by
  induction h with
  | nil => exact .nil
  | @fresh values firsts v hfirsts hnone ih =>
    refine List.pairwise_append.2 ⟨ih, List.pairwise_singleton _ _, fun w hw u hu => ?_⟩
    rw [List.mem_singleton.1 hu]
    exact hnone w (hfirsts.sublist.mem hw)
  | repeated _ _ ih => exact ih

/-- Where the relation is an equivalence every value is related to one of the first ones. -/
theorem exists_related (h : Firsts R values firsts) (refl : ∀ v ∈ values, R v v) (symm : ∀ v w, R v w → R w v)
    (trans : ∀ u v w, R u v → R v w → R u w) : ∀ v ∈ values, ∃ w ∈ firsts, R v w := by
  induction h with
  | nil => exact fun _ hv => absurd hv List.not_mem_nil
  | @fresh values firsts v _ _ ih =>
    rw [List.forall_mem_append, List.forall_mem_singleton] at refl ⊢
    refine ⟨fun w hw => ?_, v, List.mem_append_right _ (List.mem_singleton_self v), refl.2⟩
    obtain ⟨u, hu, hr⟩ := ih refl.1 w hw
    exact ⟨u, List.mem_append_left _ hu, hr⟩
  | @repeated values firsts v _ hseen ih =>
    rw [List.forall_mem_append, List.forall_mem_singleton] at refl ⊢
    obtain ⟨w, hw, hwv⟩ := hseen
    obtain ⟨u, hu, hwu⟩ := ih refl.1 w hw
    exact ⟨ih refl.1, u, hu, trans v w u (symm w v hwv) hwu⟩

/-- If no two values are related then all are first ones. -/
theorem eq_of_pairwise (h : Firsts R values firsts) (hpairwise : values.Pairwise fun v w => ¬R v w) :
    firsts = values := by
  induction h with
  | nil => rfl
  | fresh _ _ ih => rw [ih (List.pairwise_append.1 hpairwise).1]
  | @repeated values firsts v _ hseen _ =>
    obtain ⟨w, hw, hwv⟩ := hseen
    exact absurd hwv ((List.pairwise_append.1 hpairwise).2.2 w hw v (List.mem_singleton_self v))

end Firsts

/-- A place in a list has a value, and no value before it is related to that. -/
def IsFirst (R : α → α → Prop) (values : List α) (i : Nat) : Prop :=
  ∃ v, values[i]? = some v ∧ ∀ w ∈ values.take i, ¬R w v

theorem IsFirst.lt {i : Nat} (h : IsFirst R values i) : i < values.length := by
  obtain ⟨v, hv, -⟩ := h
  exact (List.getElem?_eq_some_iff.1 hv).1

theorem isFirst_append_iff {v : α} {i : Nat} : IsFirst R (values ++ [v]) i ↔
    IsFirst R values i ∨ i = values.length ∧ ∀ w ∈ values, ¬R w v := by
  unfold IsFirst
  rcases Nat.lt_trichotomy i values.length with hi | rfl | hi
  · rw [List.getElem?_append_left hi, List.take_append_of_le_length (Nat.le_of_lt hi),
      or_iff_left fun h => Nat.ne_of_lt hi h.1]
  · rw [List.getElem?_concat_length, List.take_left, List.getElem?_eq_none (Nat.le_refl _)]
    simp
  · rw [List.getElem?_eq_none (Nat.le_of_lt hi), List.getElem?_eq_none (by rw [List.length_append]; exact hi)]
    simp [Nat.ne_of_gt hi]

/-- Some increasing places in a list are all first ones, and these values stand at them. -/
def StandFirst (R : α → α → Prop) (values firsts : List α) : Prop :=
  ∃ places : List Nat, places.Pairwise (· < ·) ∧ (∀ i, i ∈ places ↔ IsFirst R values i) ∧
    firsts = places.filterMap fun i => values[i]?

theorem Firsts.standFirst (h : Firsts R values firsts) : StandFirst R values firsts := by
  induction h with
  | nil => exact ⟨[], .nil, fun i => iff_of_false List.not_mem_nil fun h => absurd h.lt (Nat.not_lt_zero i), rfl⟩
  | @fresh values firsts v _ hnone ih =>
    obtain ⟨places, hsorted, hplaces, rfl⟩ := ih
    have hlt : ∀ i ∈ places, i < values.length := fun i hi => ((hplaces i).1 hi).lt
    refine ⟨places ++ [values.length], ?_, fun i => ?_, ?_⟩
    · refine List.pairwise_append.2 ⟨hsorted, List.pairwise_singleton _ _, fun i hi j hj => ?_⟩
      rw [List.mem_singleton.1 hj]
      exact hlt i hi
    · rw [isFirst_append_iff, List.mem_append, hplaces, List.mem_singleton, and_iff_left hnone]
    · rw [List.filterMap_append, List.filterMap_congr fun i hi => List.getElem?_append_left (hlt i hi)]
      simp
  | @repeated values firsts v _ hseen ih =>
    obtain ⟨places, hsorted, hplaces, rfl⟩ := ih
    obtain ⟨w, hw, hwv⟩ := hseen
    refine ⟨places, hsorted, fun i => ?_, ?_⟩
    · rw [isFirst_append_iff, hplaces, or_iff_left fun h => h.2 w hw hwv]
    · rw [List.filterMap_congr fun i hi => List.getElem?_append_left ((hplaces i).1 hi).lt]

end Firsts

/-! ## The values that members give -/

namespace Members

open Json (Equals IsProper)

variable {given values listed : List Json} {member v : Json}

/-- A member gives a value for a user: it is an object and has the value, which is not null, under its name. -/
inductive Gives : Json → Json → Prop
  | intro {fields : List (String × Json)} {v : Json} :
      fields.lookup "value" = some v → v ≠ .null → Gives (.obj fields) v

theorem identifier?_eq_some_iff : identifier? member = some v ↔ Gives member v := by
  constructor
  · intro h
    rw [identifier?] at h
    split at h
    next => cases h
    next hnull =>
      cases member with
      | obj fields =>
        refine .intro h ?_
        rintro rfl
        exact hnull h
      | _ => cases h
  · rintro ⟨hlookup, hnull⟩
    rw [identifier?, Json.field?]
    split
    next h => exact absurd (Option.some.inj (hlookup.symm.trans h)) hnull
    next => exact hlookup

theorem Gives.isProper (h : Gives member v) (hmember : member.IsProper) : v.IsProper := by
  obtain ⟨hlookup, -⟩ := h
  exact hmember.field _ (mem_of_lookup hlookup)

theorem mapM_identifier?_eq_some_iff : given.mapM identifier? = some values ↔ List.Forall₂ Gives given values := by
  induction given generalizing values with
  | nil =>
    rw [List.mapM_nil, List.forall₂_nil_left_iff]
    exact Option.some_inj.trans eq_comm
  | cons member rest ih =>
    rw [List.mapM_cons, List.forall₂_cons_left_iff]
    simp only [Option.bind_eq_bind, Option.bind_eq_some_iff, identifier?_eq_some_iff, ih, Option.pure_def,
      Option.some_inj, eq_comm (a := values)]
    constructor
    · rintro ⟨v, hv, rest', hrest, hvalues⟩
      exact ⟨v, rest', hv, hrest, hvalues⟩
    · rintro ⟨v, rest', hv, hrest, hvalues⟩
      exact ⟨v, hv, rest', hrest, hvalues⟩

/-! ## The identifiers that are read -/

/-- One more value is listed if it is a first one. -/
theorem firsts_addIdentifier (h : Firsts Equals values listed) (hvalues : ∀ w ∈ values, w.IsProper) (hv : v.IsProper) :
    Firsts Equals (values ++ [v]) (addIdentifier listed v) := by
  have hlisted : listed.any (Json.same v) = true ↔ ∃ w ∈ listed, Equals v w := by
    rw [List.any_eq_true]
    exact exists_congr fun w => and_congr_right fun hw => Json.same_iff_equals hv (hvalues w (h.sublist.mem hw))
  have hseen : (∃ w ∈ listed, Equals v w) ↔ ∃ w ∈ values, Equals w v := by
    constructor
    · rintro ⟨w, hw, hequals⟩
      exact ⟨w, h.sublist.mem hw, hequals.symm⟩
    · rintro ⟨w, hw, hequals⟩
      obtain ⟨u, hu, hequals'⟩ := h.exists_related (fun w hw => (hvalues w hw).equals_self) (fun _ _ => .symm)
        (fun _ _ _ => .trans) w hw
      exact ⟨u, hu, hequals.symm.trans hequals'⟩
  rw [hseen] at hlisted
  rw [addIdentifier]
  split
  next hany => exact .repeated h (hlisted.1 hany)
  next hany => exact .fresh h fun w hw hequals => hany (hlisted.2 ⟨w, hw, hequals⟩)

theorem firsts_foldl_addIdentifier (hvalues : ∀ v ∈ values, v.IsProper) :
    Firsts Equals values (values.foldl addIdentifier []) := by
  -- From the end, since whether a value is listed depends on those before it.
  induction values using List.reverseRecOn with
  | nil => exact .nil
  | append_singleton values v ih =>
    rw [List.forall_mem_append, List.forall_mem_singleton] at hvalues
    rw [List.foldl_append, List.foldl_cons, List.foldl_nil]
    exact firsts_addIdentifier (ih hvalues.1) hvalues.1 hvalues.2

theorem identifiers_eq_ok (expected : String) (h : List.Forall₂ Gives given values) :
    identifiers (.arr given) expected = .ok (values.foldl addIdentifier []) := by
  rw [identifiers, identifiers?, mapM_identifier?_eq_some_iff.2 h]
  rfl

/-- A list of members is read, or refused if it is no list or a member gives no value. -/
theorem identifiers_eq_error_iff {members : Json} {expected : String} {e : Error} :
    identifiers members expected = .error e ↔
      e = .members expected ∧ ∀ given, members = .arr given → ∃ member ∈ given, ∀ v, ¬Gives member v := by
  constructor
  · intro h
    rw [identifiers] at h
    split at h
    next => cases h
    next hnone =>
      cases h
      refine ⟨rfl, ?_⟩
      rintro given rfl
      by_contra! hgives
      obtain ⟨values, hvalues⟩ := exists_forall₂ hgives
      rw [identifiers?, mapM_identifier?_eq_some_iff.2 hvalues] at hnone
      cases hnone
  · rintro ⟨rfl, hlacks⟩
    rw [identifiers]
    split
    next listed hlisted =>
      rw [identifiers?.eq_def] at hlisted
      split at hlisted
      next given =>
        obtain ⟨values, hvalues, -⟩ := Option.map_eq_some_iff.1 hlisted
        obtain ⟨member, hmember, hnone⟩ := hlacks given rfl
        obtain ⟨v, -, hv⟩ := exists_of_forall₂ (mapM_identifier?_eq_some_iff.1 hvalues) member hmember
        exact absurd hv (hnone v)
      next => cases hlisted
    next => rfl

/-- A list of members made of values. -/
def ofValues (values : List Json) : Json :=
  .arr (values.map fun v => .obj [("value", v)])

theorem gives_ofValues (hvalues : ∀ v ∈ values, v ≠ .null) :
    List.Forall₂ Gives (values.map fun v => .obj [("value", v)]) values := by
  rw [List.forall₂_map_left_iff, List.forall₂_same]
  exact fun v hv => .intro rfl (hvalues v hv)

/-- A list of members is refused, with what was expected, if it is no array or one of its items is no object with a
value that is not null. Otherwise the values at the places before which no value stands that counts as the same are
read, in their order: none of them counts as the same as another, each value counts as the same as exactly one of them,
and from the list of members that is made of them they are read again. -/
theorem identifiers_keep_firsts (members : Json) (expected : String) (h : members.IsProper) :
    (∀ e, identifiers members expected = .error e ↔
      e = .members expected ∧ ∀ given, members = .arr given → ∃ member ∈ given, ∀ v, ¬Gives member v) ∧
    ∀ given values, members = .arr given → List.Forall₂ Gives given values →
      ∃ listed, identifiers members expected = .ok listed ∧ StandFirst Equals values listed ∧
        listed.Sublist values ∧ listed.Pairwise (fun v w => ¬Equals v w) ∧
        (∀ v ∈ values, ∃! w, w ∈ listed ∧ Equals v w) ∧
        identifiers (ofValues listed) expected = .ok listed := by
  refine ⟨fun e => identifiers_eq_error_iff, ?_⟩
  rintro given values rfl hgives
  have hproper : ∀ v ∈ values, v.IsProper := by
    intro v hv
    obtain ⟨member, hmember, hgive⟩ := exists_of_forall₂ hgives.flip v hv
    exact hgive.isProper (h.item member hmember)
  have hnull : ∀ v ∈ values, v ≠ .null := by
    intro v hv
    obtain ⟨member, -, ⟨-, hnull⟩⟩ := exists_of_forall₂ hgives.flip v hv
    exact hnull
  have hfirsts := firsts_foldl_addIdentifier hproper
  generalize hlisted : values.foldl addIdentifier [] = listed at hfirsts
  have hsublist := hfirsts.sublist
  have hdistinct := hfirsts.pairwise
  refine ⟨listed, ?_, hfirsts.standFirst, hsublist, hdistinct, fun v hv => ?_, ?_⟩
  · rw [identifiers_eq_ok expected hgives, hlisted]
  · obtain ⟨w, hw, hequals⟩ := hfirsts.exists_related (fun v hv => (hproper v hv).equals_self) (fun _ _ => .symm)
      (fun _ _ _ => .trans) v hv
    refine ⟨w, ⟨hw, hequals⟩, ?_⟩
    rintro u ⟨hu, hequals'⟩
    by_contra hne
    have : Std.Symm fun v w => ¬Equals v w := ⟨fun v w hdiffer hequals => hdiffer hequals.symm⟩
    exact hdistinct.forall hu hw hne (hequals'.symm.trans hequals)
  · rw [ofValues, identifiers_eq_ok expected (gives_ofValues fun v hv => hnull v (hsublist.mem hv))]
    have hagain := firsts_foldl_addIdentifier fun v hv => hproper v (hsublist.mem hv)
    rw [hagain.eq_of_pairwise hdistinct]

/-- One, as a number with a point and as a truth value too, and an object with its fields in two orders. -/
private def repeating : List Json :=
  [.int 1, .double ⟨0x3ff0000000000000#64⟩, .str "x", .obj [("a", .int 1), ("b", .arr [.int 2])], .bool true,
    .obj [("b", .arr [.double ⟨0x4000000000000000#64⟩]), ("a", .bool true)]]

theorem identifiers_keep_firsts_repeating : (ofValues repeating).IsProper ∧
    ∃ listed, identifiers (ofValues repeating) patchExpectation = .ok listed ∧
      listed = [.int 1, .str "x", .obj [("a", .int 1), ("b", .arr [.int 2])]] ∧ StandFirst Equals repeating listed ∧
      (∀ v ∈ repeating, ∃! w, w ∈ listed ∧ Equals v w) ∧
      identifiers (ofValues listed) patchExpectation = .ok listed := by
  have hproper : (ofValues repeating).IsProper := ⟨by decide +kernel, by decide +kernel⟩
  have hnull : ∀ v ∈ repeating, v ≠ .null := by decide +kernel
  have hread : identifiers (ofValues repeating) patchExpectation =
      .ok [.int 1, .str "x", .obj [("a", .int 1), ("b", .arr [.int 2])]] := by decide +kernel
  obtain ⟨listed, hlisted, hfirst, -, -, hone, hagain⟩ :=
    (identifiers_keep_firsts _ patchExpectation hproper).2 _ _ rfl (gives_ofValues hnull)
  exact ⟨hproper, listed, hlisted, Except.ok.inj (hlisted.symm.trans hread), hfirst, hone, hagain⟩

end Members

end Roster
