import Mathlib.Data.List.Nodup

/-!
Lists that take up items without repeating them.
-/

set_option autoImplicit false

namespace Roster

variable {α : Type} [BEq α]

/-- The items of a list that are not among those of another, each once, at its first place. -/
def newcomers (old new : List α) : List α :=
  (new.filter fun x => !old.contains x).eraseDups

/-- The items of a list and after them those of another that are new. -/
def including (old new : List α) : List α :=
  old ++ newcomers old new

theorem including_nil (old : List α) : including old [] = old :=
  List.append_nil old

theorem newcomers_nil_left (new : List α) : newcomers [] new = new.eraseDups := by
  have hall : (new.filter fun x => !([] : List α).contains x) = new :=
    List.filter_eq_self.2 fun _ _ => rfl
  rw [newcomers, hall]

theorem including_nil_left (new : List α) : including [] new = new.eraseDups :=
  newcomers_nil_left new

variable [LawfulBEq α]

theorem newcomers_cons_of_mem {old : List α} {x : α} (hx : x ∈ old) (new : List α) :
    newcomers old (x :: new) = newcomers old new := by
  have hcontains : (!old.contains x) = false := by rw [List.contains_iff_mem.2 hx, Bool.not_true]
  rw [newcomers, List.filter_cons, hcontains, if_neg Bool.false_ne_true, newcomers]

theorem newcomers_cons_of_not_mem {old : List α} {x : α} (hx : x ∉ old) (new : List α) :
    newcomers old (x :: new) = x :: newcomers (old ++ [x]) new := by
  have hcontains : (!old.contains x) = true := by
    rw [Bool.not_eq_true', ← Bool.not_eq_true, List.contains_iff_mem]
    exact hx
  have hfilter : (new.filter fun y => !old.contains y).filter (fun y => !y == x) =
      new.filter fun y => !(old ++ [x]).contains y := by
    rw [List.filter_filter]
    refine List.filter_congr fun y _ => ?_
    rw [Bool.eq_iff_iff]
    simp [and_comm, not_or]
  rw [newcomers, List.filter_cons, hcontains, if_pos rfl, List.eraseDups_cons, hfilter, newcomers]

theorem mem_newcomers {old new : List α} {x : α} : x ∈ newcomers old new ↔ x ∈ new ∧ x ∉ old := by
  rw [newcomers, List.mem_eraseDups, List.mem_filter, Bool.not_eq_true', ← Bool.not_eq_true, List.contains_iff_mem]

theorem including_cons_of_mem {old : List α} {x : α} (hx : x ∈ old) (new : List α) :
    including old (x :: new) = including old new := by
  rw [including, newcomers_cons_of_mem hx, including]

theorem including_cons_of_not_mem {old : List α} {x : α} (hx : x ∉ old) (new : List α) :
    including old (x :: new) = including (old ++ [x]) new := by
  rw [including, newcomers_cons_of_not_mem hx, including, List.append_assoc, List.singleton_append]

/-- Taking up the items one after the other. -/
theorem foldl_eq_including (old new : List α) :
    new.foldl (fun items x => if items.contains x then items else items ++ [x]) old = including old new := by
  induction new generalizing old with
  | nil => exact (including_nil old).symm
  | cons x rest ih =>
    rw [List.foldl_cons]
    by_cases hx : x ∈ old
    · rw [if_pos (List.contains_iff_mem.2 hx), ih, including_cons_of_mem hx]
    · rw [if_neg (mt List.contains_iff_mem.1 hx), ih, including_cons_of_not_mem hx]

theorem including_append (old a b : List α) : including old (a ++ b) = including (including old a) b := by
  rw [← foldl_eq_including, List.foldl_append, foldl_eq_including, foldl_eq_including]

theorem mem_including {old new : List α} {x : α} : x ∈ including old new ↔ x ∈ old ∨ x ∈ new := by
  rw [including, List.mem_append, mem_newcomers]
  by_cases hx : x ∈ old
  · simp [hx]
  · simp [hx]

theorem nodup_including {old : List α} (hold : old.Nodup) (new : List α) : (including old new).Nodup := by
  induction new generalizing old with
  | nil =>
    rw [including_nil]
    exact hold
  | cons x rest ih =>
    by_cases hx : x ∈ old
    · rw [including_cons_of_mem hx]
      exact ih hold
    · rw [including_cons_of_not_mem hx]
      refine ih ?_
      rw [← List.concat_eq_append]
      exact List.Nodup.concat hx hold

theorem nodup_eraseDups (items : List α) : items.eraseDups.Nodup := by
  rw [← including_nil_left]
  exact nodup_including List.nodup_nil items

/-- Items that are all new and distinct are taken up as they are. -/
theorem including_eq_append {old new : List α} (hnodup : new.Nodup) (hnew : ∀ x ∈ new, x ∉ old) :
    including old new = old ++ new := by
  induction new generalizing old with
  | nil => rw [including_nil, List.append_nil]
  | cons x rest ih =>
    obtain ⟨hx, hrest⟩ := List.nodup_cons.1 hnodup
    have hlater : ∀ y ∈ rest, y ∉ old ++ [x] := by
      intro y hy hmem
      rcases List.mem_append.1 hmem with hmem | hmem
      · exact hnew y (List.mem_cons_of_mem x hy) hmem
      · rw [List.mem_singleton.1 hmem] at hy
        exact hx hy
    rw [including_cons_of_not_mem (hnew x List.mem_cons_self), ih hrest hlater, List.append_assoc,
      List.singleton_append]

theorem eraseDups_of_nodup {items : List α} (h : items.Nodup) : items.eraseDups = items := by
  rw [← including_nil_left, including_eq_append h fun _ _ => List.not_mem_nil, List.nil_append]

/-- Items that are left out are never the first of their sort. -/
theorem find?_including (p : α → Bool) (old new : List α) :
    (including old new).find? p = (old ++ new).find? p := by
  induction new generalizing old with
  | nil => rw [including_nil, List.append_nil]
  | cons x rest ih =>
    by_cases hx : x ∈ old
    · rw [including_cons_of_mem hx, ih, List.find?_append, List.find?_append]
      cases h : old.find? p with
      | some y => rfl
      | none =>
        have hpx : ¬p x = true := List.find?_eq_none.1 h x hx
        rw [Option.none_or, Option.none_or, List.find?_cons_of_neg hpx]
    · rw [including_cons_of_not_mem hx, ih, List.append_assoc, List.singleton_append]

theorem find?_eraseDups (p : α → Bool) (items : List α) : items.eraseDups.find? p = items.find? p := by
  rw [← including_nil_left, find?_including, List.nil_append]

/-- What is left out when the items are taken up once is left out the second time as well. -/
theorem including_including (old mid new : List α) :
    including old (including mid new) = including (including old mid) new := by
  induction new generalizing mid with
  | nil => rw [including_nil, including_nil]
  | cons x rest ih =>
    by_cases hx : x ∈ mid
    · have hx' : x ∈ including old mid := mem_including.2 (.inr hx)
      rw [including_cons_of_mem hx, including_cons_of_mem hx', ih]
    · rw [including_cons_of_not_mem hx, ih, including_append old mid [x], ← including_append,
        List.singleton_append]

theorem including_eraseDups (old new : List α) : including old new.eraseDups = including old new := by
  rw [← including_nil_left, including_including, including_nil]

/-! ## Items that count as the same -/

section Same

variable {β : Type} {same : β → β → Bool}

theorem mem_of_mem_eraseDupsBy {items : List β} {x : β} (hx : x ∈ items.eraseDupsBy same) : x ∈ items := by
  have hloop (items listed : List β) (hx : x ∈ List.eraseDupsBy.loop same items listed) : x ∈ listed ∨ x ∈ items := by
    induction items generalizing listed with
    | nil => exact .inl (List.mem_reverse.1 hx)
    | cons y rest ih =>
      rw [List.eraseDupsBy.loop] at hx
      split at hx
      next => exact (ih listed hx).imp_right (List.mem_cons_of_mem y)
      next =>
        rcases ih (y :: listed) hx with hx | hx
        · rcases List.mem_cons.1 hx with rfl | hx
          · exact .inr List.mem_cons_self
          · exact .inl hx
        · exact .inr (List.mem_cons_of_mem y hx)
  exact (hloop items [] hx).resolve_left List.not_mem_nil

private theorem including_map_loop {f : β → α} (old : List α) {items listed : List β}
    (h : ∀ x ∈ items, ∀ y, y ∈ listed ∨ y ∈ items → same x y = true → f x = f y) :
    including old ((List.eraseDupsBy.loop same items listed).map f) =
      including (including old (listed.reverse.map f)) (items.map f) := by
  induction items generalizing listed with
  | nil => exact (including_nil _).symm
  | cons x rest ih =>
    have hrest : ∀ x' ∈ rest, ∀ y, y ∈ listed ∨ y ∈ rest → same x' y = true → f x' = f y := fun x' hx' y hy =>
      h x' (List.mem_cons_of_mem x hx') y (hy.imp_right (List.mem_cons_of_mem x))
    rw [List.eraseDupsBy.loop]
    split
    next hany =>
      obtain ⟨y, hy, hxy⟩ := List.any_eq_true.1 hany
      have hmem : f x ∈ including old (listed.reverse.map f) := by
        rw [h x List.mem_cons_self y (.inl hy) hxy]
        exact mem_including.2 (.inr (List.mem_map_of_mem (List.mem_reverse.2 hy)))
      rw [List.map_cons, including_cons_of_mem hmem]
      exact ih hrest
    next =>
      have hlisted : ∀ x' ∈ rest, ∀ y, y ∈ x :: listed ∨ y ∈ rest → same x' y = true → f x' = f y := by
        intro x' hx' y hy
        rcases hy with hy | hy
        · rcases List.mem_cons.1 hy with rfl | hy
          · exact h x' (List.mem_cons_of_mem _ hx') y (.inr List.mem_cons_self)
          · exact hrest x' hx' y (.inl hy)
        · exact hrest x' hx' y (.inr hy)
      rw [ih hlisted, List.reverse_cons, List.map_append, List.map_singleton, including_append,
        ← including_append _ [f x], List.singleton_append, List.map_cons]

/-- Where items that count as the same have the same image, it makes no difference to the images that are taken up
whether such items are left out first. -/
theorem including_map_eraseDupsBy {f : β → α} {items : List β}
    (h : ∀ x ∈ items, ∀ y ∈ items, same x y = true → f x = f y) (old : List α) :
    including old ((items.eraseDupsBy same).map f) = including old (items.map f) := by
  have hitems : ∀ x ∈ items, ∀ y, y ∈ [] ∨ y ∈ items → same x y = true → f x = f y := fun x hx y hy =>
    h x hx y (hy.resolve_left List.not_mem_nil)
  have hloop := including_map_loop old hitems
  rw [List.reverse_nil, List.map_nil, including_nil] at hloop
  exact hloop

end Same

end Roster
