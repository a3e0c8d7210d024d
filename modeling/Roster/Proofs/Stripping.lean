import Mathlib.Data.List.TakeWhile

/-!
Lists without what surrounds them.

What is dropped at both ends of a list are items that pass a test, and they are all dropped: the list that is left has
none of them at its ends.
-/

set_option autoImplicit false

namespace Roster

variable {α : Type} {p : α → Bool} {s t before : List α}

/-- The list without the items at both its ends that pass a test. -/
def stripped (p : α → Bool) (s : List α) : List α :=
  ((s.dropWhile p).reverse.dropWhile p).reverse

private theorem dropWhile_append_eq (hbefore : ∀ c ∈ before, p c = true) (ht : ∀ c ∈ t.head?, p c = false) :
    (before ++ t).dropWhile p = t := by
  rw [List.dropWhile_append_of_pos hbefore]
  cases t with
  | nil => rfl
  | cons c rest => rw [List.dropWhile_cons, ht c rfl, if_neg Bool.false_ne_true]

private theorem head?_dropWhile (p : α → Bool) (s : List α) : ∀ c ∈ (s.dropWhile p).head?, p c = false := by
  intro c hc
  have hnot := List.head?_dropWhile_not p s
  rw [Option.mem_def.1 hc] at hnot
  exact hnot

theorem stripped_eq_iff : stripped p s = t ↔
    ∃ before after, (∀ c ∈ before, p c = true) ∧ (∀ c ∈ after, p c = true) ∧ s = before ++ t ++ after ∧
      (∀ c ∈ t.head?, p c = false) ∧ ∀ c ∈ t.getLast?, p c = false := by
  constructor
  · rintro rfl
    have hleft := List.takeWhile_append_dropWhile (p := p) (l := s)
    have hright := List.takeWhile_append_dropWhile (p := p) (l := (s.dropWhile p).reverse)
    have hrest : s.dropWhile p = stripped p s ++ ((s.dropWhile p).reverse.takeWhile p).reverse := by
      rw [stripped, ← List.reverse_append, hright, List.reverse_reverse]
    refine ⟨s.takeWhile p, ((s.dropWhile p).reverse.takeWhile p).reverse, fun c hc => List.mem_takeWhile_imp hc,
      fun c hc => List.mem_takeWhile_imp (List.mem_reverse.1 hc), ?_, fun c hc => ?_, fun c hc => ?_⟩
    · rw [List.append_assoc, ← hrest, hleft]
    · refine head?_dropWhile p s c ?_
      rw [hrest, List.head?_append, Option.mem_def.1 hc]
      rfl
    · rw [stripped, List.getLast?_reverse] at hc
      exact head?_dropWhile p _ c hc
  · rintro ⟨before, after, hbefore, hafter, rfl, hhead, hlast⟩
    have hreverse : ∀ c ∈ after.reverse, p c = true := fun c hc => hafter c (List.mem_reverse.1 hc)
    rw [stripped]
    cases t with
    | nil =>
      have hall : ∀ c ∈ before ++ after, p c = true := fun c hc => (List.mem_append.1 hc).elim (hbefore c) (hafter c)
      rw [List.append_nil, List.dropWhile_eq_nil_iff.2 hall]
      rfl
    | cons c rest =>
      have hfirst : ∀ d ∈ (c :: rest ++ after).head?, p d = false := hhead
      have hfinal : ∀ d ∈ (c :: rest).reverse.head?, p d = false := by
        rw [List.head?_reverse]
        exact hlast
      rw [List.append_assoc, dropWhile_append_eq hbefore hfirst, List.reverse_append,
        dropWhile_append_eq hreverse hfinal, List.reverse_reverse]

end Roster
