import Mathlib.Data.List.Infix
import Mathlib.Data.List.TakeWhile
import Roster.Number.Integer
import Roster.Store.Like

/-!
What the patterns match.

The pattern that is made of a text matches this text and nothing else, the case of the letters A to Z aside; signs that
mean something in a pattern mean themselves in it. With a percent sign at its ends it matches the texts that contain the
text, or begin or end with it. A null character in the text ends the pattern early, and the sign after it is lost.
-/

set_option autoImplicit false

namespace Roster.Like

open Text (lowerPlain)

variable {pattern s t text : List Char} {c : Char}

/-! ## One item of a pattern -/

theorem matches_nil : matchesPattern [] text = true ↔ text = [] := by
  rw [matchesPattern, List.isEmpty_iff]

theorem mem_suffixes : t ∈ suffixes s ↔ t <:+ s := by
  induction s with
  | nil => simp [suffixes]
  | cons c s ih => rw [suffixes, List.mem_cons, ih, List.suffix_cons_iff]

theorem matches_percent : matchesPattern ('%' :: pattern) text = true ↔
    ∃ t, t <:+ text ∧ matchesPattern pattern t = true := by
  rw [matchesPattern, List.any_eq_true]
  exact exists_congr fun t => and_congr_left fun _ => mem_suffixes

theorem startsWithLetter_iff {next : List Char → Bool} :
    startsWithLetter c next text = true ↔ ∃ d rest, text = d :: rest ∧ d.toLower = c.toLower ∧ next rest = true := by
  cases text with
  | nil => simp [startsWithLetter]
  | cons d rest =>
    rw [startsWithLetter, sameLetter, Bool.and_eq_true, beq_iff_eq]
    constructor
    · rintro ⟨hletter, hnext⟩
      exact ⟨d, rest, rfl, hletter.symm, hnext⟩
    · rintro ⟨_, _, hcons, hletter, hnext⟩
      cases hcons
      exact ⟨hletter.symm, hnext⟩

/-- The characters that mean something in a pattern. -/
def IsSign (c : Char) : Prop :=
  c = '/' ∨ c = '%' ∨ c = '_'

instance (c : Char) : Decidable (IsSign c) :=
  inferInstanceAs (Decidable (_ ∨ _ ∨ _))

theorem escape_cons (c : Char) (s : List Char) :
    escape (c :: s) = if IsSign c then '/' :: c :: escape s else c :: escape s := by
  rw [escape, List.flatMap_cons]
  by_cases hsign : IsSign c
  · have hbool : (c == '/' || c == '%' || c == '_') = true := by simpa [IsSign, or_assoc] using hsign
    rw [if_pos hsign, hbool]
    rfl
  · have hbool : (c == '/' || c == '%' || c == '_') = false := by
      rw [← Bool.not_eq_true]
      simpa [IsSign, or_assoc] using hsign
    rw [if_neg hsign, hbool]
    rfl

theorem matches_letter (hsign : ¬IsSign c) :
    matchesPattern (c :: pattern) text = startsWithLetter c (matchesPattern pattern) text := by
  rw [matchesPattern.eq_def]
  split
  next h => cases h
  next h =>
    cases h
    exact absurd (.inl rfl) hsign
  next h =>
    cases h
    exact absurd (.inl rfl) hsign
  next h =>
    cases h
    exact absurd (.inr (.inl rfl)) hsign
  next h =>
    cases h
    exact absurd (.inr (.inr rfl)) hsign
  next h =>
    cases h
    rfl

/-- A character of a text stands in the pattern of the text for itself and the same letter in the other case. -/
theorem matches_escape_cons : matchesPattern (escape (c :: s) ++ pattern) text = true ↔
    ∃ d rest, text = d :: rest ∧ d.toLower = c.toLower ∧ matchesPattern (escape s ++ pattern) rest = true := by
  rw [escape_cons]
  by_cases hsign : IsSign c
  · rw [if_pos hsign, List.cons_append, List.cons_append, matchesPattern]
    exact startsWithLetter_iff
  · rw [if_neg hsign, List.cons_append, matches_letter hsign]
    exact startsWithLetter_iff

/-! ## Whole patterns -/

/-- The pattern of a text takes from a text a beginning that is the same in lower case. -/
theorem matches_escape_append : matchesPattern (escape s ++ pattern) text = true ↔
    ∃ head rest, text = head ++ rest ∧ lowerPlain head = lowerPlain s ∧ matchesPattern pattern rest = true := by
  induction s generalizing text with
  | nil =>
    constructor
    · intro h
      exact ⟨[], text, rfl, rfl, h⟩
    · rintro ⟨head, rest, rfl, hhead, h⟩
      rw [lowerPlain, lowerPlain, List.map_nil, List.map_eq_nil_iff] at hhead
      subst hhead
      exact h
  | cons c s ih =>
    rw [matches_escape_cons]
    constructor
    · rintro ⟨d, rest, rfl, hletter, hrest⟩
      obtain ⟨head, rest, rfl, hhead, h⟩ := ih.1 hrest
      refine ⟨d :: head, rest, rfl, ?_, h⟩
      rw [lowerPlain, lowerPlain, List.map_cons, List.map_cons, hletter]
      exact congrArg _ hhead
    · rintro ⟨head, rest, rfl, hhead, h⟩
      cases head with
      | nil => cases hhead
      | cons d head =>
        rw [lowerPlain, lowerPlain, List.map_cons, List.map_cons, List.cons.injEq] at hhead
        obtain ⟨hletter, hhead⟩ := hhead
        exact ⟨d, head ++ rest, rfl, hletter, ih.2 ⟨head, rest, rfl, hhead, h⟩⟩

theorem matches_exactly : matchesPattern (escape s) text = true ↔ lowerPlain s = lowerPlain text := by
  rw [← List.append_nil (escape s), matches_escape_append]
  constructor
  · rintro ⟨head, rest, rfl, hhead, hnil⟩
    rw [matches_nil.1 hnil, List.append_nil]
    exact hhead.symm
  · intro h
    exact ⟨text, [], (List.append_nil text).symm, h.symm, matches_nil.2 rfl⟩

theorem matches_start : matchesPattern (escape s ++ ['%']) text = true ↔ lowerPlain s <+: lowerPlain text := by
  rw [matches_escape_append]
  constructor
  · rintro ⟨head, rest, rfl, hhead, -⟩
    rw [← hhead]
    exact ⟨lowerPlain rest, List.map_append.symm⟩
  · rintro ⟨tail, htail⟩
    obtain ⟨head, rest, rfl, hhead, -⟩ := List.map_eq_append_iff.1 htail.symm
    exact ⟨head, rest, rfl, hhead, matches_percent.2 ⟨[], List.nil_suffix, matches_nil.2 rfl⟩⟩

theorem matches_end : matchesPattern ('%' :: escape s) text = true ↔ lowerPlain s <:+ lowerPlain text := by
  rw [matches_percent]
  constructor
  · rintro ⟨t, ⟨before, rfl⟩, ht⟩
    rw [matches_exactly.1 ht]
    exact ⟨lowerPlain before, List.map_append.symm⟩
  · rintro ⟨front, hfront⟩
    obtain ⟨before, t, rfl, -, ht⟩ := List.map_eq_append_iff.1 hfront.symm
    exact ⟨t, ⟨before, rfl⟩, matches_exactly.2 ht.symm⟩

theorem matches_within : matchesPattern ('%' :: escape s ++ ['%']) text = true ↔ lowerPlain s <:+: lowerPlain text := by
  rw [List.cons_append, matches_percent]
  constructor
  · rintro ⟨t, ⟨before, rfl⟩, ht⟩
    obtain ⟨tail, htail⟩ := matches_start.1 ht
    refine ⟨lowerPlain before, tail, ?_⟩
    rw [List.append_assoc, htail]
    exact List.map_append.symm
  · rintro ⟨front, tail, hwithin⟩
    rw [List.append_assoc] at hwithin
    obtain ⟨before, t, rfl, -, ht⟩ := List.map_eq_append_iff.1 hwithin.symm
    exact ⟨t, ⟨before, rfl⟩, matches_start.2 ⟨tail, ht.symm⟩⟩

/-! ## Patterns as they are read -/

theorem readable_cons (c : Char) (s : List Char) :
    readable (c :: s) = if c = '\x00' then [] else readChar c :: readable s := by
  rw [readable, List.takeWhile_cons]
  by_cases hnull : c = '\x00'
  · rw [if_pos hnull, hnull]
    rfl
  · rw [if_neg hnull, bne_iff_ne.2 hnull]
    rfl

theorem readable_append (hs : '\x00' ∉ s) : readable (s ++ t) = readable s ++ readable t := by
  induction s with
  | nil => rfl
  | cons c s ih =>
    rw [List.mem_cons, not_or] at hs
    obtain ⟨hc, hs⟩ := hs
    rw [List.cons_append, readable_cons, readable_cons, if_neg (Ne.symm hc), if_neg (Ne.symm hc), ih hs,
      List.cons_append]

/-- Nothing is read after a null character. -/
theorem readable_append_of_mem (hs : '\x00' ∈ s) : readable (s ++ t) = readable s := by
  induction s with
  | nil => cases hs
  | cons c s ih =>
    rw [List.cons_append, readable_cons, readable_cons]
    by_cases hc : c = '\x00'
    · rw [if_pos hc, if_pos hc]
    · rw [if_neg hc, if_neg hc, ih ((List.mem_cons.1 hs).resolve_left (Ne.symm hc))]

theorem isSign_readChar : IsSign (readChar c) ↔ IsSign c := by
  rw [readChar]
  split
  next hlast =>
    rw [Bool.or_eq_true, beq_iff_eq, beq_iff_eq] at hlast
    rcases hlast with rfl | rfl <;> decide
  next => exact Iff.rfl

theorem readChar_of_isSign (h : IsSign c) : readChar c = c := by
  rcases h with rfl | rfl | rfl <;> rfl

/-- Signs are marked before a text is read or after it, the pattern is the same. -/
theorem readable_escape (s : List Char) : readable (escape s) = escape (readable s) := by
  induction s with
  | nil => rfl
  | cons c s ih =>
    rw [escape_cons]
    by_cases hsign : IsSign c
    · have hnull : c ≠ '\x00' := by
        rintro rfl
        exact absurd hsign (by decide)
      rw [if_pos hsign, readable_cons, if_neg (by decide), readable_cons, if_neg hnull, readable_cons, if_neg hnull,
        escape_cons, if_pos (isSign_readChar.2 hsign), ih, readChar_of_isSign hsign]
      rfl
    · rw [if_neg hsign, readable_cons, readable_cons]
      by_cases hnull : c = '\x00'
      · rw [if_pos hnull, if_pos hnull]
        rfl
      · rw [if_neg hnull, if_neg hnull, escape_cons, if_neg (mt isSign_readChar.1 hsign), ih]

theorem null_mem_escape_iff : '\x00' ∈ escape s ↔ '\x00' ∈ s := by
  induction s with
  | nil => rfl
  | cons c s ih =>
    rw [escape_cons]
    split <;> simp [ih]

/-- A text as it is compared: as far as it is read, in lower case. -/
def folded (s : List Char) : List Char :=
  lowerPlain (readable s)

/-- The text begins with another one, as they are compared. A null character ends the pattern before its percent sign,
so that nothing may follow. -/
def StartsWith (s text : List Char) : Prop :=
  if '\x00' ∈ s then folded s = folded text else folded s <+: folded text

def EndsWith (s text : List Char) : Prop :=
  folded s <:+ folded text

/-- The text contains another one, as they are compared, at its end when the pattern ends with a null character. -/
def Contains (s text : List Char) : Prop :=
  if '\x00' ∈ s then folded s <:+ folded text else folded s <:+: folded text

instance (s text : List Char) : Decidable (StartsWith s text) :=
  inferInstanceAs (Decidable (if '\x00' ∈ s then folded s = folded text else folded s <+: folded text))

instance (s text : List Char) : Decidable (EndsWith s text) :=
  inferInstanceAs (Decidable (_ <:+ _))

instance (s text : List Char) : Decidable (Contains s text) :=
  inferInstanceAs (Decidable (if '\x00' ∈ s then folded s <:+ folded text else folded s <:+: folded text))

theorem accepts_startingWith : accepts (startingWith s) text = true ↔ StartsWith s text := by
  rw [accepts, startingWith, StartsWith]
  by_cases hnull : '\x00' ∈ s
  · rw [if_pos hnull, readable_append_of_mem (null_mem_escape_iff.2 hnull), readable_escape]
    exact matches_exactly
  · rw [if_neg hnull, readable_append (mt null_mem_escape_iff.1 hnull), readable_escape]
    exact matches_start

theorem accepts_endingWith : accepts (endingWith s) text = true ↔ EndsWith s text := by
  rw [accepts, endingWith, readable_cons, if_neg (by decide), readable_escape]
  exact matches_end

theorem accepts_containing : accepts (containing s) text = true ↔ Contains s text := by
  rw [accepts, containing, Contains, List.cons_append, readable_cons, if_neg (by decide)]
  by_cases hnull : '\x00' ∈ s
  · rw [if_pos hnull, readable_append_of_mem (null_mem_escape_iff.2 hnull), readable_escape]
    exact matches_end
  · rw [if_neg hnull, readable_append (mt null_mem_escape_iff.1 hnull), readable_escape]
    exact matches_within

/-! ## Texts among each other -/

theorem startsWith_self (s : List Char) : StartsWith s s := by
  rw [StartsWith]
  split
  · rfl
  · exact List.prefix_rfl

theorem endsWith_self (s : List Char) : EndsWith s s :=
  List.suffix_rfl

theorem StartsWith.contains (h : StartsWith s text) : Contains s text := by
  rw [StartsWith] at h
  rw [Contains]
  by_cases hnull : '\x00' ∈ s
  · rw [if_pos hnull] at h ⊢
    rw [h]
  · rw [if_neg hnull] at h ⊢
    exact h.isInfix

theorem EndsWith.contains (h : EndsWith s text) : Contains s text := by
  rw [Contains]
  split
  next => exact h
  next => exact h.isInfix

/-! ## Texts of plain characters -/

/-- The character is read as itself. -/
def IsPlain (c : Char) : Prop :=
  c ≠ '\x00' ∧ c ≠ '\ufffe' ∧ c ≠ '\uffff'

instance (c : Char) : Decidable (IsPlain c) :=
  inferInstanceAs (Decidable (_ ∧ _ ∧ _))

theorem isPlain_of_all (h : (s.all fun c => decide (IsPlain c)) = true) : ∀ c ∈ s, IsPlain c := fun c hc =>
  of_decide_eq_true (List.all_eq_true.1 h c hc)

theorem readable_of_plain (h : ∀ c ∈ s, IsPlain c) : readable s = s := by
  induction s with
  | nil => rfl
  | cons c s ih =>
    obtain ⟨hnull, hfffe, hffff⟩ := h c List.mem_cons_self
    have hc : readChar c = c := by
      rw [readChar, beq_eq_false_iff_ne.2 hfffe, beq_eq_false_iff_ne.2 hffff]
      rfl
    rw [readable_cons, if_neg hnull, hc, ih fun d hd => h d (List.mem_cons_of_mem c hd)]

/-- Texts of plain characters are compared as they are, in lower case: one begins with another, or ends with it or
contains it, when it does so letter by letter. -/
theorem of_plain (hs : ∀ c ∈ s, IsPlain c) (ht : ∀ c ∈ text, IsPlain c) :
    (StartsWith s text ↔ lowerPlain s <+: lowerPlain text) ∧ (EndsWith s text ↔ lowerPlain s <:+ lowerPlain text) ∧
      (Contains s text ↔ lowerPlain s <:+: lowerPlain text) := by
  have hnull : '\x00' ∉ s := fun hmem => (hs _ hmem).1 rfl
  have hfolded : folded s = lowerPlain s := by rw [folded, readable_of_plain hs]
  have hfolded' : folded text = lowerPlain text := by rw [folded, readable_of_plain ht]
  rw [StartsWith, EndsWith, Contains, if_neg hnull, if_neg hnull, hfolded, hfolded']
  exact ⟨Iff.rfl, Iff.rfl, Iff.rfl⟩

end Roster.Like
