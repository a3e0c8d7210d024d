import Roster.ListOrder
import Roster.Proofs.FilterGrammar
import Roster.Proofs.Outcome

/-!
How the order of lists is written.

An order is a text of parts between commas. A part is blank, or it names a column, and after a colon it may say in
which direction the column counts. Blanks may stand around every name, and a direction may be in small letters or
capitals. The reader finds the order that has been written, however it is spelled, and refuses a text only if all of
its parts are blank or one of them has a direction that does not exist.
-/

set_option autoImplicit false

namespace Roster

namespace Text

theorem splitAt_eq_splitOn (mark : Char) (s : List Char) : splitAt mark s = s.splitOn mark := by
  induction s with
  | nil => rw [splitAt, List.splitOn_nil]
  | cons c rest ih =>
    rw [splitAt, List.splitOn_cons_eq_if_modifyHead, ih]
    by_cases hc : c = mark
    · rw [if_pos hc, if_pos (beq_iff_eq.2 hc)]
    · rw [if_neg hc, if_neg (mt beq_iff_eq.1 hc)]
      cases hparts : rest.splitOn mark with
      | nil => exact absurd hparts (List.splitOn_ne_nil mark rest)
      | cons part parts => rfl

/-- The text has no characters but blanks, and maybe none at all. -/
def IsBlankText (s : List Char) : Prop :=
  ∀ c ∈ s, isBlank c = true

variable {s t gap gap' word : List Char} {mark : Char}

theorem isBlankText_nil : IsBlankText [] :=
  fun _ hc => absurd hc List.not_mem_nil

theorem IsBlankText.append (hs : IsBlankText s) (ht : IsBlankText t) : IsBlankText (s ++ t) :=
  fun c hc => (List.mem_append.1 hc).elim (hs c) (ht c)

theorem IsBlankText.not_mem (hs : IsBlankText s) (hmark : isBlank mark = false) : mark ∉ s := by
  intro hmem
  rw [hs mark hmem] at hmark
  cases hmark

theorem trim_eq_nil_iff : trim s = [] ↔ IsBlankText s := by
  rw [trim_eq_iff]
  constructor
  · rintro ⟨gap, gap', hgap, hgap', rfl, -⟩
    rw [List.append_nil]
    exact IsBlankText.append hgap hgap'
  · intro hs
    exact ⟨s, [], hs, isBlankText_nil, by rw [List.append_nil, List.append_nil], .inl rfl⟩

/-- Blanks around a text make no difference once it is trimmed. -/
theorem trim_append (hgap : IsBlankText gap) (hgap' : IsBlankText gap') (s : List Char) :
    trim (gap ++ s ++ gap') = trim s := by
  obtain ⟨before, after, hbefore, hafter, hs, hends⟩ := trim_eq_iff.1 (rfl : trim s = trim s)
  refine trim_eq_iff.2 ⟨gap ++ before, after ++ gap', IsBlankText.append hgap hbefore,
    IsBlankText.append hafter hgap', ?_, hends⟩
  conv_lhs => rw [hs]
  simp only [List.append_assoc]

theorem trim_of_ends (hhead : ∀ c ∈ s.head?, isBlank c = false) (hlast : ∀ c ∈ s.getLast?, isBlank c = false) :
    trim s = s := by
  refine trim_eq_iff.2 ⟨[], [], isBlankText_nil, isBlankText_nil, ?_, not_isBlank_ends_iff.1 ⟨hhead, hlast⟩⟩
  rw [List.append_nil, List.nil_append]

theorem toLower_of_isBlank {c : Char} (hc : isBlank c = true) : c.toLower = c := by
  refine dif_neg fun hcapital => ?_
  have hfrom : 65 ≤ c.toNat := hcapital.1
  have hto : c.toNat ≤ 90 := hcapital.2
  simp only [isBlank, inRanges, blankRanges, List.any_cons, List.any_nil, Bool.or_eq_true, Bool.and_eq_true,
    decide_eq_true_eq, Bool.or_false] at hc
  omega

/-- A text is what is left of it when it is trimmed, between blanks, and neither end of that is blank. -/
theorem exists_trim (s : List Char) : ∃ gap gap', IsBlankText gap ∧ IsBlankText gap' ∧ s = gap ++ trim s ++ gap' ∧
    (∀ c ∈ (trim s).head?, isBlank c = false) ∧ ∀ c ∈ (trim s).getLast?, isBlank c = false := by
  obtain ⟨gap, gap', hgap, hgap', hs, hends⟩ := trim_eq_iff.1 (rfl : trim s = trim s)
  exact ⟨gap, gap', hgap, hgap', hs, not_isBlank_ends_iff.2 hends⟩

theorem lower_eq_nil_iff : lower s = [] ↔ s = [] := by
  rw [lower_eq_iff fun _ hc => absurd hc List.not_mem_nil, lowerPlain, List.map_eq_nil_iff]

end Text

namespace ListOrder

open Text

variable {part column after direction : List Char} {parts : List (List Char)} {whole : String} {o : OrderBy}
  {order : List OrderBy}

/-! ## Parts -/

/-- The word for a direction. -/
def word (descending : Bool) : List Char :=
  if descending then ['d', 'e', 's', 'c'] else ['a', 's', 'c']

theorem lower_eq_word_iff (descending : Bool) {s : List Char} :
    lower s = word descending ↔ lowerPlain s = word descending := by
  have hall : ((word descending).all fun c => decide (IsOwnLetter c)) = true := by cases descending <;> decide
  exact lower_eq_iff fun c hc => of_decide_eq_true (List.all_eq_true.1 hall c hc)

/-- What may stand after a column to say its direction: nothing, or a colon and a word in any mixture of small letters
and capitals. The word may be left out, and a direction that is not given is ascending. -/
inductive Directs : List Char → Bool → Prop
  | absent : Directs [] false
  | omitted {gap : List Char} : IsBlankText gap → Directs (':' :: gap) false
  | named {gap token gap' : List Char} {descending : Bool} : IsBlankText gap → IsBlankText gap' →
      lowerPlain token = word descending → Directs (':' :: (gap ++ token ++ gap')) descending

/-- A part names a column by a text that has no blanks at its ends and no colon, and says its direction. The name may
be empty if the direction is there, as the part would be blank without both. -/
inductive Spells : List Char → OrderBy → Prop
  | intro {gap column gap' direction : List Char} {descending : Bool} : IsBlankText gap → IsBlankText gap' →
      ':' ∉ column → (∀ c ∈ column.head?, isBlank c = false) → (∀ c ∈ column.getLast?, isBlank c = false) →
      Directs direction descending → (column = [] → direction ≠ []) →
      Spells (gap ++ column ++ gap' ++ direction) ⟨String.ofList column, descending⟩

/-- The part has a direction that does not exist. It is known by its lower case. -/
def Misdirects (part direction : List Char) : Prop :=
  ∃ column after, ':' ∉ column ∧ part = column ++ ':' :: after ∧ direction = lower (trim after) ∧
    direction ≠ [] ∧ ∀ descending, direction ≠ word descending

private theorem bne_colon (hcolumn : ':' ∉ column) : ∀ c ∈ column, (c != ':') = true := by
  intro c hc
  rw [bne_iff_ne]
  rintro rfl
  exact hcolumn hc

theorem takeWhile_of_not_mem (hcolumn : ':' ∉ column) : column.takeWhile (· != ':') = column :=
  List.takeWhile_eq_self_iff.2 (bne_colon hcolumn)

theorem afterColon_of_not_mem (hcolumn : ':' ∉ column) : afterColon column = [] := by
  have hnone : column.dropWhile (· != ':') = [] :=
    List.dropWhile_eq_nil_iff.2 (bne_colon hcolumn)
  rw [afterColon, hnone, List.drop_nil]

theorem takeWhile_append_colon (hcolumn : ':' ∉ column) (after : List Char) :
    (column ++ ':' :: after).takeWhile (· != ':') = column := by
  rw [List.takeWhile_append_of_pos (bne_colon hcolumn)]
  exact List.append_nil column

theorem afterColon_append_colon (hcolumn : ':' ∉ column) (after : List Char) :
    afterColon (column ++ ':' :: after) = after := by
  rw [afterColon, List.dropWhile_append_of_pos (bne_colon hcolumn)]
  rfl

/-- A part either has no colon, or is divided by its first one. -/
theorem not_mem_or_exists_colon (part : List Char) :
    ':' ∉ part ∨ ∃ column after, ':' ∉ column ∧ part = column ++ ':' :: after := by
  by_cases hcolon : ':' ∈ part
  · obtain ⟨column, after, hpart, hcolumn⟩ := List.eq_append_cons_of_mem hcolon
    exact .inr ⟨column, after, hcolumn, hpart⟩
  · exact .inl hcolon

theorem parsePart_eq_ok_iff : parsePart whole part = .ok o ↔
    o.column = String.ofList (trim (part.takeWhile (· != ':'))) ∧
      (lower (trim (afterColon part)) = [] ∧ o.descending = false ∨
        lower (trim (afterColon part)) = word o.descending) := by
  obtain ⟨name, descending⟩ := o
  dsimp only [parsePart]
  generalize String.ofList (trim (part.takeWhile (· != ':'))) = column
  generalize lower (trim (afterColon part)) = direction
  split
  next => cases descending <;> simp [word, eq_comm (a := name)]
  next => cases descending <;> simp [word, eq_comm (a := name)]
  next => cases descending <;> simp [word, eq_comm (a := name)]
  next hempty hasc hdesc =>
    refine iff_of_false nofun ?_
    rintro ⟨-, ⟨hnil, -⟩ | hword⟩
    · exact hempty hnil
    · cases descending with
      | false => exact hasc hword
      | true => exact hdesc hword

theorem parsePart_eq_error_iff {e : ConfigurationError} : parsePart whole part = .error e ↔
    lower (trim (afterColon part)) ≠ [] ∧ (∀ descending, lower (trim (afterColon part)) ≠ word descending) ∧
      e = .direction (String.ofList (lower (trim (afterColon part)))) whole := by
  dsimp only [parsePart]
  generalize lower (trim (afterColon part)) = direction
  split
  next => simp
  next => simp [word]
  next => simp [word]
  next hempty hasc hdesc =>
    have hwords : ∀ descending, direction ≠ word descending
      | false => hasc
      | true => hdesc
    rw [Except.error.injEq, and_iff_right hempty, and_iff_right hwords, eq_comm]

private theorem not_isBlank_colon : isBlank ':' = false := by decide

/-- Trimming a part changes what stands before and after its colon by no more than blanks at the ends. -/
theorem trim_around_colon (part : List Char) :
    trim ((trim part).takeWhile (· != ':')) = trim (part.takeWhile (· != ':')) ∧
      trim (afterColon (trim part)) = trim (afterColon part) := by
  obtain ⟨gap, gap', hgap, hgap', hpart, -, -⟩ := exists_trim part
  have hleft := hgap.not_mem not_isBlank_colon
  have hright := hgap'.not_mem not_isBlank_colon
  rcases not_mem_or_exists_colon (trim part) with htrim | ⟨column, after, hcolumn, htrim⟩
  · have hnone : ':' ∉ part := by
      rw [hpart]
      simp [hleft, hright, htrim]
    rw [takeWhile_of_not_mem htrim, takeWhile_of_not_mem hnone, afterColon_of_not_mem htrim,
      afterColon_of_not_mem hnone]
    refine ⟨?_, rfl⟩
    conv_rhs => rw [hpart]
    rw [trim_append hgap hgap']
  · have hbefore : ':' ∉ gap ++ column := by simp [hleft, hcolumn]
    have hdivided : part = (gap ++ column) ++ ':' :: (after ++ gap') := by
      rw [hpart, htrim]
      simp only [List.append_assoc, List.cons_append]
    rw [htrim, hdivided, takeWhile_append_colon hcolumn, takeWhile_append_colon hbefore,
      afterColon_append_colon hcolumn, afterColon_append_colon hbefore]
    have hcolumn := trim_append hgap isBlankText_nil column
    have hafter := trim_append isBlankText_nil hgap' after
    rw [List.append_nil] at hcolumn
    exact ⟨hcolumn.symm, hafter.symm⟩

theorem parsePart_trim (whole : String) (part : List Char) : parsePart whole (trim part) = parsePart whole part := by
  obtain ⟨hbefore, hafter⟩ := trim_around_colon part
  rw [parsePart, parsePart, hbefore, hafter]

/-! ## Spellings -/

theorem toLower_mem_word {token : List Char} {descending : Bool} (htoken : lowerPlain token = word descending)
    {c : Char} (hc : c ∈ token) : c.toLower ∈ word descending := by
  rw [← htoken]
  exact List.mem_map_of_mem hc

theorem not_isBlank_of_mem {token : List Char} {descending : Bool} (htoken : lowerPlain token = word descending)
    {c : Char} (hc : c ∈ token) : isBlank c = false := by
  have hall : ((word descending).all fun x => !isBlank x) = true := by cases descending <;> decide
  have hlower : isBlank c.toLower = false := by simpa using List.all_eq_true.1 hall _ (toLower_mem_word htoken hc)
  cases hblank : isBlank c with
  | false => rfl
  | true =>
    rw [toLower_of_isBlank hblank, hblank] at hlower
    cases hlower

/-- What stands after a column is read as the direction that it says. -/
theorem Directs.cases_colon {descending : Bool} (h : Directs direction descending) :
    direction = [] ∧ descending = false ∨ ∃ after, direction = ':' :: after ∧
      (lower (trim after) = [] ∧ descending = false ∨ lower (trim after) = word descending) := by
  cases h with
  | absent => exact .inl ⟨rfl, rfl⟩
  | @omitted gap hgap => exact .inr ⟨gap, rfl, .inl ⟨lower_eq_nil_iff.2 (trim_eq_nil_iff.2 hgap), rfl⟩⟩
  | @named gap token gap' _ hgap hgap' htoken =>
    have hends : trim token = token := by
      refine trim_of_ends (fun c hc => ?_) fun c hc => ?_
      · exact not_isBlank_of_mem htoken (List.mem_of_head? hc)
      · exact not_isBlank_of_mem htoken (List.mem_of_getLast? hc)
    refine .inr ⟨gap ++ token ++ gap', rfl, .inr ?_⟩
    rw [trim_append hgap hgap', hends, lower_eq_word_iff]
    exact htoken

/-- A text after a colon says a direction if it is read as one. -/
theorem directs_of_lower {descending : Bool}
    (h : lower (trim after) = [] ∧ descending = false ∨ lower (trim after) = word descending) :
    Directs (':' :: after) descending := by
  obtain ⟨gap, gap', hgap, hgap', hafter, -, -⟩ := exists_trim after
  rcases h with ⟨hnil, rfl⟩ | hword
  · exact .omitted (trim_eq_nil_iff.1 (lower_eq_nil_iff.1 hnil))
  · rw [hafter]
    exact .named hgap hgap' ((lower_eq_word_iff descending).1 hword)

/-- A text without a colon spells, before any direction, the column that is left of it when it is trimmed. -/
theorem spells_trim {before : List Char} {descending : Bool} (hcolon : ':' ∉ before)
    (hdirection : Directs direction descending) (hpresent : trim before = [] → direction ≠ []) :
    Spells (before ++ direction) ⟨String.ofList (trim before), descending⟩ := by
  obtain ⟨gap, gap', hgap, hgap', hbefore, hhead, hlast⟩ := exists_trim before
  have hname : ':' ∉ trim before := by
    intro hmem
    rw [hbefore] at hcolon
    simp [hmem] at hcolon
  have hspells := Spells.intro hgap hgap' hname hhead hlast hdirection hpresent
  rwa [← hbefore] at hspells

/-- The parts that are read are those that are spelled as the grammar says. -/
theorem spells_iff (whole : String) : Spells part o ↔ ¬IsBlankText part ∧ parsePart whole part = .ok o := by
  rw [parsePart_eq_ok_iff]
  constructor
  · rintro ⟨hgap, hgap', hcolon, hhead, hlast, hdirection, hpresent⟩
    rename_i gap column gap' direction descending
    have hleft := hgap.not_mem not_isBlank_colon
    have hright := hgap'.not_mem not_isBlank_colon
    have hname : ':' ∉ gap ++ column ++ gap' := by simp [hleft, hright, hcolon]
    have htrim : trim (gap ++ column ++ gap') = column := by
      rw [trim_append hgap hgap', trim_of_ends hhead hlast]
    rcases hdirection.cases_colon with ⟨rfl, rfl⟩ | ⟨after, rfl, hafter⟩
    · rw [List.append_nil, takeWhile_of_not_mem hname, afterColon_of_not_mem hname, htrim]
      refine ⟨fun hblank => hpresent ?_ rfl, rfl, .inl ⟨rfl, rfl⟩⟩
      rw [← htrim, trim_eq_nil_iff]
      exact hblank
    · rw [takeWhile_append_colon hname, afterColon_append_colon hname, htrim]
      refine ⟨fun hblank => ?_, rfl, hafter⟩
      exact hblank.not_mem not_isBlank_colon (List.mem_append_right _ List.mem_cons_self)
  · rintro ⟨hblank, hcolumn, hdirection⟩
    obtain ⟨name, descending⟩ := o
    dsimp only at hcolumn hdirection
    subst hcolumn
    rcases not_mem_or_exists_colon part with hcolon | ⟨before, after, hcolon, hpart⟩
    · rw [afterColon_of_not_mem hcolon] at hdirection
      rw [takeWhile_of_not_mem hcolon]
      have hascending : descending = false := by
        rcases hdirection with ⟨-, hascending⟩ | hword
        · exact hascending
        · cases descending <;> cases hword
      rw [hascending]
      have hspells := spells_trim hcolon .absent fun hnil => absurd (trim_eq_nil_iff.1 hnil) hblank
      rwa [List.append_nil] at hspells
    · rw [hpart, afterColon_append_colon hcolon] at hdirection
      rw [hpart, takeWhile_append_colon hcolon]
      exact spells_trim hcolon (directs_of_lower hdirection) fun _ => List.cons_ne_nil _ _

theorem misdirects_iff (whole : String) {e : ConfigurationError} : parsePart whole part = .error e ↔
    ∃ direction, Misdirects part direction ∧ e = .direction (String.ofList direction) whole := by
  rw [parsePart_eq_error_iff]
  constructor
  · rintro ⟨hnil, hwords, he⟩
    rcases not_mem_or_exists_colon part with hcolon | ⟨column, after, hcolon, hpart⟩
    · rw [afterColon_of_not_mem hcolon] at hnil
      exact absurd rfl hnil
    · rw [hpart, afterColon_append_colon hcolon] at hnil hwords he
      exact ⟨_, ⟨column, after, hcolon, hpart, rfl, hnil, hwords⟩, he⟩
  · rintro ⟨direction, ⟨column, after, hcolon, rfl, rfl, hnil, hwords⟩, he⟩
    rw [afterColon_append_colon hcolon]
    exact ⟨hnil, hwords, he⟩

theorem Misdirects.not_isBlankText (h : Misdirects part direction) : ¬IsBlankText part := by
  obtain ⟨column, after, -, rfl, -⟩ := h
  exact fun hblank => hblank.not_mem not_isBlank_colon (List.mem_append_right _ List.mem_cons_self)

/-! ## Orders -/

/-- The parts spell the columns of an order one after the other, with blank parts anywhere between them. -/
inductive Lists : List (List Char) → List OrderBy → Prop
  | nil : Lists [] []
  | blank {part : List Char} {parts : List (List Char)} {order : List OrderBy} : IsBlankText part → Lists parts order →
      Lists (part :: parts) order
  | names {part : List Char} {parts : List (List Char)} {o : OrderBy} {order : List OrderBy} : Spells part o →
      Lists parts order → Lists (part :: parts) (o :: order)

theorem lists_nil_iff : Lists parts [] ↔ ∀ part ∈ parts, IsBlankText part := by
  induction parts with
  | nil => exact iff_of_true .nil fun _ h => absurd h List.not_mem_nil
  | cons part rest ih =>
    rw [List.forall_mem_cons, ← ih]
    constructor
    · rintro (_ | ⟨hblank, hrest⟩)
      exact ⟨hblank, hrest⟩
    · rintro ⟨hblank, hrest⟩
      exact .blank hblank hrest

/-- The columns that parts name, or the first mistake in a part. -/
def readParts (whole : String) (parts : List (List Char)) : Except ConfigurationError (List OrderBy) :=
  ((parts.map trim).filter fun part => !part.isEmpty).mapM (parsePart whole)

theorem readParts_cons_of_blank (hblank : IsBlankText part) (whole : String) (parts : List (List Char)) :
    readParts whole (part :: parts) = readParts whole parts := by
  rw [readParts, List.map_cons, trim_eq_nil_iff.2 hblank]
  rfl

theorem readParts_cons_of_not_blank (hblank : ¬IsBlankText part) (whole : String) (parts : List (List Char)) :
    readParts whole (part :: parts) = do
      let o ← parsePart whole part
      let order ← readParts whole parts
      return o :: order := by
  have hkeep : (!(trim part).isEmpty) = true := by
    rw [Bool.not_eq_true', List.isEmpty_eq_false_iff]
    exact mt trim_eq_nil_iff.1 hblank
  rw [readParts, List.map_cons, List.filter_cons, hkeep, if_pos rfl, List.mapM_cons, parsePart_trim]
  rfl

theorem readParts_eq_ok_iff (whole : String) : readParts whole parts = .ok order ↔ Lists parts order := by
  induction parts generalizing order with
  | nil =>
    constructor
    · intro h
      cases h
      exact .nil
    · rintro ⟨⟩
      rfl
  | cons part rest ih =>
    by_cases hblank : IsBlankText part
    · rw [readParts_cons_of_blank hblank, ih]
      constructor
      · exact .blank hblank
      · rintro (_ | ⟨-, hrest⟩ | ⟨hpart, -⟩)
        · exact hrest
        · exact absurd hblank ((spells_iff whole).1 hpart).1
    · rw [readParts_cons_of_not_blank hblank]
      constructor
      · intro h
        obtain ⟨o, ho, h⟩ := bind_eq_ok.1 h
        obtain ⟨order, horder, h⟩ := bind_eq_ok.1 h
        cases h
        exact .names ((spells_iff whole).2 ⟨hblank, ho⟩) (ih.1 horder)
      · rintro (_ | ⟨hblank', -⟩ | ⟨hpart, hrest⟩)
        · exact absurd hblank' hblank
        · rw [((spells_iff whole).1 hpart).2, ok_bind, ih.2 hrest]
          rfl

/-- Of the parts with directions that do not exist, the first has this one. -/
inductive FirstMisdirects : List (List Char) → List Char → Prop
  | here {part direction : List Char} {parts : List (List Char)} : Misdirects part direction →
      FirstMisdirects (part :: parts) direction
  | later {part direction : List Char} {parts : List (List Char)} : (∀ other, ¬Misdirects part other) →
      FirstMisdirects parts direction → FirstMisdirects (part :: parts) direction

theorem exists_firstMisdirects_iff :
    (∃ direction, FirstMisdirects parts direction) ↔ ∃ part ∈ parts, ∃ direction, Misdirects part direction := by
  constructor
  · rintro ⟨direction, h⟩
    induction h with
    | here hpart => exact ⟨_, List.mem_cons_self, _, hpart⟩
    | later _ _ ih =>
      obtain ⟨part, hmem, hpart⟩ := ih
      exact ⟨part, List.mem_cons_of_mem _ hmem, hpart⟩
  · rintro ⟨part, hmem, direction, hpart⟩
    induction parts with
    | nil => cases hmem
    | cons first rest ih =>
      by_cases hfirst : ∃ other, Misdirects first other
      · obtain ⟨other, hother⟩ := hfirst
        exact ⟨other, .here hother⟩
      · rcases List.mem_cons.1 hmem with rfl | hmem
        · exact absurd ⟨direction, hpart⟩ hfirst
        · obtain ⟨other, hother⟩ := ih hmem
          exact ⟨other, .later (not_exists.1 hfirst) hother⟩

theorem readParts_eq_error_iff (whole : String) {e : ConfigurationError} : readParts whole parts = .error e ↔
    ∃ direction, FirstMisdirects parts direction ∧ e = .direction (String.ofList direction) whole := by
  induction parts with
  | nil => exact iff_of_false nofun nofun
  | cons part rest ih =>
    have hlater (hpart : ∀ other, ¬Misdirects part other) :
        (∃ direction, FirstMisdirects (part :: rest) direction ∧ e = .direction (String.ofList direction) whole) ↔
          readParts whole rest = .error e := by
      rw [ih]
      refine exists_congr fun direction => and_congr_left fun _ => ?_
      exact ⟨fun h => by cases h with
        | here hmistake => exact absurd hmistake (hpart direction)
        | later _ hrest => exact hrest, .later hpart⟩
    by_cases hblank : IsBlankText part
    · rw [readParts_cons_of_blank hblank, hlater fun _ hmistake => hmistake.not_isBlankText hblank]
    · rw [readParts_cons_of_not_blank hblank]
      cases hread : parsePart whole part with
      | ok o =>
        have hright (other : List Char) (hmistake : Misdirects part other) : False := by
          rw [(misdirects_iff whole).2 ⟨other, hmistake, rfl⟩] at hread
          cases hread
        rw [hlater hright, ok_bind]
        cases readParts whole rest with
        | ok order => exact iff_of_false nofun nofun
        | error e' => rfl
      | error e' =>
        have hmistakes : e' = e ↔ parsePart whole part = .error e := by rw [hread, Except.error.injEq]
        change Except.error e' = Except.error e ↔ _
        rw [Except.error.injEq, hmistakes, misdirects_iff]
        refine exists_congr fun direction => and_congr_left fun he => ⟨.here, ?_⟩
        rintro (hmistake | ⟨hright, -⟩)
        · exact hmistake
        · obtain ⟨other, hother, -⟩ := (misdirects_iff whole).1 hread
          exact absurd hother (hright other)

/-- What a text says as an order depends on the parts between its commas. -/
theorem parse_eq (text : String) : parse text =
    readParts text (text.toList.splitOn ',') >>= fun order =>
      if order.isEmpty then .error .noOrder else .ok order := by
  rw [parse, splitAt_eq_splitOn]
  rfl

theorem parse_eq_ok_iff {text : String} :
    parse text = .ok order ↔ order ≠ [] ∧ Lists (text.toList.splitOn ',') order := by
  rw [parse_eq, bind_eq_ok]
  constructor
  · rintro ⟨order', hread, h⟩
    split at h
    · cases h
    next hne =>
      cases h
      exact ⟨fun hnil => hne (List.isEmpty_iff.2 hnil), (readParts_eq_ok_iff text).1 hread⟩
  · rintro ⟨hne, horder⟩
    exact ⟨order, (readParts_eq_ok_iff text).2 horder, if_neg (mt List.isEmpty_iff.1 hne)⟩

/-- A text is refused because none of its parts names a column, or because of the first part with a direction that does
not exist. -/
theorem parse_eq_error_iff {text : String} {e : ConfigurationError} : parse text = .error e ↔
    e = .noOrder ∧ (∀ part ∈ text.toList.splitOn ',', IsBlankText part) ∨
      ∃ direction, FirstMisdirects (text.toList.splitOn ',') direction ∧
        e = .direction (String.ofList direction) text := by
  rw [parse_eq, ← readParts_eq_error_iff, ← lists_nil_iff, ← readParts_eq_ok_iff text]
  cases readParts text (text.toList.splitOn ',') with
  | error e' => simp [bind, Except.bind]
  | ok order =>
    cases order with
    | nil => simp [bind, Except.bind, eq_comm]
    | cons o order => simp [bind, Except.bind]

/-! ## Written orders -/

/-- A column is named by a text that is not empty, has no comma and no colon, and no blanks at its ends. -/
structure IsName (column : List Char) : Prop where
  ne_nil : column ≠ []
  comma : ',' ∉ column
  colon : ':' ∉ column
  head : ∀ c ∈ column.head?, isBlank c = false
  last : ∀ c ∈ column.getLast?, isBlank c = false

theorem Directs.comma_not_mem {descending : Bool} (h : Directs direction descending) : ',' ∉ direction := by
  have hcomma : isBlank ',' = false := by decide
  cases h with
  | absent => exact List.not_mem_nil
  | omitted hgap =>
    rw [List.mem_cons, not_or]
    exact ⟨by decide, hgap.not_mem hcomma⟩
  | named hgap hgap' htoken =>
    have hletters : Char.toLower ',' ∉ word descending := by cases descending <;> decide
    simp only [List.mem_cons, List.mem_append, not_or]
    exact ⟨by decide, ⟨hgap.not_mem hcomma, fun hmem => hletters (toLower_mem_word htoken hmem)⟩, hgap'.not_mem hcomma⟩

theorem Spells.comma_not_mem (h : Spells part o) (hname : ',' ∉ o.column.toList) : ',' ∉ part := by
  have hcomma : isBlank ',' = false := by decide
  obtain ⟨hgap, hgap', -, -, -, hdirection, -⟩ := h
  rw [String.toList_ofList] at hname
  simp only [List.mem_append, not_or]
  exact ⟨⟨⟨hgap.not_mem hcomma, hname⟩, hgap'.not_mem hcomma⟩, hdirection.comma_not_mem⟩

theorem Lists.comma_not_mem (h : Lists parts order) (hnames : ∀ o ∈ order, ',' ∉ o.column.toList) :
    ∀ part ∈ parts, ',' ∉ part := by
  have hcomma : isBlank ',' = false := by decide
  induction h with
  | nil => exact fun _ hpart => absurd hpart List.not_mem_nil
  | blank hblank _ ih => exact List.forall_mem_cons.2 ⟨hblank.not_mem hcomma, ih hnames⟩
  | names hpart _ ih =>
    rw [List.forall_mem_cons] at hnames
    exact List.forall_mem_cons.2 ⟨hpart.comma_not_mem hnames.1, ih hnames.2⟩

/-- The plainest way to spell a column with its direction. -/
def written (o : OrderBy) : List Char :=
  o.column.toList ++ ':' :: word o.descending

theorem spells_written (hname : IsName o.column.toList) : Spells (written o) o := by
  have hword : lowerPlain (word o.descending) = word o.descending := by cases o.descending <;> decide
  have hdirects : Directs (':' :: ([] ++ word o.descending ++ [])) o.descending :=
    .named isBlankText_nil isBlankText_nil hword
  have hspells := Spells.intro isBlankText_nil isBlankText_nil hname.colon hname.head hname.last hdirects
    fun hnil => absurd hnil hname.ne_nil
  simpa [written] using hspells

theorem lists_written (hnames : ∀ o ∈ order, IsName o.column.toList) : Lists (order.map written) order := by
  induction order with
  | nil => exact .nil
  | cons o rest ih =>
    rw [List.forall_mem_cons] at hnames
    exact .names (spells_written hnames.1) (ih hnames.2)

/-- Parts that spell an order are read as it when commas stand between them. -/
theorem parse_intercalate (hne : order ≠ []) (hparts : Lists parts order)
    (hnames : ∀ o ∈ order, ',' ∉ o.column.toList) : parse (String.ofList ([','].intercalate parts)) = .ok order := by
  have hsome : parts ≠ [] := by
    rintro rfl
    cases hparts
    exact hne rfl
  rw [parse_eq_ok_iff, String.toList_ofList, List.splitOn_intercalate ',' (hparts.comma_not_mem hnames) hsome]
  exact ⟨hne, hparts⟩

/-- An order can be written, and it is read from every text in which it is written, however the parts between the commas
spell it. A text is read only as what its parts spell. It is refused just if all its parts are blank or a part that is
not blank has, after its first colon, a direction that does not exist. -/
theorem reads_what_is_written :
    (∀ order : List OrderBy, order ≠ [] → (∀ o ∈ order, IsName o.column.toList) →
      Lists (order.map written) order ∧
        ∀ parts, Lists parts order → parse (String.ofList ([','].intercalate parts)) = .ok order) ∧
      (∀ text order, parse text = .ok order ↔ order ≠ [] ∧ Lists (text.toList.splitOn ',') order) ∧
      ∀ text, (∃ e, parse text = .error e) ↔ (∀ part ∈ text.toList.splitOn ',', IsBlankText part) ∨
        ∃ part ∈ text.toList.splitOn ',', ¬IsBlankText part ∧ ∃ direction, Misdirects part direction := by
  refine ⟨fun order hne hnames => ⟨lists_written hnames, fun parts hparts => ?_⟩, fun text order => parse_eq_ok_iff,
    fun text => ⟨?_, ?_⟩⟩
  · exact parse_intercalate hne hparts fun o ho => (hnames o ho).comma
  · rintro ⟨e, he⟩
    rcases parse_eq_error_iff.1 he with ⟨-, hblank⟩ | ⟨direction, hfirst, -⟩
    · exact .inl hblank
    · obtain ⟨part, hmem, other, hpart⟩ := exists_firstMisdirects_iff.1 ⟨direction, hfirst⟩
      exact .inr ⟨part, hmem, hpart.not_isBlankText, other, hpart⟩
  · rintro (hblank | ⟨part, hmem, -, direction, hpart⟩)
    · exact ⟨_, parse_eq_error_iff.2 (.inl ⟨rfl, hblank⟩)⟩
    · obtain ⟨other, hfirst⟩ := exists_firstMisdirects_iff.2 ⟨part, hmem, direction, hpart⟩
      exact ⟨_, parse_eq_error_iff.2 (.inr ⟨other, hfirst, rfl⟩)⟩

private def newestFirst : List OrderBy := [⟨"created_at", true⟩, ⟨"id", false⟩]

/-- Blanks, capitals and a part with nothing in it. -/
private def spelled : List (List Char) := [" created_at\t: DeSC".toList, "  ".toList, "id\n".toList]

theorem reads_what_is_written_spelled :
    newestFirst ≠ [] ∧ (∀ o ∈ newestFirst, IsName o.column.toList) ∧ Lists spelled newestFirst ∧
      parse (String.ofList ([','].intercalate spelled)) = .ok newestFirst := by
  have hnames : ∀ o ∈ newestFirst, IsName o.column.toList := by
    intro o ho
    rcases List.mem_cons.1 ho with rfl | ho
    · exact ⟨by decide, by decide, by decide, by rintro c ⟨⟩; rfl, by rintro c ⟨⟩; rfl⟩
    · rw [List.mem_singleton.1 ho]
      exact ⟨by decide, by decide, by decide, by rintro c ⟨⟩; rfl, by rintro c ⟨⟩; rfl⟩
  have hspelled : Lists spelled newestFirst := by
    rw [← readParts_eq_ok_iff ""]
    decide +kernel
  have hne : newestFirst ≠ [] := List.cons_ne_nil _ _
  exact ⟨hne, hnames, hspelled, (reads_what_is_written.1 newestFirst hne hnames).2 spelled hspelled⟩

end ListOrder

end Roster
