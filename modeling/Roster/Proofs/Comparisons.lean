import Mathlib.Data.Set.Basic
import Roster.Proofs.Pages
import Roster.Proofs.Patterns

/-!
Filters by comparison.

A filter compares a column with a literal. The rows that it finds by the six comparisons of order are put together from
three sets that do not meet: the rows below the literal, those equal to it, and those above it. The three comparisons of
texts find the rows whose text begins with the literal, ends with it or contains it, as far as the store reads texts in
patterns. A pattern of more than fifty thousand octets is not tried on any row.
-/

set_option autoImplicit false

namespace Roster

open Number (integerText fitsInt64)
open Roster.Filter (Operator)

variable {k : Kind}

/-! ## What a column is compared with -/

/-- A literal is compared with the cells of a column as a cell, and in patterns as a text. -/
inductive Column.Takes (c : Column k) (literal : String) : Cell → String → Prop
  | text : c.type = .text → c.Takes literal (.text literal) literal
  | integer {n : Int} : c.type = .integer → coerce .integer (.str literal) = some (.int n) → fitsInt64 n = true →
      c.Takes literal (.integer n) (integerText n)

variable {c : Column k} {literal : String} {other : Cell} {text : String}

/-- A literal that can be brought to the type of a column of texts or integers is compared with it. -/
theorem Column.exists_takes {value : Json} (htype : c.type = .text ∨ c.type = .integer)
    (hvalue : coerce c.type (.str literal) = some value) (hfits : ∀ n, value = .int n → fitsInt64 n = true) :
    ∃ other text, c.Takes literal other text := by
  rcases htype with htype | htype
  · exact ⟨_, _, .text htype⟩
  · rw [htype] at hvalue
    obtain ⟨n, -, rfl⟩ := Option.map_eq_some_iff.1 hvalue
    exact ⟨_, _, .integer htype hvalue (hfits n rfl)⟩

theorem Column.Takes.isOf (h : c.Takes literal other text) : other.IsOf c.type := by
  cases h with
  | text htype =>
    rw [htype]
    exact .text literal
  | @integer n htype _ _ =>
    rw [htype]
    exact .integer n

theorem Column.Takes.ne_null (h : c.Takes literal other text) : other ≠ .null := by
  cases h <;> exact Cell.noConfusion

/-- In patterns a literal stands for the text of its cell. -/
theorem Column.Takes.asText (h : c.Takes literal other text) : other.asText = some text := by
  cases h <;> rfl

/-- What a filter asks of the cell of a row. -/
def Cell.satisfies (o : Operator) (other : Cell) (text : String) (cell : Cell) : Bool :=
  match Store.pattern? o text.toList with
  | some pattern => Store.resembles cell pattern
  | none => Store.compares cell other (Store.accepted o)

namespace Store

theorem predicate_of_takes (h : c.Takes literal other text) (o : Operator) :
    predicate k ⟨c.name, o, literal⟩ = .ok fun r => Cell.satisfies o other text (r.get c) := by
  have hcolumn : column k c.name = .ok c := column_eq_ok.2 rfl
  rw [predicate, hcolumn, ok_bind]
  cases h with
  | text htype =>
    have hcoerce : coerce c.type (.str literal) = some (.str literal) := by rw [htype]; rfl
    have htext : (Json.str literal).text = literal := rfl
    rw [hcoerce]
    dsimp only
    rw [test, htext, htype]
    unfold Cell.satisfies
    cases pattern? o literal.toList <;> rfl
  | @integer n htype hcoerce hfits =>
    have htext : (Json.int n).text = integerText n := rfl
    rw [htype, hcoerce]
    dsimp only
    rw [test, htext]
    unfold Cell.satisfies
    cases pattern? o (integerText n).toList with
    | some pattern => rfl
    | none =>
      have hoperand : operand .integer (.int n) = .ok (.integer n) := by rw [operand, if_pos hfits]
      dsimp only
      rw [hoperand]
      rfl

theorem isTooLong_of_takes (h : c.Takes literal other text) (o : Operator) :
    isTooLong k ⟨c.name, o, literal⟩ = (pattern? o text.toList).any Like.isTooLong := by
  rw [isTooLong, Column.ofName?_name, Option.bind_some]
  cases h with
  | text htype =>
    rw [htype]
    rfl
  | integer htype hcoerce _ =>
    rw [htype, hcoerce]
    rfl

end Store

/-! ## Patterns that are short enough -/

theorem Like.length_escape_le (s : List Char) : (Like.escape s).length ≤ 2 * s.length := by
  induction s with
  | nil => simp [Like.escape]
  | cons c s ih =>
    rw [Like.escape_cons]
    split
    all_goals
      simp only [List.length_cons]
      omega

theorem utf8ByteSize_ofList_le (s : List Char) : (String.ofList s).utf8ByteSize ≤ 4 * s.length := by
  induction s with
  | nil => simp
  | cons c s ih =>
    have hc := c.utf8Size_le_four
    rw [utf8ByteSize_ofList_cons, List.length_cons]
    omega

/-- An integer of 64 bits has nineteen digits at most. -/
theorem length_integerText {n : Int} (h : fitsInt64 n = true) : (integerText n).toList.length ≤ 20 := by
  rw [fitsInt64, Bool.and_eq_true, decide_eq_true_iff, decide_eq_true_iff, Number.minInt64, Number.maxInt64] at h
  obtain ⟨hmin, hmax⟩ := h
  cases n with
  | ofNat n =>
    rw [integerText, String.toList_ofList]
    have hbound : n < 10 ^ 20 := by
      rw [Int.ofNat_eq_natCast] at hmax
      omega
    exact (Nat.length_toDigits_le_iff (by decide) (by decide)).2 hbound
  | negSucc n =>
    rw [integerText, String.toList_ofList, List.length_cons]
    have hbound : n + 1 < 10 ^ 19 := by omega
    have hlength := (Nat.length_toDigits_le_iff (b := 10) (k := 19) (by decide) (by decide)).2 hbound
    omega

/-- The pattern of an integer is never too long. -/
theorem isTooLong_integerText {n : Int} (h : fitsInt64 n = true) (o : Operator) :
    (Store.pattern? o (integerText n).toList).any Like.isTooLong = false := by
  have hlength := length_integerText h
  have hescape := Like.length_escape_le (integerText n).toList
  have hshort : ∀ pattern : List Char, pattern.length ≤ 2 * 20 + 2 → Like.isTooLong pattern = false := by
    intro pattern hpattern
    have hsize := utf8ByteSize_ofList_le pattern
    rw [Like.isTooLong, decide_eq_false_iff_not, Like.maxOctets]
    omega
  cases o
  case co =>
    apply hshort
    simp only [Like.containing, List.cons_append, List.length_cons, List.length_append, List.length_nil]
    omega
  case sw =>
    apply hshort
    simp only [Like.startingWith, List.length_append, List.length_cons, List.length_nil]
    omega
  case ew =>
    apply hshort
    simp only [Like.endingWith, List.length_cons]
    omega
  all_goals rfl

/-! ## The rows that are found -/

namespace Store

/-- The store carries out a comparison: it has no pattern to try, or one that is short enough, or no row to try it
on. -/
def Tries (s : Store) (owner : Company) (c : Column k) (literal : String) (o : Operator) : Prop :=
  c.type = .text → (pattern? o literal.toList).all (!Like.isTooLong ·) = true ∨ s.owned k owner = []

/-- The rows of a company that a filter finds, all of them. -/
def matching (s : Store) (owner : Company) (order : List OrderBy) (c : Column k) (literal : String) (o : Operator) :
    Set (Row k) :=
  {r | ∃ page, s.query k owner (some ⟨c.name, o, literal⟩) order 0 none = .ok page ∧ r ∈ page.items}

/-- One statement sorts by an order: its columns exist, and there are not too many criteria. -/
structure IsSortable (k : Kind) (order : List OrderBy) : Prop where
  known : ∀ o ∈ order, (Column.ofName? k o.column).isSome = true
  short : criteria order ≤ maxCriteria

theorem isSortable_nil : IsSortable k [] :=
  ⟨fun _ ho => absurd ho List.not_mem_nil, by decide⟩

variable {s : Store} {owner : Company} {order : List OrderBy}

theorem tries_iff (h : c.Takes literal other text) (o : Operator) :
    s.Tries owner c literal o ↔ isTooLong k ⟨c.name, o, literal⟩ = false ∨ s.owned k owner = [] := by
  rw [isTooLong_of_takes h, Tries]
  cases h with
  | text htype =>
    rw [forall_prop_of_true htype]
    cases pattern? o literal.toList <;> simp
  | integer htype _ hfits =>
    rw [isTooLong_integerText hfits]
    simp [htype]

/-- A comparison that the store carries out finds the rows whose cells satisfy it. -/
theorem exists_query (h : c.Takes literal other text) {o : Operator} (htried : s.Tries owner c literal o)
    (horder : IsSortable k order) :
    ∃ page, s.query k owner (some ⟨c.name, o, literal⟩) order 0 none = .ok page ∧
      ∀ r, r ∈ page.items ↔ r ∈ s.owned k owner ∧ Cell.satisfies o other text (r.get c) = true := by
  obtain ⟨keys, hkeys⟩ := exists_orderKeys horder.known
  have hlong : (isTooLong k ⟨c.name, o, literal⟩ && !(s.owned k owner).isEmpty) = false := by
    rcases (tries_iff h o).1 htried with hshort | hempty
    · rw [hshort, Bool.false_and]
    · rw [hempty]
      exact Bool.and_false _
  obtain ⟨found, hfound⟩ : ∃ found, found = (s.owned k owner).filter fun r => Cell.satisfies o other text (r.get c) :=
    ⟨_, rfl⟩
  have hselected : s.selected k owner (some ⟨c.name, o, literal⟩) = .ok found := by
    rw [selected, predicate_of_takes h, ok_bind]
    dsimp only
    rw [hlong, hfound]
    rfl
  refine ⟨⟨sortRows (keys ++ [(.id, false)]) found, found.length⟩, ?_, fun r => ?_⟩
  · rw [query_eq, hselected, sortKeys_eq hkeys]
    dsimp only [Except.bind]
    rw [if_neg (Nat.not_lt.2 horder.short)]
    rfl
  · have hperm : (sortRows (keys ++ [(.id, false)]) found).Perm found := List.mergeSort_perm found _
    rw [hperm.mem_iff, hfound, List.mem_filter]

/-- A comparison that the store does not carry out ends with its mistake. -/
theorem query_of_not_tries (h : c.Takes literal other text) {o : Operator} (htried : ¬s.Tries owner c literal o) :
    s.query k owner (some ⟨c.name, o, literal⟩) order 0 none = .error (.fault .store) := by
  rw [tries_iff h, not_or, Bool.not_eq_false] at htried
  obtain ⟨hlong, howned⟩ := htried
  have hfails : (isTooLong k ⟨c.name, o, literal⟩ && !(s.owned k owner).isEmpty) = true := by
    rw [hlong, Bool.true_and, Bool.not_eq_true', List.isEmpty_eq_false_iff]
    exact howned
  rw [query_eq, selected, predicate_of_takes h, ok_bind]
  dsimp only
  rw [hfails]
  rfl

/-- No query gives a page in an order with more criteria than one statement sorts by. -/
theorem query_ne_ok_of_maxCriteria_lt (hmany : maxCriteria < criteria order) {filter : Option Filter.Expression}
    {offset : Int} {limit : Option Int} {page : Page k} :
    s.query k owner filter order offset limit ≠ .ok page := by
  intro hpage
  rw [query_eq] at hpage
  obtain ⟨found, -, hpage⟩ := bind_eq_ok.1 hpage
  obtain ⟨keys, -, hpage⟩ := bind_eq_ok.1 hpage
  rw [if_pos hmany] at hpage
  cases hpage

theorem mem_matching (h : c.Takes literal other text) {o : Operator} (htried : s.Tries owner c literal o)
    (horder : IsSortable k order) {r : Row k} :
    r ∈ s.matching owner order c literal o ↔
      r ∈ s.owned k owner ∧ Cell.satisfies o other text (r.get c) = true := by
  obtain ⟨page, hpage, hitems⟩ := exists_query h htried horder
  rw [← hitems]
  constructor
  · rintro ⟨page', hpage', hr⟩
    rw [hpage] at hpage'
    cases hpage'
    exact hr
  · intro hr
    exact ⟨page, hpage, hr⟩

theorem matching_of_not_tries (h : c.Takes literal other text) {o : Operator} (htried : ¬s.Tries owner c literal o) :
    s.matching owner order c literal o = ∅ := by
  rw [Set.eq_empty_iff_forall_notMem]
  rintro r ⟨page, hpage, -⟩
  rw [query_of_not_tries h htried] at hpage
  cases hpage

/-! ## Comparisons of order -/

/-- A comparison of order finds the rows that hold something, as it stands to the literal. -/
theorem mem_matching_order (h : c.Takes literal other text) {o : Operator} (ho : ∀ t, pattern? o t = none)
    (horder : IsSortable k order) {r : Row k} :
    r ∈ s.matching owner order c literal o ↔
      r ∈ s.owned k owner ∧ r.get c ≠ .null ∧ accepted o ((r.get c).compare other) = true := by
  have htried : s.Tries owner c literal o := by
    intro _
    rw [ho]
    exact .inl rfl
  rw [mem_matching h htried horder, Cell.satisfies, ho]
  dsimp only
  rw [compares, bne_iff_ne.2 h.ne_null, Bool.and_true, Bool.and_eq_true, bne_iff_ne]

theorem compare_eq_iff (h : c.Takes literal other text) {r : Row k} (hr : r ∈ s.owned k owner) :
    (r.get c).compare other = .eq ↔ r.get c = other := by
  have hcell := Row.isOf_get (mem_owned.1 hr).2 c
  rcases hcell.compare_cases h.isOf with ⟨hbelow, hcompare⟩ | ⟨hsame, hcompare⟩ | ⟨habove, hcompare⟩
  · have hne : r.get c ≠ other := by
      intro hsame
      rw [hsame] at hbelow
      exact Cell.Below.irrefl other hbelow
    rw [hcompare]
    exact iff_of_false Ordering.noConfusion hne
  · exact iff_of_true hcompare hsame
  · have hne : r.get c ≠ other := by
      intro hsame
      rw [hsame] at habove
      exact Cell.Below.irrefl other habove
    rw [hcompare]
    exact iff_of_false Ordering.noConfusion hne

/-- Rows below, equal to and above something: no row is in two of the three sets, they are all the rows there are to
compare, and the other comparisons find two of them each. -/
structure IsOrdered (rows : Operator → Set (Row k)) (present : Set (Row k)) : Prop where
  disjoint_lt_eq : rows .lt ∩ rows .eq = ∅
  disjoint_lt_gt : rows .lt ∩ rows .gt = ∅
  disjoint_eq_gt : rows .eq ∩ rows .gt = ∅
  union : rows .lt ∪ rows .eq ∪ rows .gt = present
  ne : rows .ne = rows .lt ∪ rows .gt
  le : rows .le = rows .lt ∪ rows .eq
  ge : rows .ge = rows .gt ∪ rows .eq

theorem isOrdered_matching (h : c.Takes literal other text)
    (horder : IsSortable k order) :
    IsOrdered (s.matching owner order c literal) {r | r ∈ s.owned k owner ∧ r.get c ≠ .null} := by
  have hmem {o : Operator} (ho : ∀ t, pattern? o t = none) (r : Row k) :
      r ∈ s.matching owner order c literal o ↔
        r ∈ s.owned k owner ∧ r.get c ≠ .null ∧ accepted o ((r.get c).compare other) = true :=
    mem_matching_order h ho horder
  have hdisjoint {o o' : Operator} (ho : ∀ t, pattern? o t = none) (ho' : ∀ t, pattern? o' t = none)
      (hapart : ∀ x, accepted o x = true → accepted o' x = false) :
      s.matching owner order c literal o ∩ s.matching owner order c literal o' = ∅ := by
    rw [Set.eq_empty_iff_forall_notMem]
    rintro r ⟨hr, hr'⟩
    rw [hmem ho] at hr
    rw [hmem ho', hapart _ hr.2.2] at hr'
    exact absurd hr'.2.2 Bool.false_ne_true
  have hunion {o o₁ o₂ : Operator} (ho : ∀ t, pattern? o t = none) (ho₁ : ∀ t, pattern? o₁ t = none)
      (ho₂ : ∀ t, pattern? o₂ t = none) (heither : ∀ x, accepted o x = (accepted o₁ x || accepted o₂ x)) :
      s.matching owner order c literal o =
        s.matching owner order c literal o₁ ∪ s.matching owner order c literal o₂ := by
    ext r
    rw [Set.mem_union, hmem ho, hmem ho₁, hmem ho₂, heither, Bool.or_eq_true]
    tauto
  constructor
  case disjoint_lt_eq => exact hdisjoint (fun _ => rfl) (fun _ => rfl) (by intro x; cases x <;> decide)
  case disjoint_lt_gt => exact hdisjoint (fun _ => rfl) (fun _ => rfl) (by intro x; cases x <;> decide)
  case disjoint_eq_gt => exact hdisjoint (fun _ => rfl) (fun _ => rfl) (by intro x; cases x <;> decide)
  case union =>
    ext r
    rw [Set.mem_union, Set.mem_union, hmem fun _ => rfl, hmem fun _ => rfl, hmem fun _ => rfl, Set.mem_ofPred_eq]
    cases (r.get c).compare other <;> simp [accepted]
  case ne => exact hunion (fun _ => rfl) (fun _ => rfl) (fun _ => rfl) (by intro x; cases x <;> rfl)
  case le => exact hunion (fun _ => rfl) (fun _ => rfl) (fun _ => rfl) (by intro x; cases x <;> rfl)
  case ge => exact hunion (fun _ => rfl) (fun _ => rfl) (fun _ => rfl) (by intro x; cases x <;> rfl)

/-! ## Comparisons of texts -/

/-- How a comparison of texts reads the text that it asks for and the text of a cell. -/
def Relates : Operator → List Char → List Char → Prop
  | .co => Like.Contains
  | .sw => Like.StartsWith
  | .ew => Like.EndsWith
  | _ => fun _ _ => False

theorem accepts_iff_relates {o : Operator} {pattern s t : List Char} (ho : pattern? o s = some pattern) :
    Like.accepts pattern t = true ↔ Relates o s t := by
  cases o
  case co =>
    cases ho
    exact Like.accepts_containing
  case sw =>
    cases ho
    exact Like.accepts_startingWith
  case ew =>
    cases ho
    exact Like.accepts_endingWith
  all_goals cases ho

/-- A comparison of texts finds the rows whose text it relates to the text of the literal. -/
theorem mem_matching_pattern (h : c.Takes literal other text) {o : Operator} {pattern : List Char}
    (ho : pattern? o text.toList = some pattern) (htried : s.Tries owner c literal o)
    (horder : IsSortable k order) {r : Row k} :
    r ∈ s.matching owner order c literal o ↔
      r ∈ s.owned k owner ∧ ∃ t, (r.get c).asText = some t ∧ Relates o text.toList t.toList := by
  rw [mem_matching h htried horder, Cell.satisfies, ho]
  dsimp only
  rw [resembles]
  refine and_congr_right fun _ => ?_
  cases (r.get c).asText with
  | none => simp
  | some t =>
    dsimp only
    rw [accepts_iff_relates ho]
    simp

/-- What is equal to the literal begins and ends with it, and what begins or ends with it contains it, as far as these
comparisons are carried out. -/
structure IsNested (rows : Operator → Set (Row k)) (tries : Operator → Prop) : Prop where
  eq_sw : tries .sw → rows .eq ⊆ rows .sw
  eq_ew : tries .ew → rows .eq ⊆ rows .ew
  sw_co : tries .co → rows .sw ⊆ rows .co
  ew_co : tries .co → rows .ew ⊆ rows .co

theorem isNested_matching (h : c.Takes literal other text)
    (horder : IsSortable k order) :
    IsNested (s.matching owner order c literal) (s.Tries owner c literal) := by
  have hequal {o : Operator} {pattern : List Char} (ho : pattern? o text.toList = some pattern)
      (hself : Relates o text.toList text.toList) (htried : s.Tries owner c literal o) :
      s.matching owner order c literal .eq ⊆ s.matching owner order c literal o := by
    intro r hr
    obtain ⟨hr, -, hcompare⟩ := (mem_matching_order h (fun _ => rfl) horder).1 hr
    have hcell := (compare_eq_iff h hr).1 (beq_iff_eq.1 hcompare)
    rw [mem_matching_pattern h ho htried horder, hcell, h.asText]
    exact ⟨hr, text, rfl, hself⟩
  have hwithin {o : Operator} {pattern : List Char} (ho : pattern? o text.toList = some pattern)
      (hcontains : ∀ t, Relates o text.toList t → Relates .co text.toList t) (htried : s.Tries owner c literal .co) :
      s.matching owner order c literal o ⊆ s.matching owner order c literal .co := by
    intro r hr
    by_cases htried' : s.Tries owner c literal o
    · rw [mem_matching_pattern h ho htried' horder] at hr
      obtain ⟨hr, t, ht, hrelates⟩ := hr
      exact (mem_matching_pattern h rfl htried horder).2 ⟨hr, t, ht, hcontains _ hrelates⟩
    · rw [matching_of_not_tries h htried'] at hr
      cases hr
  exact {
    eq_sw := hequal rfl (Like.startsWith_self _)
    eq_ew := hequal rfl (Like.endsWith_self _)
    sw_co := hwithin rfl fun _ => Like.StartsWith.contains
    ew_co := hwithin rfl fun _ => Like.EndsWith.contains }

/-- Among the rows of a company, those whose text in a column has a property. -/
def withText (s : Store) (owner : Company) (c : Column k) (holds : List Char → Prop) : Set (Row k) :=
  {r | r ∈ s.owned k owner ∧ ∃ t, r.get c = .text t ∧ holds t.toList}

theorem matching_pattern_of_text (htype : c.type = .text)
    (horder : IsSortable k order) {o : Operator} {pattern : List Char}
    (ho : pattern? o literal.toList = some pattern) (htried : s.Tries owner c literal o) :
    s.matching owner order c literal o = s.withText owner c (Relates o literal.toList) := by
  ext r
  rw [mem_matching_pattern (.text htype) ho htried horder]
  refine and_congr_right fun hr => ?_
  have hcell := Row.isOf_get (mem_owned.1 hr).2 c
  rw [htype] at hcell
  cases hget : r.get c with
  | text t => simp [Cell.asText]
  | null => simp [Cell.asText]
  | _ =>
    rw [hget] at hcell
    cases hcell

/-- The comparisons of texts, as far as they are carried out, find the rows whose text contains the literal, or begins
or ends with it. -/
structure FindsTexts (s : Store) (owner : Company) (c : Column k) (literal : String) (rows : Operator → Set (Row k)) :
    Prop where
  co : s.Tries owner c literal .co → rows .co = s.withText owner c (Like.Contains literal.toList)
  sw : s.Tries owner c literal .sw → rows .sw = s.withText owner c (Like.StartsWith literal.toList)
  ew : s.Tries owner c literal .ew → rows .ew = s.withText owner c (Like.EndsWith literal.toList)

/-- When every character is read as itself, they look for the letters of the literal in either case, and for nothing
else. -/
structure FindsLetters (s : Store) (owner : Company) (c : Column k) (literal : String) (rows : Operator → Set (Row k)) :
    Prop where
  co : s.Tries owner c literal .co →
    rows .co = s.withText owner c (Text.lowerPlain literal.toList <:+: Text.lowerPlain ·)
  sw : s.Tries owner c literal .sw →
    rows .sw = s.withText owner c (Text.lowerPlain literal.toList <+: Text.lowerPlain ·)
  ew : s.Tries owner c literal .ew →
    rows .ew = s.withText owner c (Text.lowerPlain literal.toList <:+ Text.lowerPlain ·)

/-- Every text that a column holds in the rows of a company is read as it is. -/
def IsPlain (s : Store) (owner : Company) (c : Column k) : Prop :=
  ∀ r ∈ s.owned k owner, ∀ t, r.get c = .text t → ∀ x ∈ t.toList, Like.IsPlain x

theorem withText_congr {holds holds' : List Char → Prop}
    (h : ∀ r ∈ s.owned k owner, ∀ t, r.get c = .text t → (holds t.toList ↔ holds' t.toList)) :
    s.withText owner c holds = s.withText owner c holds' := by
  ext r
  constructor
  · rintro ⟨hr, t, ht, hholds⟩
    exact ⟨hr, t, ht, (h r hr t ht).1 hholds⟩
  · rintro ⟨hr, t, ht, hholds⟩
    exact ⟨hr, t, ht, (h r hr t ht).2 hholds⟩

theorem FindsTexts.findsLetters {rows : Operator → Set (Row k)} (h : s.FindsTexts owner c literal rows)
    (hliteral : ∀ x ∈ literal.toList, Like.IsPlain x) (hplain : s.IsPlain owner c) :
    s.FindsLetters owner c literal rows := by
  have hread {r : Row k} (hr : r ∈ s.owned k owner) {t : String} (ht : r.get c = .text t) :=
    Like.of_plain hliteral (hplain r hr t ht)
  constructor
  case co =>
    intro htried
    rw [h.co htried]
    exact withText_congr fun r hr t ht => (hread hr ht).2.2
  case sw =>
    intro htried
    rw [h.sw htried]
    exact withText_congr fun r hr t ht => (hread hr ht).1
  case ew =>
    intro htried
    rw [h.ew htried]
    exact withText_congr fun r hr t ht => (hread hr ht).2.1

/-- A literal divides the rows of a company by their cells in a column of texts or integers as an order does. It is
compared with all of them unless its pattern is too long or there are more criteria to sort by than one statement takes;
in a column of texts the patterns find the texts that they should, as texts are read, and with the letters that they
should where every character is read as itself. -/
theorem comparisons_form_an_order {value : Json} (htype : c.type = .text ∨ c.type = .integer)
    (hvalue : coerce c.type (.str literal) = some value) (hfits : ∀ n, value = .int n → fitsInt64 n = true)
    (hknown : ∀ o ∈ order, (Column.ofName? k o.column).isSome = true) :
    (∀ o, (∃ page, s.query k owner (some ⟨c.name, o, literal⟩) order 0 none = .ok page) ↔
      s.Tries owner c literal o ∧ criteria order ≤ maxCriteria) ∧
    (criteria order ≤ maxCriteria →
      IsOrdered (s.matching owner order c literal) {r | r ∈ s.owned k owner ∧ r.get c ≠ .null} ∧
      IsNested (s.matching owner order c literal) (s.Tries owner c literal) ∧
      (c.type = .text → s.FindsTexts owner c literal (s.matching owner order c literal)) ∧
      (c.type = .text → (∀ x ∈ literal.toList, Like.IsPlain x) → s.IsPlain owner c →
        s.FindsLetters owner c literal (s.matching owner order c literal))) := by
  obtain ⟨other, text, h⟩ := Column.exists_takes htype hvalue hfits
  constructor
  · intro o
    constructor
    · rintro ⟨page, hpage⟩
      constructor
      · by_contra htried
        rw [query_of_not_tries h htried] at hpage
        cases hpage
      · by_contra hmany
        exact query_ne_ok_of_maxCriteria_lt (Nat.not_le.1 hmany) hpage
    · rintro ⟨htried, hshort⟩
      obtain ⟨page, hpage, -⟩ := exists_query h htried ⟨hknown, hshort⟩
      exact ⟨page, hpage⟩
  · intro hshort
    have horder : IsSortable k order := ⟨hknown, hshort⟩
    have htexts : c.type = .text → s.FindsTexts owner c literal (s.matching owner order c literal) := fun htext => {
      co := matching_pattern_of_text htext horder rfl
      sw := matching_pattern_of_text htext horder rfl
      ew := matching_pattern_of_text htext horder rfl }
    exact ⟨isOrdered_matching h horder, isNested_matching h horder, htexts,
      fun htext hliteral hplain => (htexts htext).findsLetters hliteral hplain⟩

/-- The users named Bob are among those whose first names begin with "b". -/
theorem comparisons_form_an_order_sample :
    (Column.firstName : Column .user).type = .text ∧
      IsOrdered (Sample.store.matching Sample.acme [⟨"email", true⟩] (Column.firstName : Column .user) "b")
        {r | r ∈ Sample.store.owned .user Sample.acme ∧ r.get .firstName ≠ .null} ∧
      Sample.bob ∈ Sample.store.matching Sample.acme [⟨"email", true⟩] (Column.firstName : Column .user) "b" .sw := by
  have horder : ∀ o ∈ [OrderBy.mk "email" true], (Column.ofName? .user o.column).isSome = true := by decide
  have hvalue : coerce (Column.firstName : Column .user).type (.str "b") = some (.str "b") := rfl
  have hfits : ∀ n, Json.str "b" = .int n → fitsInt64 n = true := by
    intro n hn
    cases hn
  have hplain : ∀ x ∈ "b".toList, Like.IsPlain x := Like.isPlain_of_all (by decide)
  have hnames : Sample.store.IsPlain Sample.acme (Column.firstName : Column .user) := by
    have howned : Sample.store.owned .user Sample.acme = [Sample.ada, Sample.bob] := by decide
    intro r hr t ht
    rw [howned, List.mem_cons, List.mem_singleton] at hr
    rcases hr with rfl | rfl <;> cases ht <;> exact Like.isPlain_of_all (by decide)
  obtain ⟨hordered, -, -, hletters⟩ :=
    (@comparisons_form_an_order .user .firstName "b" Sample.store Sample.acme _ _ (.inl rfl) hvalue hfits horder).2
      (by decide)
  refine ⟨rfl, hordered, ?_⟩
  rw [(hletters rfl hplain hnames).sw fun _ => .inl (by decide +kernel)]
  exact ⟨by decide, "Bob", rfl, by decide⟩

end Store

/-- The user who has a text as first name and as address. -/
def Sample.onlyUser (text : String) : Row .user :=
  ⟨1, "u1", .integer 1, .user text "King" text none, none, 0, 0⟩

/-- A company with one user. -/
def Sample.single (text : String) : Store where
  companies := [Sample.acme]
  users := ⟨[Sample.onlyUser text], List.pairwise_singleton _ _, by simp⟩
  groups := .empty
  memberships := []

namespace Store

theorem onlyUser_mem_owned (text : String) : Sample.onlyUser text ∈ (Sample.single text).owned .user Sample.acme :=
  mem_owned.2 ⟨List.mem_singleton.2 rfl, rfl⟩

/-- A text that contains another one as patterns are read is found, letters or no letters. -/
private theorem not_findsLetters {text literal : String}
    (htried : (Sample.single text).Tries Sample.acme (Column.email : Column .user) literal .co)
    (hcontains : Like.Contains literal.toList text.toList)
    (hletters : ¬Text.lowerPlain literal.toList <:+: Text.lowerPlain text.toList) :
    ¬(Sample.single text).FindsLetters Sample.acme (Column.email : Column .user) literal
      ((Sample.single text).matching Sample.acme [] (Column.email : Column .user) literal) := by
  intro hfinds
  have hfound : Sample.onlyUser text ∈
      (Sample.single text).matching Sample.acme [] (Column.email : Column .user) literal .co := by
    rw [matching_pattern_of_text rfl isSortable_nil rfl htried]
    exact ⟨onlyUser_mem_owned text, text, rfl, hcontains⟩
  rw [hfinds.co htried] at hfound
  obtain ⟨-, t, ht, hinfix⟩ := hfound
  cases ht
  exact hletters hinfix

/-- The pattern of a text is longer than the text. -/
private theorem not_tries_of_long {text : String} (hlong : Like.maxOctets < text.toList.length) :
    ¬(Sample.single text).Tries Sample.acme (Column.email : Column .user) text .co := by
  intro htried
  rcases htried rfl with hshort | hempty
  · have hlength := Like.length_le_utf8ByteSize_containing text.toList
    rw [pattern?, Option.all_some, Like.isTooLong, Bool.not_eq_true', decide_eq_false_iff_not] at hshort
    omega
  · have hmem := onlyUser_mem_owned text
    rw [hempty] at hmem
    cases hmem

/-- A text that is equal to an address is not found in it as a pattern that is too long to be tried. -/
private theorem not_isNested_of_long {long : String} (hlong : Like.maxOctets < long.toList.length) :
    ¬IsNested ((Sample.single long).matching Sample.acme [] (Column.email : Column .user) long) fun _ => True := by
  intro hnested
  have htakes : (Column.email : Column .user).Takes long (.text long) long := .text rfl
  have hequal : Sample.onlyUser long ∈
      (Sample.single long).matching Sample.acme [] (Column.email : Column .user) long .eq := by
    rw [mem_matching_order htakes (fun _ => rfl) isSortable_nil]
    refine ⟨onlyUser_mem_owned long, Cell.noConfusion, ?_⟩
    exact beq_iff_eq.2 ((compare_eq_iff htakes (onlyUser_mem_owned long)).2 rfl)
  have hfound := hnested.sw_co trivial (hnested.eq_sw trivial hequal)
  rw [matching_of_not_tries htakes (not_tries_of_long hlong)] at hfound
  exact hfound

/-- An address is neither below a text nor equal to it nor above it if there is no order to query in. -/
private theorem not_isOrdered_of_many {order : List OrderBy} (hmany : maxCriteria < criteria order) (text : String) :
    ¬IsOrdered ((Sample.single text).matching Sample.acme order (Column.email : Column .user) text)
      {r : Row .user | r ∈ (Sample.single text).owned .user Sample.acme ∧ r.get .email ≠ .null} := by
  intro hordered
  have hpresent : Sample.onlyUser text ∈
      {r : Row .user | r ∈ (Sample.single text).owned .user Sample.acme ∧ r.get .email ≠ .null} :=
    ⟨onlyUser_mem_owned text, Cell.noConfusion⟩
  rw [← hordered.union] at hpresent
  rcases hpresent with (⟨page, hpage, -⟩ | ⟨page, hpage, -⟩) | ⟨page, hpage, -⟩
  all_goals exact query_ne_ok_of_maxCriteria_lt hmany hpage

/-- A pattern of more than fifty thousand octets finds nothing, not even the address that is equal to its text. A null
character cuts a pattern, and a character that is not read as itself is taken for another one. In an order that names a
column more than two thousand times nothing is found by any comparison. -/
theorem not_comparisons_form_an_order :
    (¬∀ (s : Store) (owner : Company) (c : Column .user) (literal : String), c.type = .text →
      IsNested (s.matching owner [] c literal) fun _ => True) ∧
    (¬∀ (s : Store) (owner : Company) (c : Column .user) (literal : String), c.type = .text →
      (∀ o, s.Tries owner c literal o) → s.FindsLetters owner c literal (s.matching owner [] c literal)) ∧
    (¬∀ (s : Store) (owner : Company) (c : Column .user) (literal : String), c.type = .text →
      (∀ o, s.Tries owner c literal o) → '\x00' ∉ literal.toList →
      s.FindsLetters owner c literal (s.matching owner [] c literal)) ∧
    ¬∀ (s : Store) (owner : Company) (order : List OrderBy) (c : Column .user) (literal : String), c.type = .text →
      (∀ o ∈ order, (Column.ofName? .user o.column).isSome = true) → (∀ o, s.Tries owner c literal o) →
      IsOrdered (s.matching owner order c literal) {r | r ∈ s.owned .user owner ∧ r.get c ≠ .null} := by
  refine ⟨?_, ?_, ?_, ?_⟩
  · intro hall
    obtain ⟨long, hlong⟩ : ∃ long, long = String.ofList (List.replicate (Like.maxOctets + 1) 'a') := ⟨_, rfl⟩
    have hlength : Like.maxOctets < long.toList.length := by
      rw [hlong, String.toList_ofList, List.length_replicate]
      omega
    exact not_isNested_of_long hlength (hall (Sample.single long) Sample.acme .email long rfl)
  · intro hall
    have htried : ∀ o, (Sample.single "Ann").Tries Sample.acme (Column.email : Column .user) "n\x00x" o := by
      intro o _
      left
      cases o <;> decide +kernel
    exact not_findsLetters (htried .co) (by decide) (by decide) (hall _ _ _ _ rfl htried)
  · intro hall
    have htried : ∀ o, (Sample.single "\ufffd").Tries Sample.acme (Column.email : Column .user) "\ufffe" o := by
      intro o _
      left
      cases o <;> decide +kernel
    exact not_findsLetters (htried .co) (by decide) (by decide) (hall _ _ _ _ rfl htried (by decide))
  · intro hall
    obtain ⟨order, horder⟩ : ∃ order, order = List.replicate (maxCriteria + 1) (OrderBy.mk "id" false) := ⟨_, rfl⟩
    have hknown : ∀ o ∈ order, (Column.ofName? .user o.column).isSome = true := by
      intro o ho
      rw [horder] at ho
      rw [List.eq_of_mem_replicate ho]
      decide
    have hmany : maxCriteria < criteria order := by
      rw [criteria, horder, List.length_replicate]
      split <;> omega
    have htried : ∀ o, (Sample.single "Ann").Tries Sample.acme (Column.email : Column .user) "Ann" o := by
      intro o _
      left
      cases o <;> decide +kernel
    exact not_isOrdered_of_many hmany "Ann"
      (hall (Sample.single "Ann") Sample.acme order .email "Ann" rfl hknown htried)

end Store

end Roster
