import Roster.Proofs.NaturalKeys
import Roster.Proofs.Stripping
import Roster.Filter.Parser

/-!
The grammar of filters.

A filter is a name, an operator and a value, in this order and with blanks between them. The reader finds them by
going through the text once; here the parts are described by what they are, and a text has them in one way at most.
A value may stand between double quotes, with a backslash before each quote and each backslash in it; every text can be
written like this, and is read back.
-/

set_option autoImplicit false

namespace Roster

namespace Text

/-! ## Words and gaps -/

/-- A word is a text without blanks, and not the empty one. -/
def IsWord (s : List Char) : Prop :=
  s ≠ [] ∧ ∀ c ∈ s, isBlank c = false

theorem isWord_iff_all {s : List Char} : s ≠ [] ∧ (s.all fun c => !isBlank c) = true ↔ IsWord s := by
  rw [IsWord, List.all_eq_true]
  exact and_congr_right fun _ => forall₂_congr fun c _ => iff_of_eq (Bool.not_eq_true' (isBlank c))

instance (s : List Char) : Decidable (IsWord s) :=
  decidable_of_iff _ isWord_iff_all

/-- A gap is a text of blanks only, and not the empty one. -/
def IsGap (s : List Char) : Prop :=
  s ≠ [] ∧ ∀ c ∈ s, isBlank c = true

/-- The text begins with a character that is no blank. -/
def BeginsWord (s : List Char) : Prop :=
  ∃ c rest, s = c :: rest ∧ isBlank c = false

variable {s t word gap : List Char}

theorem BeginsWord.ne_nil (h : BeginsWord s) : s ≠ [] := by
  obtain ⟨c, rest, rfl, -⟩ := h
  exact List.cons_ne_nil c rest

theorem BeginsWord.append (h : BeginsWord s) (t : List Char) : BeginsWord (s ++ t) := by
  obtain ⟨c, rest, rfl, hc⟩ := h
  exact ⟨c, rest ++ t, rfl, hc⟩

theorem IsWord.beginsWord (h : IsWord word) : BeginsWord word := by
  obtain ⟨hne, hword⟩ := h
  obtain ⟨c, rest, rfl⟩ := List.exists_cons_of_ne_nil hne
  exact ⟨c, rest, rfl, hword c List.mem_cons_self⟩

theorem beginsWord_trimLeft (h : trimLeft s ≠ []) : BeginsWord (trimLeft s) := by
  obtain ⟨c, rest, hcons⟩ := List.exists_cons_of_ne_nil h
  have hhead := List.head_dropWhile_not isBlank h
  have hc : (s.dropWhile isBlank).head h = c := by
    simp only [trimLeft] at hcons
    simp only [hcons, List.head_cons]
  rw [hc] at hhead
  exact ⟨c, rest, hcons, hhead⟩

theorem exists_trimLeft (s : List Char) : ∃ gap, (∀ c ∈ gap, isBlank c = true) ∧ s = gap ++ trimLeft s :=
  ⟨s.takeWhile isBlank, fun _ hc => List.mem_takeWhile_imp hc, List.takeWhile_append_dropWhile.symm⟩

theorem trimLeft_append (hgap : ∀ c ∈ gap, isBlank c = true) (h : BeginsWord s) : trimLeft (gap ++ s) = s := by
  obtain ⟨c, rest, rfl, hc⟩ := h
  rw [trimLeft, List.dropWhile_append_of_pos hgap, List.dropWhile_cons, hc, if_neg Bool.false_ne_true]

/-- Neither end of a text is blank. -/
theorem not_isBlank_ends_iff : (∀ c ∈ t.head?, isBlank c = false) ∧ (∀ c ∈ t.getLast?, isBlank c = false) ↔
    t = [] ∨ BeginsWord t ∧ BeginsWord t.reverse := by
  have hbegins {u : List Char} (hu : u ≠ []) : (∀ c ∈ u.head?, isBlank c = false) ↔ BeginsWord u := by
    obtain ⟨c, rest, rfl⟩ := List.exists_cons_of_ne_nil hu
    constructor
    · exact fun hhead => ⟨c, rest, rfl, hhead c rfl⟩
    · rintro ⟨_, _, ⟨⟩, hc⟩ _ ⟨⟩
      exact hc
  rcases eq_or_ne t [] with rfl | hne
  · exact iff_of_true ⟨nofun, nofun⟩ (.inl rfl)
  · rw [← List.head?_reverse, hbegins hne, hbegins (List.reverse_ne_nil_iff.2 hne), or_iff_right hne]

/-- Trimming takes the blanks off both ends, and all of them. -/
theorem trim_eq_iff : trim s = t ↔
    ∃ gap gap', (∀ c ∈ gap, isBlank c = true) ∧ (∀ c ∈ gap', isBlank c = true) ∧ s = gap ++ t ++ gap' ∧
      (t = [] ∨ BeginsWord t ∧ BeginsWord t.reverse) := by
  change stripped isBlank s = t ↔ _
  rw [stripped_eq_iff, not_isBlank_ends_iff]

theorem beginsWord_trim (h : trim s ≠ []) : BeginsWord (trim s) := by
  obtain ⟨-, -, -, -, -, hempty | ⟨hbegins, -⟩⟩ := trim_eq_iff.1 (rfl : trim s = trim s)
  · exact absurd hempty h
  · exact hbegins

/-! ## The first word -/

theorem BeginsWord.firstWord (h : BeginsWord s) : IsWord (firstWord s) := by
  obtain ⟨c, rest, rfl, hc⟩ := h
  constructor
  · simp [Text.firstWord, hc]
  · intro x hx
    simpa using List.mem_takeWhile_imp hx

/-- Where a second word follows, blanks stand between it and the first. -/
theorem exists_gap (h : afterFirst s ≠ []) : ∃ gap, IsGap gap ∧ s = firstWord s ++ gap ++ afterFirst s := by
  obtain ⟨gap, hgap, hrest⟩ := exists_trimLeft (s.dropWhile fun c => !isBlank c)
  refine ⟨gap, ⟨?_, hgap⟩, ?_⟩
  · rintro rfl
    -- without a gap the rest would begin with the very character that ended the first word
    obtain ⟨c, rest, hcons, hc⟩ := beginsWord_trimLeft h
    rw [List.nil_append, hcons] at hrest
    have hne : s.dropWhile (fun c => !isBlank c) ≠ [] := by
      rw [hrest]
      exact List.cons_ne_nil c rest
    have hnot := List.head_dropWhile_not (fun c => !isBlank c) hne
    simp only [hrest, List.head_cons, hc] at hnot
    exact absurd hnot (by decide)
  · rw [List.append_assoc]
    change s = s.takeWhile _ ++ (gap ++ trimLeft _)
    rw [← hrest, List.takeWhile_append_dropWhile]

theorem firstWord_append (hword : IsWord word) (hgap : IsGap gap) (t : List Char) :
    firstWord (word ++ gap ++ t) = word := by
  obtain ⟨-, hword⟩ := hword
  obtain ⟨hne, hgap⟩ := hgap
  obtain ⟨c, rest, rfl⟩ := List.exists_cons_of_ne_nil hne
  have hc := hgap c List.mem_cons_self
  rw [firstWord, List.append_assoc, List.takeWhile_append_of_pos (fun x hx => by simp [hword x hx])]
  simp [hc]

theorem afterFirst_append (hword : IsWord word) (hgap : IsGap gap) (ht : BeginsWord t) :
    afterFirst (word ++ gap ++ t) = t := by
  obtain ⟨-, hword⟩ := hword
  obtain ⟨hne, hgap⟩ := hgap
  obtain ⟨c, rest, rfl⟩ := List.exists_cons_of_ne_nil hne
  have hc := hgap c List.mem_cons_self
  have hdrop : (word ++ (c :: rest ++ t)).dropWhile (fun c => !isBlank c) = c :: rest ++ t := by
    rw [List.dropWhile_append_of_pos (fun x hx => by simp [hword x hx])]
    simp [hc]
  rw [afterFirst, List.append_assoc, hdrop]
  exact trimLeft_append hgap ht

/-! ## Lower case of a few letters -/

/-- A small letter from A to Z that no letter of another alphabet has as its partner: the Kelvin sign has k. -/
def IsOwnLetter (c : Char) : Prop :=
  0x61 ≤ c.toNat ∧ c.toNat ≤ 0x7a ∧ c.toNat ≠ 0x6b

instance (c : Char) : Decidable (IsOwnLetter c) :=
  inferInstanceAs (Decidable (_ ∧ _ ∧ _))

private theorem lowerRuns_apart : ∀ r ∈ lowerRuns,
    r = (0x41, 0x5a, 1, 32) ∨ r = (0x212a, 0x212a, 1, -8383) ∨ (0x7a : Int) < r.1 + r.2.2.2 := by
  decide +kernel

private theorem toNat_ofNat_cases (n : Nat) : (Char.ofNat n).toNat = n ∨ (Char.ofNat n).toNat = 0 := by
  by_cases hvalid : n.isValidChar
  · rw [Char.ofNat, dif_pos hvalid]
    exact .inl rfl
  · rw [Char.ofNat, dif_neg hvalid]
    exact .inr rfl

/-- Such a letter comes from itself or from its capital, by the full mapping as by the plain one. -/
theorem lowerChar_eq_iff {c x : Char} (hx : IsOwnLetter x) : lowerChar c = x ↔ c.toLower = x := by
  by_cases hascii : c.toNat < 128
  · rw [lowerChar_of_ascii hascii]
  · obtain ⟨hfrom, hto, hk⟩ := hx
    constructor
    · intro hlower
      exfalso
      rw [lowerChar] at hlower
      split at hlower
      next r hr =>
        have hmem := List.mem_of_find?_eq_some hr
        have hrange := List.find?_some hr
        simp only [Bool.and_eq_true, decide_eq_true_eq] at hrange
        obtain ⟨⟨hfirst, hlast⟩, -⟩ := hrange
        subst hlower
        rcases lowerRuns_apart r hmem with rfl | rfl | hapart
        · exact hascii (Nat.lt_of_le_of_lt hlast (by decide))
        · have hc : c.toNat = 0x212a := Nat.le_antisymm hlast hfirst
          rw [hc] at hk
          exact hk (by decide)
        · rcases toNat_ofNat_cases (c.toNat + r.2.2.2).toNat with h | h <;> omega
      next =>
        subst hlower
        omega
    · intro hlower
      have hcapital : ¬(c.val ≥ 'A'.val ∧ c.val ≤ 'Z'.val) := fun h =>
        absurd (Nat.lt_of_le_of_lt h.2 (by decide)) hascii
      have hsame : c.toLower = c := dif_neg hcapital
      rw [hsame] at hlower
      subst hlower
      omega

private theorem lowerAfter_eq_iff (before : List Char) {s word : List Char} (hword : ∀ c ∈ word, IsOwnLetter c) :
    lowerAfter before s = word ↔ s.map Char.toLower = word := by
  induction s generalizing before word with
  | nil => exact Iff.rfl
  | cons c rest ih =>
    rw [lowerAfter, List.map_cons]
    by_cases hsigma : c = 'Σ'
    · -- a capital sigma ends as a small one, and in no letter of the word
      subst hsigma
      constructor
      · rintro rfl
        have hmem := hword _ (List.mem_append_left _ List.mem_cons_self)
        exfalso
        revert hmem
        split <;> decide
      · rintro rfl
        exact absurd (hword _ List.mem_cons_self) (by decide)
    · by_cases hdotted : c = 'İ'
      · subst hdotted
        constructor
        · rintro rfl
          exact absurd (hword '\u0307' (List.mem_append_left _ (by simp))) (by decide)
        · rintro rfl
          exact absurd (hword _ List.mem_cons_self) (by decide)
      · rw [beq_eq_false_iff_ne.2 hsigma, beq_eq_false_iff_ne.2 hdotted, if_neg Bool.false_ne_true,
          if_neg Bool.false_ne_true, List.singleton_append]
        cases word with
        | nil => simp
        | cons x word =>
          rw [List.cons.injEq, List.cons.injEq, lowerChar_eq_iff (hword x List.mem_cons_self),
            ih (c :: before) fun d hd => hword d (List.mem_cons_of_mem x hd)]

theorem lower_eq_iff {s word : List Char} (hword : ∀ c ∈ word, IsOwnLetter c) :
    lower s = word ↔ lowerPlain s = word :=
  lowerAfter_eq_iff [] hword

end Text

namespace Filter

open Text

variable {s t : List Char} {first second new c : Char}

/-! ## Pairs of characters -/

/-- Pairs of two characters have become one character each, from left to right; every other character has stayed. -/
inductive Replaced (first second new : Char) : List Char → List Char → Prop
  | nil : Replaced first second new [] []
  | pair {s t : List Char} : Replaced first second new s t → Replaced first second new (first :: second :: s) (new :: t)
  | other {c : Char} {s t : List Char} : (c = first → ∀ rest, s ≠ second :: rest) → Replaced first second new s t →
      Replaced first second new (c :: s) (c :: t)

theorem replacePairs_pair (first second new : Char) (s : List Char) :
    replacePairs first second new (first :: second :: s) = new :: replacePairs first second new s := by
  rw [replacePairs, if_pos ⟨rfl, rfl⟩]

theorem replacePairs_cons (h : c = first → ∀ rest, s ≠ second :: rest) :
    replacePairs first second new (c :: s) = c :: replacePairs first second new s := by
  cases s with
  | nil => rfl
  | cons d rest =>
    rw [replacePairs, if_neg]
    rintro ⟨hc, rfl⟩
    exact h hc rest rfl

theorem replaced_replacePairs (first second new : Char) (s : List Char) :
    Replaced first second new s (replacePairs first second new s) := by
  induction s using replacePairs.induct first second with
  | case1 c d rest hpair ih =>
    obtain ⟨rfl, rfl⟩ := hpair
    rw [replacePairs_pair]
    exact .pair ih
  | case2 c d rest hpair ih =>
    have hother : c = first → ∀ rest', d :: rest ≠ second :: rest' := by
      rintro hc rest' hcons
      cases hcons
      exact hpair ⟨hc, rfl⟩
    rw [replacePairs_cons hother]
    exact .other hother ih
  | case3 s hshort =>
    cases s with
    | nil => exact .nil
    | cons c rest =>
      cases rest with
      | nil => exact .other (by simp) .nil
      | cons d rest => exact absurd rfl (hshort c d rest)

theorem replaced_iff : Replaced first second new s t ↔ replacePairs first second new s = t := by
  constructor
  · intro h
    induction h with
    | nil => rfl
    | pair _ ih => rw [replacePairs_pair, ih]
    | other hother _ ih => rw [replacePairs_cons hother, ih]
  · rintro rfl
    exact replaced_replacePairs first second new s

/-! ## Values -/

/-- The text that a value stands for. Between double quotes it is what they enclose, once every backslash and quote has
become a quote and then every two backslashes one; otherwise it is the value itself. -/
inductive Denotes (value : List Char) : List Char → Prop
  | quoted {inner once text : List Char} : value = '"' :: inner ++ ['"'] → Replaced '\\' '"' '"' inner once →
      Replaced '\\' '\\' '\\' once text → Denotes value text
  | plain : (∀ inner, value ≠ '"' :: inner ++ ['"']) → Denotes value value

theorem unquote?_eq_some_iff {value inner : List Char} :
    unquote? value = some inner ↔ value = '"' :: inner ++ ['"'] := by
  constructor
  · intro h
    rw [unquote?.eq_def] at h
    split at h
    next rest =>
      split at h
      next hlast =>
        cases h
        rw [List.cons_append, List.dropLast_append_getLast?]
        exact hlast
      next => cases h
    next => cases h
  · rintro rfl
    simp [unquote?]

theorem denotes_iff {value text : List Char} : Denotes value text ↔ literal value = text := by
  constructor
  · intro h
    cases h with
    | @quoted inner once text hvalue honce htext =>
      rw [literal, unquote?_eq_some_iff.2 hvalue]
      dsimp only
      rw [replaced_iff.1 honce, replaced_iff.1 htext]
    | plain hplain =>
      have hnone : unquote? value = none := by
        rw [Option.eq_none_iff_forall_ne_some]
        exact fun inner hinner => hplain inner (unquote?_eq_some_iff.1 hinner)
      rw [literal, hnone]
  · rintro rfl
    rw [literal]
    cases hinner : unquote? value with
    | some inner =>
      exact .quoted (unquote?_eq_some_iff.1 hinner) (replaced_replacePairs ..) (replaced_replacePairs ..)
    | none =>
      refine .plain fun inner hvalue => ?_
      rw [unquote?_eq_some_iff.2 hvalue] at hinner
      cases hinner

/-! ## Parts -/

/-- The parts stand in the text one after the other, with blanks between them; the value is all the rest. -/
def Parts.Spell (p : Parts) (text : List Char) : Prop :=
  IsWord p.name ∧ IsWord p.operator ∧ BeginsWord p.value ∧
    ∃ gap gap', IsGap gap ∧ IsGap gap' ∧ text = p.name ++ gap ++ (p.operator ++ gap' ++ p.value)

theorem split?_eq_some_iff {text : List Char} {p : Parts} : split? text = some p ↔ p.Spell (trim text) := by
  constructor
  · intro h
    dsimp only [split?] at h
    split at h
    next => cases h
    next hvalue =>
      cases h
      rw [List.isEmpty_iff] at hvalue
      obtain ⟨gap', hgap', hrest⟩ := exists_gap hvalue
      have hne : afterFirst (trim text) ≠ [] := by
        intro hnil
        rw [hnil] at hvalue
        exact hvalue rfl
      obtain ⟨gap, hgap, htrim⟩ := exists_gap hne
      have hname : trim text ≠ [] := by
        intro hnil
        rw [hnil] at hne
        exact hne rfl
      refine ⟨(beginsWord_trim hname).firstWord, (beginsWord_trimLeft hne).firstWord, beginsWord_trimLeft hvalue, gap,
        gap', hgap, hgap', ?_⟩
      dsimp only
      rw [← hrest]
      exact htrim
  · rintro ⟨hname, hoperator, hvalue, gap, gap', hgap, hgap', htrim⟩
    have hrest : BeginsWord (p.operator ++ gap' ++ p.value) := by
      rw [List.append_assoc]
      exact hoperator.beginsWord.append _
    dsimp only [split?]
    rw [htrim, afterFirst_append hname hgap hrest, afterFirst_append hoperator hgap' hvalue, if_neg (by
      rw [List.isEmpty_iff]
      exact hvalue.ne_nil), firstWord_append hname hgap, firstWord_append hoperator hgap']

/-- A text has its parts in one way. -/
theorem Parts.Spell.unique {text : List Char} {p q : Parts} (hp : p.Spell (trim text)) (hq : q.Spell (trim text)) :
    p = q := by
  have hsame := (split?_eq_some_iff.2 hp).symm.trans (split?_eq_some_iff.2 hq)
  exact Option.some.inj hsame

/-! ## Operators -/

theorem Operator.ofName?_eq_some_iff {name : String} {o : Operator} : ofName? name = some o ↔ name = o.name := by
  constructor
  · intro h
    rw [ofName?] at h
    have hname := List.find?_some h
    exact (beq_iff_eq.1 hname).symm
  · rintro rfl
    exact ofName?_name o

/-- An operator is recognised in any mixture of small letters and capitals. -/
theorem Operator.ofName?_lower {token : List Char} {o : Operator} :
    ofName? (String.ofList (lower token)) = some o ↔ lowerPlain token = o.name.toList := by
  have hall : (o.name.toList.all fun c => decide (IsOwnLetter c)) = true := by cases o <;> decide
  have hletters : ∀ c ∈ o.name.toList, IsOwnLetter c := fun c hc => of_decide_eq_true (List.all_eq_true.1 hall c hc)
  rw [ofName?_eq_some_iff, ← String.toList_inj, String.toList_ofList, lower_eq_iff hletters]

/-! ## Filters -/

/-- What a text says as a filter. With the blanks at its ends taken off it is empty, or does not have the three parts,
or has a name that no column belongs to, or an operator that does not exist, or is a comparison; a name is looked at
before an operator. -/
inductive Reads (attributes : List (String × String)) (text : String) : Except Error Expression → Prop
  | empty : trim text.toList = [] → Reads attributes text (.error .empty)
  | malformed : trim text.toList ≠ [] → (∀ p : Parts, ¬p.Spell (trim text.toList)) →
      Reads attributes text (.error (.malformed text))
  | unsupportedAttribute {p : Parts} : p.Spell (trim text.toList) → attributes.lookup (String.ofList p.name) = none →
      Reads attributes text (.error (.unsupportedAttribute (String.ofList p.name)))
  | unsupportedOperator {p : Parts} {column : String} : p.Spell (trim text.toList) →
      attributes.lookup (String.ofList p.name) = some column → (∀ o : Operator, lowerPlain p.operator ≠ o.name.toList) →
      Reads attributes text (.error (.unsupportedOperator (String.ofList p.operator)))
  | comparison {p : Parts} {column : String} {o : Operator} {literal : List Char} : p.Spell (trim text.toList) →
      attributes.lookup (String.ofList p.name) = some column → lowerPlain p.operator = o.name.toList →
      Denotes p.value literal → Reads attributes text (.ok ⟨column, o, String.ofList literal⟩)

variable {attributes : List (String × String)} {text : String}

theorem Parts.Spell.ne_nil {p : Parts} {text : List Char} (hp : p.Spell text) : text ≠ [] := by
  obtain ⟨⟨hname, -⟩, -, -, gap, gap', -, -, rfl⟩ := hp
  exact List.append_ne_nil_of_left_ne_nil (List.append_ne_nil_of_left_ne_nil hname gap) _

theorem parse_of_spell {p : Parts} (hp : p.Spell (trim text.toList)) : parse attributes text =
    match attributes.lookup (String.ofList p.name) with
    | none => .error (.unsupportedAttribute (String.ofList p.name))
    | some column =>
      match Operator.ofName? (String.ofList (lower p.operator)) with
      | none => .error (.unsupportedOperator (String.ofList p.operator))
      | some operator => .ok ⟨column, operator, String.ofList (literal p.value)⟩ := by
  have hne : ¬(trim text.toList).isEmpty = true := by
    rw [List.isEmpty_iff]
    exact hp.ne_nil
  have hsplit := split?_eq_some_iff.2 hp
  rw [parse, if_neg hne]
  cases hparts : split? text.toList with
  | none =>
    rw [hparts] at hsplit
    cases hsplit
  | some q =>
    rw [hparts] at hsplit
    cases hsplit
    rfl

theorem reads_parse (attributes : List (String × String)) (text : String) :
    Reads attributes text (parse attributes text) := by
  by_cases hempty : trim text.toList = []
  · rw [parse, if_pos (List.isEmpty_iff.2 hempty)]
    exact .empty hempty
  · cases hsplit : split? text.toList with
    | none =>
      rw [parse, if_neg (by rwa [List.isEmpty_iff]), hsplit]
      refine .malformed hempty fun p hp => ?_
      rw [split?_eq_some_iff.2 hp] at hsplit
      cases hsplit
    | some p =>
      have hp := split?_eq_some_iff.1 hsplit
      rw [parse_of_spell hp]
      cases hkey : attributes.lookup (String.ofList p.name) with
      | none => exact .unsupportedAttribute hp hkey
      | some column =>
        cases hoperator : Operator.ofName? (String.ofList (lower p.operator)) with
        | none =>
          refine .unsupportedOperator hp hkey fun o ho => ?_
          rw [Operator.ofName?_lower.2 ho] at hoperator
          cases hoperator
        | some o => exact .comparison hp hkey (Operator.ofName?_lower.1 hoperator) (denotes_iff.2 rfl)

theorem parse_of_reads {r : Except Error Expression} (h : Reads attributes text r) : parse attributes text = r := by
  cases h with
  | empty hempty => rw [parse, if_pos (List.isEmpty_iff.2 hempty)]
  | malformed hne hparts =>
    have hsplit : split? text.toList = none := by
      rw [Option.eq_none_iff_forall_ne_some]
      exact fun p hp => hparts p (split?_eq_some_iff.1 hp)
    rw [parse, if_neg (by rwa [List.isEmpty_iff]), hsplit]
  | unsupportedAttribute hp hkey => rw [parse_of_spell hp, hkey]
  | @unsupportedOperator p column hp hkey hoperator =>
    have hnone : Operator.ofName? (String.ofList (lower p.operator)) = none := by
      rw [Option.eq_none_iff_forall_ne_some]
      exact fun o ho => hoperator o (Operator.ofName?_lower.1 ho)
    rw [parse_of_spell hp, hkey]
    dsimp only
    rw [hnone]
  | comparison hp hkey hoperator hliteral =>
    rw [parse_of_spell hp, hkey]
    dsimp only
    rw [Operator.ofName?_lower.2 hoperator, denotes_iff.1 hliteral]

/-- The reader accepts the grammar and nothing else. A text has at most one way to be split into parts, the answer is
the one that the grammar gives, value and failure alike, and it is a comparison just when the parts are there, the name
has a column and the operator exists. -/
theorem reads_exactly_the_grammar (attributes : List (String × String)) (text : String) :
    (∀ p q : Parts, p.Spell (trim text.toList) → q.Spell (trim text.toList) → p = q) ∧
      (∀ r, parse attributes text = r ↔ Reads attributes text r) ∧
      ((∃ e, parse attributes text = .ok e) ↔ ∃ p : Parts, p.Spell (trim text.toList) ∧
        (∃ column, attributes.lookup (String.ofList p.name) = some column) ∧
        ∃ o : Operator, lowerPlain p.operator = o.name.toList) := by
  refine ⟨fun p q hp hq => hp.unique hq, fun r => ⟨?_, parse_of_reads⟩, ?_, ?_⟩
  · rintro rfl
    exact reads_parse attributes text
  · rintro ⟨e, he⟩
    have hreads := reads_parse attributes text
    rw [he] at hreads
    cases hreads with
    | comparison hp hkey hoperator _ => exact ⟨_, hp, ⟨_, hkey⟩, _, hoperator⟩
  · rintro ⟨p, hp, ⟨column, hkey⟩, o, hoperator⟩
    exact ⟨_, parse_of_reads (.comparison hp hkey hoperator (denotes_iff.2 rfl))⟩

/-! ## Values between quotes -/

/-- A text with a backslash before each of its backslashes and double quotes. -/
def escaped (s : List Char) : List Char :=
  s.flatMap fun c => if c = '\\' ∨ c = '"' then ['\\', c] else [c]

/-- A text with each of its backslashes twice. -/
def doubled (s : List Char) : List Char :=
  s.flatMap fun c => if c = '\\' then ['\\', c] else [c]

theorem escaped_cons (c : Char) (s : List Char) :
    escaped (c :: s) = if c = '\\' ∨ c = '"' then '\\' :: c :: escaped s else c :: escaped s := by
  rw [escaped, List.flatMap_cons]
  split <;> rfl

theorem doubled_cons (c : Char) (s : List Char) :
    doubled (c :: s) = if c = '\\' then '\\' :: c :: doubled s else c :: doubled s := by
  rw [doubled, List.flatMap_cons]
  split <;> rfl

/-- No quote stands bare at the beginning, so a backslash before the text meets none. -/
theorem escaped_ne_quote (s rest : List Char) : escaped s ≠ '"' :: rest := by
  cases s with
  | nil => simp [escaped]
  | cons c s =>
    rw [escaped_cons]
    split
    next =>
      intro h
      cases h
    next hplain =>
      intro h
      cases h
      exact hplain (.inr rfl)

/-- Undoing the quotes leaves each backslash of the text twice: the one that was written before a quote is gone with it,
and of two for a backslash the second is never taken for the escape of a quote after it. -/
theorem replacePairs_escaped (s : List Char) : replacePairs '\\' '"' '"' (escaped s) = doubled s := by
  induction s with
  | nil => rfl
  | cons c s ih =>
    rw [escaped_cons, doubled_cons]
    by_cases hslash : c = '\\'
    · subst hslash
      rw [if_pos (.inl rfl), if_pos rfl, replacePairs_cons (by simp), replacePairs_cons fun _ => escaped_ne_quote s, ih]
    · by_cases hquote : c = '"'
      · subst hquote
        rw [if_pos (.inr rfl), if_neg hslash, replacePairs_pair, ih]
      · rw [if_neg (not_or.2 ⟨hslash, hquote⟩), if_neg hslash, replacePairs_cons fun h => absurd h hslash, ih]

theorem replacePairs_doubled (s : List Char) : replacePairs '\\' '\\' '\\' (doubled s) = s := by
  induction s with
  | nil => rfl
  | cons c s ih =>
    rw [doubled_cons]
    by_cases hslash : c = '\\'
    · subst hslash
      rw [if_pos rfl, replacePairs_pair, ih]
    · rw [if_neg hslash, replacePairs_cons fun h => absurd h hslash, ih]

theorem denotes_escaped (s : List Char) : Denotes ('"' :: escaped s ++ ['"']) s := by
  refine .quoted rfl (replaced_iff.2 rfl) (replaced_iff.2 ?_)
  rw [replacePairs_escaped, replacePairs_doubled]

/-- A comparison of an attribute with a text, the text between quotes. -/
def written (name : String) (o : Operator) (s : String) : String :=
  String.ofList (name.toList ++ [' '] ++ (o.name.toList ++ [' '] ++ ('"' :: escaped s.toList ++ ['"'])))

theorem trim_written {name : String} (hname : IsWord name.toList) (o : Operator) (s : String) :
    trim (written name o s).toList = (written name o s).toList := by
  rw [trim_eq_iff]
  refine ⟨[], [], by simp, by simp, by simp, .inr ⟨?_, ?_⟩⟩
  · rw [written, String.toList_ofList, List.append_assoc]
    exact hname.beginsWord.append _
  · rw [written, String.toList_ofList, ← List.append_assoc, ← List.append_assoc, List.reverse_append]
    exact ⟨'"', _, rfl, by decide⟩

theorem spell_written {name : String} (hname : IsWord name.toList) (o : Operator) (s : String) :
    Parts.Spell ⟨name.toList, o.name.toList, '"' :: escaped s.toList ++ ['"']⟩ (trim (written name o s).toList) := by
  have hgap : IsGap [' '] := by
    constructor
    · exact List.cons_ne_nil ' ' []
    · simp [isBlank, inRanges, blankRanges]
  have hoperator : IsWord o.name.toList := by cases o <;> decide
  rw [trim_written hname, written, String.toList_ofList]
  exact ⟨hname, hoperator, ⟨'"', _, rfl, by decide⟩, [' '], [' '], hgap, hgap, rfl⟩

/-- Every text can be compared with: written between quotes it is read back as it is, whatever it holds. So two texts
that are read as the same literal are the same text. -/
theorem written_reads_back {name column : String} (hname : IsWord name.toList)
    (hkey : attributes.lookup name = some column) :
    (∀ o s, parse attributes (written name o s) = .ok ⟨column, o, s⟩) ∧
      ∀ o o' s s' e e', parse attributes (written name o s) = .ok e → parse attributes (written name o' s') = .ok e' →
        e.literal = e'.literal → s = s' := by
  have hread : ∀ o s, parse attributes (written name o s) = .ok ⟨column, o, s⟩ := by
    intro o s
    have hcolumn : attributes.lookup (String.ofList name.toList) = some column := by rw [String.ofList_toList, hkey]
    have hlower : lowerPlain o.name.toList = o.name.toList := by cases o <;> decide
    have hreads := Reads.comparison (spell_written hname o s) hcolumn hlower (denotes_escaped s.toList)
    rw [String.ofList_toList] at hreads
    exact parse_of_reads hreads
  refine ⟨hread, ?_⟩
  intro o o' s s' e e' he he' hliteral
  rw [hread o s] at he
  rw [hread o' s'] at he'
  cases he
  cases he'
  exact hliteral

theorem written_reads_back_sample : IsWord "userName".toList ∧
    Schema.userQueryable.lookup "userName" = some "email" ∧
      parse Schema.userQueryable (written "userName" .co "a\\\"\n \\") = .ok ⟨"email", .co, "a\\\"\n \\"⟩ := by
  have hname : IsWord "userName".toList := by decide
  have hkey : Schema.userQueryable.lookup "userName" = some "email" := by decide
  exact ⟨hname, hkey, (written_reads_back hname hkey).1 .co "a\\\"\n \\"⟩

end Filter

end Roster
