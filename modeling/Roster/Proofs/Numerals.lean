import Roster.Number.Integer
import Roster.Proofs.Stripping

/-!
Texts that spell integers.

An integer is spelled by digits of any script, with single underscores between them, after a sign or none and with
blanks around. The reader of integers takes exactly these texts, and what it reads of the text that is written for an
integer is that integer.
-/

set_option autoImplicit false

namespace Roster.Number

open Text

/-! ## Digits -/

/-- A text consists of digits, with at most one underscore between two of them. -/
inductive SpellsDigits : List Char → List Nat → Prop
  | last {c : Char} {d : Nat} (hc : digitValue? c = some d) : SpellsDigits [c] [d]
  | next {c : Char} {d : Nat} {s : List Char} {ds : List Nat} (hc : digitValue? c = some d) (h : SpellsDigits s ds) :
      SpellsDigits (c :: s) (d :: ds)
  | parted {c : Char} {d : Nat} {s : List Char} {ds : List Nat} (hc : digitValue? c = some d) (h : SpellsDigits s ds) :
      SpellsDigits (c :: '_' :: s) (d :: ds)

variable {s digits : List Char} {values : List Nat} {c : Char}

theorem SpellsDigits.isSome_head (h : SpellsDigits digits values) :
    ∃ c rest, digits = c :: rest ∧ (digitValue? c).isSome = true := by
  cases h with
  | last hc => exact ⟨_, _, rfl, Option.isSome_of_eq_some hc⟩
  | next hc _ => exact ⟨_, _, rfl, Option.isSome_of_eq_some hc⟩
  | parted hc _ => exact ⟨_, _, rfl, Option.isSome_of_eq_some hc⟩

theorem SpellsDigits.isSome_getLast? (h : SpellsDigits digits values) :
    ∀ c ∈ digits.getLast?, (digitValue? c).isSome = true := by
  induction h with
  | last hc =>
    rintro c ⟨⟩
    exact Option.isSome_of_eq_some hc
  | next hc h ih =>
    obtain ⟨c, rest, rfl, -⟩ := h.isSome_head
    rw [List.getLast?_cons_cons]
    exact ih
  | parted hc h ih =>
    obtain ⟨c, rest, rfl, -⟩ := h.isSome_head
    rw [List.getLast?_cons_cons, List.getLast?_cons_cons]
    exact ih

theorem readDigits?_eq_some_iff : readDigits? digits = some values ↔ SpellsDigits digits values := by
  constructor
  · intro h
    induction digits using readDigits?.induct generalizing values with
    | case1 => cases h
    | case2 c =>
      obtain ⟨d, hd, rfl⟩ := Option.map_eq_some_iff.1 h
      exact .last hd
    | case3 c rest ih =>
      obtain ⟨d, hd, h⟩ := Option.bind_eq_some_iff.1 h
      obtain ⟨ds, hds, ⟨⟩⟩ := Option.bind_eq_some_iff.1 h
      exact .parted hd (ih hds)
    | case4 c rest hrest hunderscore ih =>
      rw [readDigits?] at h
      · obtain ⟨d, hd, h⟩ := Option.bind_eq_some_iff.1 h
        obtain ⟨ds, hds, ⟨⟩⟩ := Option.bind_eq_some_iff.1 h
        exact .next hd (ih hds)
      · exact hrest
      · exact hunderscore
  · intro h
    induction h with
    | last hc => rw [readDigits?, hc]; rfl
    | parted hc _ ih => rw [readDigits?, hc, ih]; rfl
    | next hc h ih =>
      obtain ⟨c, rest, rfl, hdigit⟩ := h.isSome_head
      have hunderscore : c ≠ '_' := by
        rintro rfl
        revert hdigit
        decide
      rw [readDigits?, hc, ih]
      · rfl
      · exact List.cons_ne_nil c rest
      · rintro rest' ⟨⟩
        exact hunderscore rfl

/-! ## Integers -/

/-- What stands before the digits, and the factor that it stands for. -/
inductive SpellsSign : List Char → Int → Prop
  | none : SpellsSign [] 1
  | plus : SpellsSign ['+'] 1
  | minus : SpellsSign ['-'] (-1)

/-- A text spells an integer, with as many digits as are allowed. -/
structure Spells (s : List Char) (n : Int) : Prop where
  exists_parts : ∃ before sign digits after factor values,
    s = before ++ (sign ++ digits) ++ after ∧
      (∀ c ∈ before, isIntegerBlank c = true) ∧ (∀ c ∈ after, isIntegerBlank c = true) ∧
        SpellsSign sign factor ∧ SpellsDigits digits values ∧ values.length ≤ maxDigits ∧ n = factor * ofDigits values

/-- No script has a digit among the blanks. -/
theorem isBlank_of_isSome (h : (digitValue? c).isSome = true) : isBlank c = false := by
  have hapart : ∀ z ∈ digitZeros, ∀ r ∈ blankRanges, z + 10 ≤ r.1 ∨ r.2 < z := by decide
  obtain ⟨z, hfind, -⟩ := Option.map_eq_some_iff.1 (Option.some_get h).symm
  have hz := List.find?_some hfind
  rw [Bool.and_eq_true, decide_eq_true_iff, decide_eq_true_iff] at hz
  rw [isBlank, inRanges, List.any_eq_false]
  intro r hr
  rw [Bool.and_eq_true, decide_eq_true_iff, decide_eq_true_iff]
  have := hapart z (List.mem_of_find?_eq_some hfind) r hr
  omega

theorem isIntegerBlank_of_isBlank (h : isBlank c = false) : isIntegerBlank c = false := by
  rw [isIntegerBlank, h, Bool.false_and]

/-- An integer without the blanks around it has none at its ends. -/
theorem isBlank_ends {sign : List Char} {factor : Int} (hsign : SpellsSign sign factor)
    (hdigits : SpellsDigits digits values) :
    (∀ c ∈ (sign ++ digits).head?, isBlank c = false) ∧ ∀ c ∈ (sign ++ digits).getLast?, isBlank c = false := by
  obtain ⟨c, rest, rfl, hc⟩ := hdigits.isSome_head
  constructor
  · cases hsign with
    | none =>
      rintro _ ⟨⟩
      exact isBlank_of_isSome hc
    | plus | minus =>
      rintro _ ⟨⟩
      decide
  · intro d hd
    rw [List.getLast?_append, List.getLast?_cons, Option.some_or] at hd
    exact isBlank_of_isSome (hdigits.isSome_getLast? d (List.getLast?_cons ▸ hd))

theorem readNat?_eq_some_iff {n : Nat} :
    readNat? digits = some n ↔ ∃ values, SpellsDigits digits values ∧ values.length ≤ maxDigits ∧ n = ofDigits values := by
  rw [readNat?]
  constructor
  · intro h
    obtain ⟨values, hvalues, h⟩ := Option.bind_eq_some_iff.1 h
    split at h
    next hlength => exact ⟨values, readDigits?_eq_some_iff.1 hvalues, hlength, (Option.some.inj h).symm⟩
    next => cases h
  · rintro ⟨values, hdigits, hlength, rfl⟩
    rw [readDigits?_eq_some_iff.2 hdigits]
    exact if_pos hlength

/-- An integer without blanks around it is read by its sign and its digits. -/
private theorem readInteger?_of_trim {sign : List Char} {factor : Int} (htrim : trimInteger s = sign ++ digits)
    (hsign : SpellsSign sign factor) (hdigits : SpellsDigits digits values) (hlength : values.length ≤ maxDigits) :
    readInteger? s = some (factor * ofDigits values) := by
  have hnat := readNat?_eq_some_iff.2 ⟨values, hdigits, hlength, rfl⟩
  cases hsign with
  | minus =>
    rw [readInteger?, htrim, List.singleton_append, Int.neg_one_mul]
    change ((readNat? digits).bind fun n => some (n : Int)).map (fun n => -n) = _
    rw [hnat]
    rfl
  | plus =>
    rw [readInteger?, htrim, List.singleton_append, Int.one_mul]
    change (readNat? digits).map Int.ofNat = _
    rw [hnat]
    rfl
  | none =>
    rw [readInteger?, htrim, List.nil_append, Int.one_mul]
    -- The first character is a digit, so it is no sign.
    have hdigit (c : Char) (hc : digitValue? c = none) (rest : List Char) : digits ≠ c :: rest := by
      rintro rfl
      obtain ⟨_, _, ⟨⟩, hsome⟩ := hdigits.isSome_head
      rw [hc] at hsome
      cases hsome
    split
    next ds => exact absurd rfl (hdigit '-' (by decide) ds)
    next ds => exact absurd rfl (hdigit '+' (by decide) ds)
    next => rw [hnat]; rfl

/-- The reader takes exactly the texts that spell integers. -/
theorem readInteger?_eq_some_iff {n : Int} : readInteger? s = some n ↔ Spells s n := by
  constructor
  · intro h
    obtain ⟨sign, digits, factor, values, htrim, hsign, hdigits, hlength, hn⟩ :
        ∃ sign digits factor values, trimInteger s = sign ++ digits ∧ SpellsSign sign factor ∧
          SpellsDigits digits values ∧ values.length ≤ maxDigits ∧ n = factor * ofDigits values := by
      rw [readInteger?] at h
      split at h
      next ds htrim =>
        obtain ⟨_, hz, rfl⟩ := Option.map_eq_some_iff.1 h
        obtain ⟨m, hm, ⟨⟩⟩ := Option.bind_eq_some_iff.1 hz
        obtain ⟨values, hdigits, hlength, rfl⟩ := readNat?_eq_some_iff.1 hm
        exact ⟨['-'], ds, -1, values, htrim, .minus, hdigits, hlength, (Int.neg_one_mul _).symm⟩
      next ds htrim =>
        obtain ⟨m, hm, rfl⟩ := Option.map_eq_some_iff.1 h
        obtain ⟨values, hdigits, hlength, rfl⟩ := readNat?_eq_some_iff.1 hm
        exact ⟨['+'], ds, 1, values, htrim, .plus, hdigits, hlength, (Int.one_mul _).symm⟩
      next =>
        obtain ⟨m, hm, rfl⟩ := Option.map_eq_some_iff.1 h
        obtain ⟨values, hdigits, hlength, rfl⟩ := readNat?_eq_some_iff.1 hm
        exact ⟨[], _, 1, values, rfl, .none, hdigits, hlength, (Int.one_mul _).symm⟩
    obtain ⟨before, after, hbefore, hafter, hs, -⟩ := (stripped_eq_iff (p := isIntegerBlank)).1 htrim
    exact ⟨before, sign, digits, after, factor, values, hs, hbefore, hafter, hsign, hdigits, hlength, hn⟩
  · rintro ⟨before, sign, digits, after, factor, values, rfl, hbefore, hafter, hsign, hdigits, hlength, rfl⟩
    have hends := isBlank_ends hsign hdigits
    have htrim : trimInteger (before ++ (sign ++ digits) ++ after) = sign ++ digits :=
      stripped_eq_iff.2 ⟨before, after, hbefore, hafter, rfl, fun c hc => isIntegerBlank_of_isBlank (hends.1 c hc),
        fun c hc => isIntegerBlank_of_isBlank (hends.2 c hc)⟩
    exact readInteger?_of_trim htrim hsign hdigits hlength

/-! ## The text of an integer -/

theorem digitValue?_of_isDigit (h : c.isDigit = true) : digitValue? c = some (c.toNat - '0'.toNat) := by
  have h : 0x30 ≤ c.toNat ∧ c.toNat ≤ 0x39 := Char.isDigit_iff_toNat.1 h
  have hfirst : (decide (0x30 ≤ c.toNat) && decide (c.toNat < 0x30 + 10)) = true := by
    rw [Bool.and_eq_true, decide_eq_true_iff, decide_eq_true_iff]
    omega
  rw [digitValue?, digitZeros, List.find?_cons, hfirst]
  rfl

theorem spellsDigits_of_isDigit (hne : digits ≠ []) (h : ∀ c ∈ digits, c.isDigit = true) :
    SpellsDigits digits (digits.map fun c => c.toNat - '0'.toNat) := by
  induction digits with
  | nil => exact absurd rfl hne
  | cons c rest ih =>
    have hc := digitValue?_of_isDigit (h c List.mem_cons_self)
    cases rest with
    | nil => exact .last hc
    | cons c' rest => exact .next hc (ih (List.cons_ne_nil c' rest) fun d hd => h d (List.mem_cons_of_mem c hd))

/-- Decimal digits spell the number that they are made from. -/
theorem exists_spellsDigits (n : Nat) : ∃ values, SpellsDigits (Nat.toDigits 10 n) values ∧
    values.length = (Nat.toDigits 10 n).length ∧ ofDigits values = n := by
  refine ⟨_, spellsDigits_of_isDigit Nat.toDigits_ne_nil fun c hc =>
    Nat.isDigit_of_mem_toDigits (by decide) (by decide) hc, List.length_map .., ?_⟩
  rw [ofDigits, List.foldl_map]
  exact Nat.ofDigitChars_ten_toDigits

/-- The text of an integer is a sign or none and digits that spell the integer. -/
theorem exists_parts_integerText (n : Int) : ∃ sign digits factor values, (integerText n).toList = sign ++ digits ∧
    SpellsSign sign factor ∧ SpellsDigits digits values ∧ values.length = (Nat.toDigits 10 n.natAbs).length ∧
      n = factor * ofDigits values := by
  cases n with
  | ofNat n =>
    obtain ⟨values, hdigits, hlength, hvalues⟩ := exists_spellsDigits n
    refine ⟨[], _, 1, values, String.toList_ofList .., .none, hdigits, hlength, ?_⟩
    rw [hvalues, Int.one_mul]
    rfl
  | negSucc n =>
    obtain ⟨values, hdigits, hlength, hvalues⟩ := exists_spellsDigits (n + 1)
    refine ⟨['-'], _, -1, values, String.toList_ofList .., .minus, hdigits, hlength, ?_⟩
    rw [hvalues, Int.neg_one_mul]
    rfl

/-- The text of an integer of 64 bits is read back, with the blanks of texts taken off or not. -/
theorem readInteger?_trim_integerText {n : Int} (h : fitsInt64 n = true) :
    readInteger? (trim (integerText n).toList) = some n := by
  obtain ⟨sign, digits, factor, values, htext, hsign, hdigits, hlength, hn⟩ := exists_parts_integerText n
  have hends := isBlank_ends hsign hdigits
  have htrim : trim (sign ++ digits) = sign ++ digits :=
    stripped_eq_iff.2 ⟨[], [], List.forall_mem_nil _, List.forall_mem_nil _, (List.append_nil _).symm, hends⟩
  have hbound : n.natAbs < 10 ^ maxDigits := by
    rw [fitsInt64, Bool.and_eq_true, decide_eq_true_iff, decide_eq_true_iff, minInt64, maxInt64] at h
    have hsmall : n.natAbs < 10 ^ 19 := by omega
    exact hsmall.trans_le (Nat.pow_le_pow_right (by decide) (by decide))
  rw [htext, htrim, readInteger?_eq_some_iff]
  refine ⟨[], sign, digits, [], factor, values, (List.append_nil _).symm, List.forall_mem_nil _, List.forall_mem_nil _,
    hsign, hdigits, ?_, hn⟩
  rw [hlength]
  exact (Nat.length_toDigits_le_iff (by decide) (by decide)).2 hbound

/-- Integers of one text are one integer. -/
theorem integerText_injective {m n : Int} (h : integerText m = integerText n) : m = n := by
  have hdigits {a b : Nat} (h : Nat.toDigits 10 a = Nat.toDigits 10 b) : a = b := by
    rw [← Nat.ofDigitChars_ten_toDigits (n := a), h, Nat.ofDigitChars_ten_toDigits]
  -- A minus is no digit.
  have hminus (a b : Nat) : Nat.toDigits 10 a ≠ '-' :: Nat.toDigits 10 b := by
    intro h
    have hdigit : ('-').isDigit = true :=
      Nat.isDigit_of_mem_toDigits (by decide) (by decide) (h ▸ List.mem_cons_self : '-' ∈ Nat.toDigits 10 a)
    revert hdigit
    decide
  cases m <;> cases n <;> rw [integerText, integerText, String.ofList_inj] at h
  case ofNat.ofNat a b => rw [hdigits h]
  case ofNat.negSucc a b => exact absurd h (hminus a (b + 1))
  case negSucc.ofNat a b => exact absurd h.symm (hminus b (a + 1))
  case negSucc.negSucc a b => rw [Nat.succ.inj (hdigits (List.cons.inj h).2)]

end Roster.Number
