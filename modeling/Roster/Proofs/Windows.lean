import Roster.Proofs.Numerals
import Roster.Proofs.Pages

/-!
Windows that fit the store.

A page is asked for by two parameters, each an integer or a text that spells one, of any size. Unless one of them is no
integer there is a window: both its ends are numbers that the store can count to, whatever the page sizes of the
configuration, and more is shown if more is asked for.
-/

set_option autoImplicit false

namespace Roster

open Number (Spells maxInt64 fitsInt64 readInteger?_eq_some_iff)

namespace Pager

/-! ## Parameters -/

/-- What may be given for a parameter: nothing, a truth value, an integer or a text. -/
inductive IsParameter : Json → Prop
  | null : IsParameter .null
  | bool (b : Bool) : IsParameter (.bool b)
  | int (n : Int) : IsParameter (.int n)
  | str (s : String) : IsParameter (.str s)
  | torn (codePoints : List Nat) : IsParameter (.torn codePoints)

/-- A parameter asks for an integer, or for none. -/
inductive AsksFor : Json → Option Int → Prop
  | null : AsksFor .null none
  | empty : AsksFor (.str "") none
  | int (n : Int) : AsksFor (.int n) (some n)
  | str {s : String} {n : Int} (hs : Spells s.toList n) : AsksFor (.str s) (some n)

/-- A parameter is no integer: it is a truth value, or a text that is not empty and does not spell one. -/
inductive IsRejected : Json → Prop
  | bool (b : Bool) : IsRejected (.bool b)
  | str {s : String} (hne : s ≠ "") (hs : ∀ n, ¬Spells s.toList n) : IsRejected (.str s)
  | torn (codePoints : List Nat) : IsRejected (.torn codePoints)

/-- How a parameter is refused. -/
def refusal (parameter : String) : Json → Failure
  | .bool _ => .refused (.paginationTruth parameter)
  | value => .refused (.paginationNumber parameter value)

variable {value : Json} {asked : Option Int}

private theorem integer_str (parameter : String) {s : String} (hne : s ≠ "") :
    integer parameter (.str s) = match Number.readInteger? s.toList with
      | some n => .ok (some n)
      | none => .error (refusal parameter (.str s)) := by
  rw [integer.eq_def]
  split
  case h_2 heq => exact absurd (Json.str.inj heq) hne
  case h_6 heq =>
    cases heq
    rfl
  case h_7 hstr => exact absurd rfl (hstr s)
  all_goals
    next heq => cases heq

theorem integer_of_asksFor (parameter : String) (h : AsksFor value asked) : integer parameter value = .ok asked := by
  cases h with
  | null => rfl
  | empty => rfl
  | int n => rfl
  | @str s n hs =>
    have hread := readInteger?_eq_some_iff.2 hs
    have hne : s ≠ "" := by
      rintro rfl
      cases hread
    rw [integer_str parameter hne, hread]

theorem integer_of_isRejected (parameter : String) (h : IsRejected value) :
    integer parameter value = .error (refusal parameter value) := by
  cases h with
  | bool b => rfl
  | torn codePoints => rfl
  | @str s hne hs =>
    have hread : Number.readInteger? s.toList = none :=
      Option.eq_none_iff_forall_ne_some.2 fun n hn => hs n (readInteger?_eq_some_iff.1 hn)
    rw [integer_str parameter hne, hread]

theorem AsksFor.not_isRejected (h : AsksFor value asked) : ¬IsRejected value := by
  intro hrejected
  have hok := integer_of_asksFor "" h
  rw [integer_of_isRejected "" hrejected] at hok
  cases hok

theorem IsParameter.cases_integer (h : IsParameter value) : IsRejected value ∨ ∃ asked, AsksFor value asked := by
  cases h with
  | null => exact .inr ⟨_, .null⟩
  | bool b => exact .inl (.bool b)
  | int n => exact .inr ⟨_, .int n⟩
  | torn codePoints => exact .inl (.torn codePoints)
  | str s =>
    by_cases hs : ∃ n, Spells s.toList n
    · obtain ⟨n, hs⟩ := hs
      exact .inr ⟨_, .str hs⟩
    · by_cases hempty : s = ""
      · subst hempty
        exact .inr ⟨_, .empty⟩
      · exact .inl (.str hempty (not_exists.1 hs))

/-! ## Windows -/

/-- The window for the integers that are asked for. The first item is brought into the range of the store; the number
of items is the least of what is asked for, the greatest page size and what the store can count to. -/
structure IsWindow (defaultCount : Int) (maxCount first size : Option Int) (w : Window) : Prop where
  startIndex : w.startIndex = first.elim 1 fun n => max 1 (min n maxInt64)
  offset : w.offset = w.startIndex - 1
  limit : some w.limit = (maxInt64 :: size.elim defaultCount (max 0) :: maxCount.toList).min?

variable {p : Pager} {first size : Option Int} {w : Window} {start count : Json}

theorem isWindow_clamped (p : Pager) (first size : Option Int) :
    IsWindow p.defaultCount p.maxCount first size ⟨clampStart first, clampStart first - 1, p.clampCount size⟩ where
  startIndex := by
    have hmax : (1 : Int) ≤ maxInt64 := by decide
    cases first with
    | none => rfl
    | some n =>
      change min (max n 1) maxInt64 = max 1 (min n maxInt64)
      omega
  offset := rfl
  limit := by
    obtain ⟨defaultCount, maxCount⟩ := p
    have hleast (n greatest : Int) : min (min n greatest) maxInt64 = min (min maxInt64 n) greatest := by omega
    cases maxCount with
    | none =>
      cases size with
      | none => exact congrArg some (Int.min_comm defaultCount maxInt64)
      | some n =>
        change some (min (max n 0) maxInt64) = some (min maxInt64 (max 0 n))
        rw [Int.min_comm, Int.max_comm]
    | some greatest =>
      cases size with
      | none => exact congrArg some (hleast defaultCount greatest)
      | some n =>
        change some (min (min (max n 0) greatest) maxInt64) = some (min (min maxInt64 (max 0 n)) greatest)
        rw [hleast, Int.max_comm]

theorem window_of_asksFor (hstart : AsksFor start first) (hcount : AsksFor count size) :
    p.window start count = .ok ⟨clampStart first, clampStart first - 1, p.clampCount size⟩ := by
  rw [window, integer_of_asksFor _ hstart, ok_bind, integer_of_asksFor _ hcount, ok_bind]
  rfl

/-- A window belongs to two integers, and to those that are asked for. -/
theorem exists_isWindow (h : p.window start count = .ok w) :
    ∃ first size, integer "startIndex" start = .ok first ∧ integer "count" count = .ok size ∧
      IsWindow p.defaultCount p.maxCount first size w := by
  obtain ⟨first, hfirst, h⟩ := bind_eq_ok.1 h
  obtain ⟨size, hsize, h⟩ := bind_eq_ok.1 h
  cases h
  exact ⟨first, size, hfirst, hsize, isWindow_clamped p first size⟩

namespace IsWindow

variable {defaultCount : Int} {maxCount : Option Int}

theorem limit_le (h : IsWindow defaultCount maxCount first size w) {n : Int}
    (hn : n ∈ maxInt64 :: size.elim defaultCount (max 0) :: maxCount.toList) : w.limit ≤ n :=
  (List.min?_eq_some_iff.1 h.limit.symm).2 n hn

theorem limit_mem (h : IsWindow defaultCount maxCount first size w) :
    w.limit ∈ maxInt64 :: size.elim defaultCount (max 0) :: maxCount.toList :=
  (List.min?_eq_some_iff.1 h.limit.symm).1

/-- The ends of a window are numbers of 64 bits. -/
theorem bounds (h : IsWindow defaultCount maxCount first size w) (hdefault : 0 ≤ defaultCount)
    (hmax : ∀ n ∈ maxCount, 0 ≤ n) : 0 ≤ w.offset ∧ w.offset < maxInt64 ∧ 0 ≤ w.limit ∧ w.limit ≤ maxInt64 := by
  have hmaxInt64 : (1 : Int) ≤ maxInt64 := by decide
  have hstart : 1 ≤ w.startIndex ∧ w.startIndex ≤ maxInt64 := by
    rw [h.startIndex]
    cases first with
    | none => exact ⟨Int.le_refl 1, hmaxInt64⟩
    | some n =>
      rw [Option.elim_some]
      omega
  have hlimit : 0 ≤ w.limit := by
    rcases List.mem_cons.1 h.limit_mem with hlimit | hlimit
    · omega
    rcases List.mem_cons.1 hlimit with hlimit | hlimit
    · rw [hlimit]
      cases size with
      | none => exact hdefault
      | some n => exact Int.le_max_left 0 n
    · exact hmax _ (Option.mem_toList.1 hlimit)
  rw [h.offset]
  exact ⟨by omega, by omega, hlimit, h.limit_le List.mem_cons_self⟩

variable {w' : Window} {first' size' : Option Int} {n n' : Int}

theorem offset_mono (h : IsWindow defaultCount maxCount (some n) size w)
    (h' : IsWindow defaultCount maxCount (some n') size' w') (hle : n ≤ n') :
    w.startIndex ≤ w'.startIndex ∧ w.offset ≤ w'.offset := by
  have hstart := h.startIndex
  have hstart' := h'.startIndex
  rw [Option.elim_some] at hstart hstart'
  rw [h.offset, h'.offset]
  omega

theorem limit_mono (h : IsWindow defaultCount maxCount first (some n) w)
    (h' : IsWindow defaultCount maxCount first' (some n') w') (hle : n ≤ n') : w.limit ≤ w'.limit := by
  rcases List.mem_cons.1 h'.limit_mem with hlimit | hlimit
  · rw [hlimit]
    exact h.limit_le List.mem_cons_self
  rcases List.mem_cons.1 hlimit with hlimit | hlimit
  · have hasked : w.limit ≤ max 0 n := h.limit_le (List.mem_cons_of_mem _ List.mem_cons_self)
    rw [hlimit, Option.elim_some]
    omega
  · exact h.limit_le (List.mem_cons_of_mem _ (List.mem_cons_of_mem _ hlimit))

end IsWindow

/-- Page sizes are taken unless one is negative. -/
theorem make_eq_ok_iff {defaultCount : Int} {maxCount : Option Int} :
    make defaultCount maxCount = .ok p ↔ p = ⟨defaultCount, maxCount⟩ ∧ 0 ≤ defaultCount ∧ ∀ n ∈ maxCount, 0 ≤ n := by
  have hsizes : ¬(defaultCount < 0 || maxCount.any (· < 0)) = true ↔ 0 ≤ defaultCount ∧ ∀ n ∈ maxCount, 0 ≤ n := by
    cases maxCount <;> simp
  rw [make, ← hsizes]
  by_cases hnegative : (defaultCount < 0 || maxCount.any (· < 0)) = true
  · rw [if_pos hnegative]
    constructor
    · intro h
      cases h
    · intro h
      exact absurd hnegative h.2
  · rw [if_neg hnegative]
    constructor
    · intro h
      cases h
      exact ⟨rfl, hnegative⟩
    · intro h
      rw [h.1]

end Pager

/-- Within the range of the store a part of a list is cut from all of it. -/
theorem Store.query_of_fits (s : Store) (k : Kind) (owner : Company) (filter : Option Filter.Expression)
    (order : List OrderBy) {offset limit : Int} (hoffset : fitsInt64 offset = true) (hlimit : fitsInt64 limit = true) :
    s.query k owner filter order offset (some limit) =
      (s.query k owner filter order 0 none).map fun page => ⟨slice offset (some limit) page.items, page.total⟩ := by
  rw [query_eq, query_eq, hoffset, Option.all_some, hlimit]
  cases s.selected k owner filter with
  | error e => rfl
  | ok found =>
    cases sortKeys k order with
    | error e => rfl
    | ok keys =>
      dsimp only [Except.bind]
      split <;> rfl

/-- Unless one of two parameters is no integer, and then the first such is refused, there is a window: the one for the
integers that they ask for. Whatever is asked for, the store can count to both ends of the window, and gives the part
of a list that lies in it; and who asks for a greater number never gets an earlier part or a shorter one. -/
theorem Pager.window_fits_store {defaultCount : Int} {maxCount : Option Int} {p : Pager}
    (hp : make defaultCount maxCount = .ok p) :
    (∀ start count : Json, IsParameter start → IsParameter count →
      (IsRejected start ∧ p.window start count = .error (refusal "startIndex" start)) ∨
      (¬IsRejected start ∧ IsRejected count ∧ p.window start count = .error (refusal "count" count)) ∨
      (¬IsRejected start ∧ ¬IsRejected count ∧ ∃ first size w, AsksFor start first ∧ AsksFor count size ∧
        p.window start count = .ok w ∧ IsWindow defaultCount maxCount first size w)) ∧
    (∀ (start count : Json) (w : Window), p.window start count = .ok w →
      0 ≤ w.offset ∧ w.offset < maxInt64 ∧ 0 ≤ w.limit ∧ w.limit ≤ maxInt64 ∧
        ∀ (s : Store) (k : Kind) (owner : Company) (filter : Option Filter.Expression) (order : List OrderBy),
          s.query k owner filter order w.offset (some w.limit) = (s.query k owner filter order 0 none).map fun page =>
            ⟨Store.slice w.offset (some w.limit) page.items, page.total⟩) ∧
    ∀ (start count start' count' : Json) (w w' : Window), p.window start count = .ok w →
      p.window start' count' = .ok w' → ∀ n n' : Int, n ≤ n' →
        (AsksFor start (some n) → AsksFor start' (some n') → w.startIndex ≤ w'.startIndex ∧ w.offset ≤ w'.offset) ∧
        (AsksFor count (some n) → AsksFor count' (some n') → w.limit ≤ w'.limit) := by
  obtain ⟨rfl, hdefault, hmax⟩ := make_eq_ok_iff.1 hp
  refine ⟨fun start count hstart hcount => ?_, fun start count w hw => ?_, ?_⟩
  · rcases hstart.cases_integer with hrejected | ⟨first, hfirst⟩
    · refine .inl ⟨hrejected, ?_⟩
      rw [window, integer_of_isRejected _ hrejected]
      rfl
    rcases hcount.cases_integer with hrejected | ⟨size, hsize⟩
    · refine .inr (.inl ⟨hfirst.not_isRejected, hrejected, ?_⟩)
      rw [window, integer_of_asksFor _ hfirst, ok_bind, integer_of_isRejected _ hrejected]
      rfl
    · exact .inr (.inr ⟨hfirst.not_isRejected, hsize.not_isRejected, first, size, _, hfirst, hsize,
        window_of_asksFor hfirst hsize, isWindow_clamped ⟨defaultCount, maxCount⟩ first size⟩)
  · obtain ⟨first, size, -, -, hwindow⟩ := exists_isWindow hw
    obtain ⟨hoffset, hoffset', hlimit, hlimit'⟩ := hwindow.bounds hdefault hmax
    exact ⟨hoffset, hoffset', hlimit, hlimit', fun s k owner filter order =>
      s.query_of_fits k owner filter order (fitsInt64_of_le hoffset (Int.le_of_lt hoffset'))
        (fitsInt64_of_le hlimit hlimit')⟩
  · intro start count start' count' w w' hw hw' n n' hle
    obtain ⟨first, size, hfirst, hsize, hwindow⟩ := exists_isWindow hw
    obtain ⟨first', size', hfirst', hsize', hwindow'⟩ := exists_isWindow hw'
    constructor
    · intro hstart hstart'
      cases hfirst.symm.trans (integer_of_asksFor _ hstart)
      cases hfirst'.symm.trans (integer_of_asksFor _ hstart')
      exact hwindow.offset_mono hwindow' hle
    · intro hcount hcount'
      cases hsize.symm.trans (integer_of_asksFor _ hcount)
      cases hsize'.symm.trans (integer_of_asksFor _ hcount')
      exact hwindow.limit_mono hwindow' hle

/-- A page may be of more items than the store can count to. -/
def Pager.huge : Pager := ⟨1000000000000000000000, none⟩

/-- A page size beyond 64 bits is taken, and a start beyond them is spelled with underscores. -/
theorem Pager.window_fits_store_huge :
    make huge.defaultCount huge.maxCount = .ok huge ∧
      ∃ w, huge.window (.str " +1_000_000_000_000_000_000_000 ") .null = .ok w ∧
        w.offset < maxInt64 ∧ w.limit ≤ maxInt64 := by
  have hp : make huge.defaultCount huge.maxCount = .ok huge := by decide
  obtain ⟨w, hw⟩ : ∃ w, huge.window (.str " +1_000_000_000_000_000_000_000 ") .null = .ok w := ⟨_, rfl⟩
  obtain ⟨-, hoffset, -, hlimit, -⟩ := (window_fits_store hp).2.1 _ _ w hw
  exact ⟨hp, w, hw, hoffset, hlimit⟩

end Roster
