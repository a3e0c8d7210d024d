import Mathlib.Data.String.Basic
import Roster.Proofs.Values

/-!
The order of rows in lists.

Rows are compared by the columns of an order, one after the other, and by their numbers in the end. Cells of
different types are hard to compare, but in one column the rows of a company hold cells of one type or nothing.
So every two of them stand in a strict order, whatever columns the order is of, and sorting puts them into it.
-/

set_option autoImplicit false

namespace Roster

variable {k : Kind}

namespace Cell

/-- One cell is below another: nothing is below everything else, and values of a type are in their own order. -/
inductive Below : Cell → Cell → Prop
  | null {cell : Cell} (h : cell ≠ .null) : Below .null cell
  | integer {m n : Int} (h : m < n) : Below (.integer m) (.integer n)
  | text {s t : String} (h : s < t) : Below (.text s) (.text t)
  | time {t u : Nat} (h : t < u) : Below (.time t) (.time u)

/-- One cell comes before another, which is the other way round where the order descends. -/
def Before (descending : Bool) (a b : Cell) : Prop :=
  if descending then b.Below a else a.Below b

/-- A cell that a column of a type may hold: nothing, or a value of the type. -/
inductive IsOf : ColumnType → Cell → Prop
  | null (type : ColumnType) : IsOf type .null
  | integer (n : Int) : IsOf .integer (.integer n)
  | text (s : String) : IsOf .text (.text s)
  | time (t : Nat) : IsOf .time (.time t)

theorem Below.trans {a b c : Cell} (hab : a.Below b) (hbc : b.Below c) : a.Below c := by
  cases hab with
  | null hb =>
    refine .null ?_
    rintro rfl
    cases hbc with
    | null h => exact h rfl
  | integer h =>
    cases hbc with
    | integer h' => exact .integer (Int.lt_trans h h')
  | text h =>
    cases hbc with
    | text h' => exact .text (String.lt_trans h h')
  | time h =>
    cases hbc with
    | time h' => exact .time (Nat.lt_trans h h')

theorem Below.irrefl (a : Cell) : ¬a.Below a := by
  intro h
  cases h with
  | null h => exact h rfl
  | integer h => exact Int.lt_irrefl _ h
  | text h => exact String.lt_irrefl _ h
  | time h => exact Nat.lt_irrefl _ h

theorem Before.trans {descending : Bool} {a b c : Cell} (hab : a.Before descending b)
    (hbc : b.Before descending c) : a.Before descending c := by
  cases descending with
  | false => exact Below.trans hab hbc
  | true => exact Below.trans hbc hab

theorem compare_null {b : Cell} (hb : b ≠ .null) : Cell.null.compare b = .lt ∧ b.compare .null = .gt := by
  cases b
  case null => exact absurd rfl hb
  all_goals exact ⟨rfl, rfl⟩

/-- Two cells of one column are equal, or one is below the other; this is how they compare. -/
theorem IsOf.compare_cases {type : ColumnType} {a b : Cell} (ha : a.IsOf type) (hb : b.IsOf type) :
    a.Below b ∧ a.compare b = .lt ∨ a = b ∧ a.compare b = .eq ∨ b.Below a ∧ a.compare b = .gt := by
  by_cases hanull : a = .null
  · subst hanull
    by_cases hbnull : b = .null
    · exact .inr (.inl ⟨hbnull.symm, by rw [hbnull]; rfl⟩)
    · exact .inl ⟨.null hbnull, (compare_null hbnull).1⟩
  by_cases hbnull : b = .null
  · subst hbnull
    exact .inr (.inr ⟨.null hanull, (compare_null hanull).2⟩)
  -- Both cells hold a value of the type of the column.
  cases ha with
  | null => exact absurd rfl hanull
  | integer m =>
    cases hb with
    | null => exact absurd rfl hbnull
    | integer n =>
      rcases lt_trichotomy m n with h | rfl | h
      · exact .inl ⟨.integer h, compare_lt_iff_lt.2 h⟩
      · exact .inr (.inl ⟨rfl, compare_eq_iff_eq.2 rfl⟩)
      · exact .inr (.inr ⟨.integer h, compare_gt_iff_gt.2 h⟩)
  | text s =>
    cases hb with
    | null => exact absurd rfl hbnull
    | text t =>
      rcases lt_trichotomy s t with h | rfl | h
      · exact .inl ⟨.text h, compare_lt_iff_lt.2 h⟩
      · exact .inr (.inl ⟨rfl, compare_eq_iff_eq.2 rfl⟩)
      · exact .inr (.inr ⟨.text h, compare_gt_iff_gt.2 h⟩)
  | time t =>
    cases hb with
    | null => exact absurd rfl hbnull
    | time u =>
      rcases lt_trichotomy t u with h | rfl | h
      · exact .inl ⟨.time h, compare_lt_iff_lt.2 h⟩
      · exact .inr (.inl ⟨rfl, compare_eq_iff_eq.2 rfl⟩)
      · exact .inr (.inr ⟨.time h, compare_gt_iff_gt.2 h⟩)

end Cell

namespace Row

/-- One row precedes another in an order: it comes before the other by the first column of the order in which
they differ, or it has the smaller number if they differ in none. -/
def Precedes : List OrderBy → Row k → Row k → Prop
  | [], a, b => a.id < b.id
  | o :: rest, a, b => ∃ c : Column k, c.name = o.column ∧
      ((a.get c).Before o.descending (b.get c) ∨ a.get c = b.get c ∧ Precedes rest a b)

theorem Precedes.trans {order : List OrderBy} {a b c : Row k} (hab : a.Precedes order b)
    (hbc : b.Precedes order c) : a.Precedes order c := by
  induction order with
  | nil => exact Int.lt_trans hab hbc
  | cons o rest ih =>
    obtain ⟨x, hx, hab⟩ := hab
    obtain ⟨y, hy, hbc⟩ := hbc
    have hxy : x = y := Column.eq_of_name (hx.trans hy.symm)
    subst hxy
    refine ⟨x, hx, ?_⟩
    rcases hab with hab | ⟨eab, hab⟩ <;> rcases hbc with hbc | ⟨ebc, hbc⟩
    · exact .inl (hab.trans hbc)
    · exact .inl (ebc ▸ hab)
    · exact .inl (eab ▸ hbc)
    · exact .inr ⟨eab.trans ebc, ih hab hbc⟩

theorem Precedes.irrefl (order : List OrderBy) (a : Row k) : ¬a.Precedes order a := by
  induction order with
  | nil => exact Int.lt_irrefl a.id
  | cons o rest ih =>
    rintro ⟨c, -, h | ⟨-, h⟩⟩
    · cases hdescending : o.descending <;> rw [hdescending] at h <;> exact Cell.Below.irrefl _ h
    · exact ih h

/-- The columns of a row of a company hold cells of their types. -/
theorem isOf_get {r : Row k} {n : Int} (h : r.company = .integer n) (c : Column k) : (r.get c).IsOf c.type := by
  obtain ⟨id, uuid, company, profile, archived, created, updated⟩ := r
  dsimp only at h
  subst h
  cases c
  case id => exact .integer id
  case uuid => exact .text uuid
  case company => exact .integer n
  case archived =>
    cases archived with
    | none => exact .null _
    | some t => exact .time t
  case created => exact .time created
  case updated => exact .time updated
  case alternateEmail =>
    cases profile with
    | user firstName lastName email alternateEmail =>
      cases alternateEmail with
      | none => exact .null _
      | some s => exact .text s
  case email => cases profile <;> exact .text _
  all_goals
    cases profile
    exact .text _

end Row

namespace Store

/-- Two rows of a company are equal in a column, or one comes before the other; this is how they compare by it. -/
theorem compareBy_cases {a b : Row k} {n : Int} (ha : a.company = .integer n) (hb : b.company = .integer n)
    (c : Column k) (descending : Bool) :
    (a.get c).Before descending (b.get c) ∧ compareBy c descending a b = .lt ∨
      a.get c = b.get c ∧ compareBy c descending a b = .eq ∨
      (b.get c).Before descending (a.get c) ∧ compareBy c descending a b = .gt := by
  have hcells := (Row.isOf_get ha c).compare_cases (Row.isOf_get hb c)
  cases descending with
  | false => exact hcells
  | true =>
    rcases hcells with ⟨h, e⟩ | ⟨h, e⟩ | ⟨h, e⟩
    · exact .inr (.inr ⟨h, congrArg Ordering.swap e⟩)
    · exact .inr (.inl ⟨h, congrArg Ordering.swap e⟩)
    · exact .inl ⟨h, congrArg Ordering.swap e⟩

/-- The columns that an order is of, each with its direction. -/
def orderKeys (k : Kind) (order : List OrderBy) : Except Failure (List (Column k × Bool)) :=
  order.mapM fun o => do return (← column k o.column, o.descending)

/-- An order can be sorted by when it is of columns. -/
theorem exists_orderKeys {order : List OrderBy} (h : ∀ o ∈ order, (Column.ofName? k o.column).isSome = true) :
    ∃ keys, orderKeys k order = .ok keys := by
  induction order with
  | nil => exact ⟨[], rfl⟩
  | cons o rest ih =>
    obtain ⟨keys, hkeys⟩ := ih fun o' ho' => h o' (List.mem_cons_of_mem o ho')
    obtain ⟨c, hc⟩ := Option.isSome_iff_exists.1 (h o List.mem_cons_self)
    rw [orderKeys] at hkeys
    rw [orderKeys, List.mapM_cons, hkeys, column, hc]
    exact ⟨_, rfl⟩

theorem sortKeys_eq {order : List OrderBy} {keys : List (Column k × Bool)} (hkeys : orderKeys k order = .ok keys) :
    sortKeys k order = .ok (keys ++ [(.id, false)]) := by
  rw [orderKeys] at hkeys
  rw [sortKeys, hkeys]
  rfl

/-- Two rows of a company are the same one, or one precedes the other; this is how they compare. -/
theorem compareRows_cases {order : List OrderBy} {keys : List (Column k × Bool)}
    (hkeys : orderKeys k order = .ok keys) {s : Store} {owner : Company} {a b : Row k} (ha : a ∈ s.owned k owner)
    (hb : b ∈ s.owned k owner) :
    a.Precedes order b ∧ compareRows (keys ++ [(.id, false)]) a b = .lt ∨
      a = b ∧ compareRows (keys ++ [(.id, false)]) a b = .eq ∨
      b.Precedes order a ∧ compareRows (keys ++ [(.id, false)]) a b = .gt := by
  obtain ⟨hamem, hacompany⟩ := mem_owned.1 ha
  obtain ⟨hbmem, hbcompany⟩ := mem_owned.1 hb
  induction order generalizing keys with
  | nil =>
    cases hkeys
    have hlast : compareRows [(Column.id, false)] a b = compare a.id b.id := by
      change (compare a.id b.id).then .eq = compare a.id b.id
      cases compare a.id b.id <;> rfl
    change a.id < b.id ∧ compareRows [(Column.id, false)] a b = .lt ∨
      a = b ∧ compareRows [(Column.id, false)] a b = .eq ∨
      b.id < a.id ∧ compareRows [(Column.id, false)] a b = .gt
    rw [hlast]
    rcases lt_trichotomy a.id b.id with h | h | h
    · exact .inl ⟨h, compare_lt_iff_lt.2 h⟩
    · exact .inr (.inl ⟨Table.eq_of_id hamem hbmem h, compare_eq_iff_eq.2 h⟩)
    · exact .inr (.inr ⟨h, compare_gt_iff_gt.2 h⟩)
  | cons o rest ih =>
    rw [orderKeys, List.mapM_cons] at hkeys
    obtain ⟨key, hkey, hkeys⟩ := bind_eq_ok.1 hkeys
    obtain ⟨c, hc, hkey⟩ := bind_eq_ok.1 hkey
    obtain ⟨keys', hrest, hkeys⟩ := bind_eq_ok.1 hkeys
    cases hkey
    cases hkeys
    have hname : c.name = o.column := column_eq_ok.1 hc
    have hcons : compareRows ((c, o.descending) :: keys' ++ [(.id, false)]) a b =
        (compareBy c o.descending a b).then (compareRows (keys' ++ [(.id, false)]) a b) := rfl
    rw [hcons]
    rcases compareBy_cases hacompany hbcompany c o.descending with ⟨h, e⟩ | ⟨h, e⟩ | ⟨h, e⟩
    · exact .inl ⟨⟨c, hname, .inl h⟩, by rw [e]; rfl⟩
    · rw [e]
      rcases ih hrest with ⟨h', e'⟩ | h' | ⟨h', e'⟩
      · exact .inl ⟨⟨c, hname, .inr ⟨h, h'⟩⟩, e'⟩
      · exact .inr (.inl h')
      · exact .inr (.inr ⟨⟨c, hname, .inr ⟨h.symm, h'⟩⟩, e'⟩)
    · exact .inr (.inr ⟨⟨c, hname, .inl h⟩, by rw [e]; rfl⟩)

/-- A row is not put after another when it is the same one or precedes it. -/
theorem compareRows_ne_gt_iff {order : List OrderBy} {keys : List (Column k × Bool)}
    (hkeys : orderKeys k order = .ok keys) {s : Store} {owner : Company} {a b : Row k} (ha : a ∈ s.owned k owner)
    (hb : b ∈ s.owned k owner) :
    (compareRows (keys ++ [(.id, false)]) a b != .gt) = true ↔ a = b ∨ a.Precedes order b := by
  rcases compareRows_cases hkeys ha hb with ⟨h, e⟩ | ⟨h, e⟩ | ⟨h, e⟩
  · rw [e]
    exact ⟨fun _ => .inr h, fun _ => rfl⟩
  · rw [e]
    exact ⟨fun _ => .inl h, fun _ => rfl⟩
  · rw [e]
    constructor
    · intro hgt
      cases hgt
    · rintro (rfl | h')
      · exact absurd h (Row.Precedes.irrefl order a)
      · exact absurd (h.trans h') (Row.Precedes.irrefl order b)

/-- Sorting puts the items of a list in order when it is an order of these items. -/
private theorem pairwise_mergeSort_of_mem {α : Type} {le : α → α → Bool} {xs : List α}
    (htrans : ∀ a ∈ xs, ∀ b ∈ xs, ∀ c ∈ xs, le a b = true → le b c = true → le a c = true)
    (htotal : ∀ a ∈ xs, ∀ b ∈ xs, (le a b || le b a) = true) :
    (xs.mergeSort le).Pairwise fun a b => le a b = true := by
  have hmap : (xs.attach.mergeSort fun a b => le a.1 b.1).map Subtype.val =
      (xs.attach.map Subtype.val).mergeSort le := List.map_mergeSort fun _ _ _ _ => rfl
  rw [List.attach_map_subtype_val] at hmap
  rw [← hmap, List.pairwise_map]
  refine List.pairwise_mergeSort ?_ ?_ xs.attach
  · intro a b c
    exact htrans a.1 a.2 b.1 b.2 c.1 c.2
  · intro a b
    exact htotal a.1 a.2 b.1 b.2

/-- Sorted by an order, every row of a company precedes all that come after it. -/
theorem pairwise_sortRows {order : List OrderBy} {keys : List (Column k × Bool)}
    (hkeys : orderKeys k order = .ok keys) {s : Store} {owner : Company} {rows : List (Row k)}
    (hrows : ∀ r ∈ rows, r ∈ s.owned k owner) (hnodup : rows.Nodup) :
    (sortRows (keys ++ [(.id, false)]) rows).Pairwise (Row.Precedes order) := by
  have hle {a b : Row k} (ha : a ∈ rows) (hb : b ∈ rows) :
      (compareRows (keys ++ [(.id, false)]) a b != .gt) = true ↔ a = b ∨ a.Precedes order b :=
    compareRows_ne_gt_iff hkeys (hrows a ha) (hrows b hb)
  have hsorted : (sortRows (keys ++ [(.id, false)]) rows).Pairwise fun a b =>
      (compareRows (keys ++ [(.id, false)]) a b != .gt) = true := by
    refine pairwise_mergeSort_of_mem ?_ ?_
    · intro a ha b hb c hc hab hbc
      rw [hle ha hb] at hab
      rw [hle hb hc] at hbc
      rw [hle ha hc]
      rcases hab with rfl | hab
      · exact hbc
      · rcases hbc with rfl | hbc
        · exact .inr hab
        · exact .inr (hab.trans hbc)
    · intro a ha b hb
      rw [Bool.or_eq_true, hle ha hb, hle hb ha]
      rcases compareRows_cases hkeys (hrows a ha) (hrows b hb) with ⟨h, -⟩ | ⟨h, -⟩ | ⟨h, -⟩
      · exact .inl (.inr h)
      · exact .inl (.inl h)
      · exact .inr (.inr h)
  have hdistinct : (sortRows (keys ++ [(.id, false)]) rows).Nodup := (List.mergeSort_perm rows _).nodup_iff.2 hnodup
  refine (hsorted.and hdistinct).imp_of_mem ?_
  rintro a b ha hb ⟨hab, hne⟩
  exact ((hle (List.mem_mergeSort.1 ha) (List.mem_mergeSort.1 hb)).1 hab).resolve_left hne

end Store

end Roster
