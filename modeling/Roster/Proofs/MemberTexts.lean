import Roster.Proofs.Numerals
import Roster.Proofs.Reasons
import Roster.Proofs.RowOrder
import Roster.Proofs.Sample

/-!
Members by the texts of a column.

The column that identifies members holds texts or integers. Identifiers are brought to its type to look for users in
the store, and those who are found are then told apart by their texts. Whoever has the text of an identifier is found
although it is looked for as a value of the type; so users are named exactly by their texts, and an identifier that is
only read as the value of a user names nobody.
-/

set_option autoImplicit false

namespace Roster

open Number (integerText integerText_injective fitsInt64 readInteger?_trim_integerText)

/-- A column tells the users of a company apart: it holds a text, or an integer of the 64 bits that the store keeps, for
each of them, and no two hold the same. -/
structure Store.Identifies (s : Store) (owner : Company) (c : Column .user) : Prop where
  type : c.type = .text ∨ c.type = .integer
  filled : ∀ u ∈ s.owned .user owner, u.get c ≠ .null
  fits : ∀ u ∈ s.owned .user owner, ∀ n, u.get c = .integer n → fitsInt64 n = true
  unique : ∀ u ∈ s.owned .user owner, ∀ v ∈ s.owned .user owner, u.get c = v.get c → u = v

/-- The text of a user in a column. -/
def Row.textIn (c : Column .user) (u : Row .user) : String := (u.get c).display

/-- The values that come of identifiers can be looked for in a column: one statement takes them all, and none is a torn
text for a column of texts, or an integer beyond 64 bits for a column of integers. -/
structure Column.CanLookFor (c : Column .user) (identifiers : List Json) : Prop where
  few : (identifiers.filterMap (coerce c.type)).length < Store.maxVariables
  plain : c.type = .text → ∀ j ∈ identifiers, j.isTorn = false
  fits : c.type = .integer → ∀ j ∈ identifiers, ∀ n, coerce .integer j = some (.int n) → fitsInt64 n = true

/-! ## Texts and values -/

theorem coerce_integer (j : Json) : coerce .integer j = (match j with
    | .int n => some (.int n)
    | j => (Number.readInteger? (Text.trim j.text.toList)).map .int) := by
  cases j <;> rfl

namespace Store.Identifies

variable {s : Store} {owner : Company} {c : Column .user} (h : s.Identifies owner c) {u v : Row .user}

include h

theorem cell_cases (hu : u ∈ s.owned .user owner) :
    (c.type = .text ∧ ∃ t, u.get c = .text t) ∨
      c.type = .integer ∧ ∃ n, u.get c = .integer n ∧ fitsInt64 n = true := by
  have hcell := Row.isOf_get (mem_owned.1 hu).2 c
  have hfilled := h.filled u hu
  rcases h.type with htype | htype
  all_goals
    rw [htype] at hcell
    cases hget : u.get c <;> rw [hget] at hcell hfilled
    case null => exact absurd rfl hfilled
  case inl.text t => exact .inl ⟨htype, t, rfl⟩
  case inr.integer n => exact .inr ⟨htype, n, rfl, h.fits u hu n hget⟩
  all_goals cases hcell

/-- The values of two users are both texts or both integers. -/
theorem cells_cases (hu : u ∈ s.owned .user owner) (hv : v ∈ s.owned .user owner) :
    (∃ t t', u.get c = .text t ∧ v.get c = .text t') ∨ ∃ n m, u.get c = .integer n ∧ v.get c = .integer m := by
  rcases h.cell_cases hu with ⟨htype, t, ht⟩ | ⟨htype, n, hn, -⟩ <;>
    rcases h.cell_cases hv with ⟨htype', t', ht'⟩ | ⟨htype', m, hm, -⟩
  case inl.inl => exact .inl ⟨t, t', ht, ht'⟩
  case inr.inr => exact .inr ⟨n, m, hn, hm⟩
  all_goals
    rw [htype] at htype'
    cases htype'

/-- No two users of the company have one text. -/
theorem textIn_inj (hu : u ∈ s.owned .user owner) (hv : v ∈ s.owned .user owner) (htext : u.textIn c = v.textIn c) :
    u = v := by
  refine h.unique u hu v hv ?_
  rw [Row.textIn, Row.textIn] at htext
  obtain ⟨t, t', ht, ht'⟩ | ⟨n, m, hn, hm⟩ := h.cells_cases hu hv
  · rw [ht, ht'] at htext ⊢
    exact congrArg Cell.text htext
  · rw [hn, hm] at htext ⊢
    exact congrArg Cell.integer (integerText_injective htext)

/-- No two users of the company have one value. -/
theorem json_inj (hu : u ∈ s.owned .user owner) (hv : v ∈ s.owned .user owner)
    (hjson : (u.get c).json = (v.get c).json) : u = v := by
  refine h.unique u hu v hv ?_
  obtain ⟨t, t', ht, ht'⟩ | ⟨n, m, hn, hm⟩ := h.cells_cases hu hv
  · rw [ht, ht'] at hjson ⊢
    exact congrArg Cell.text (Json.str.inj hjson)
  · rw [hn, hm] at hjson ⊢
    exact congrArg Cell.integer (Json.int.inj hjson)

/-- An identifier that is the text of a user comes to the value of the user. -/
theorem coerce_of_textIn (hu : u ∈ s.owned .user owner) {j : Json} (hplain : c.type = .text → j.isTorn = false)
    (htext : u.textIn c = j.text) : coerce c.type j = some (u.get c).json := by
  rw [Row.textIn] at htext
  rcases h.cell_cases hu with ⟨htype, t, ht⟩ | ⟨htype, n, hn, hfits⟩
  · rw [ht] at htext ⊢
    rw [htype, coerce_text (hplain htype), ← htext]
    rfl
  · rw [hn] at htext ⊢
    have hread : Number.readInteger? (Text.trim j.text.toList) = some n := by
      rw [← htext]
      exact readInteger?_trim_integerText hfits
    rw [htype, coerce_integer]
    cases j
    case int m => rw [integerText_injective htext]; rfl
    all_goals
      dsimp only
      rw [hread]
      rfl

/-- A value that is only read as that of a user is the text of nobody. -/
theorem textIn_ne (hu : u ∈ s.owned .user owner) (hv : v ∈ s.owned .user owner) {j : Json}
    (hplain : c.type = .text → j.isTorn = false) (hvalue : coerce c.type j = some (u.get c).json)
    (htext : u.textIn c ≠ j.text) : v.textIn c ≠ j.text := by
  intro hsame
  have hother : coerce c.type j = some (v.get c).json := h.coerce_of_textIn hv hplain hsame
  have huv : u = v := h.json_inj hu hv (Option.some.inj (hvalue.symm.trans hother))
  rw [huv] at htext
  exact htext hsame

end Store.Identifies

/-! ## Users who are looked for -/

/-- What a value is compared with. -/
private def comparand : Json → Cell
  | .int n => .integer n
  | .str s => .text s
  | _ => .null

private theorem test_coerced {c : Column .user} (htype : c.type = .text ∨ c.type = .integer) {j value : Json}
    (hplain : c.type = .text → j.isTorn = false)
    (hfits : c.type = .integer → ∀ n, coerce .integer j = some (.int n) → fitsInt64 n = true)
    (hvalue : coerce c.type j = some value) :
    Store.test c.type .eq value = .ok fun cell => Store.compares cell (comparand value) (Store.accepted .eq) := by
  rcases htype with htype | htype
  · rw [htype, coerce_text (hplain htype)] at hvalue
    cases hvalue
    rw [htype]
    rfl
  · rw [htype] at hvalue
    obtain ⟨n, rfl⟩ : ∃ n, value = .int n := by
      rw [coerce_integer] at hvalue
      split at hvalue
      · exact ⟨_, (Option.some.inj hvalue).symm⟩
      · obtain ⟨n, -, hn⟩ := Option.map_eq_some_iff.1 hvalue
        exact ⟨n, hn.symm⟩
    have hoperand : Store.operand .integer (.int n) = .ok (.integer n) := if_pos (hfits htype n hvalue)
    have hpattern : Store.pattern? .eq (Json.int n).text.toList = none := rfl
    rw [htype, Store.test, hpattern]
    dsimp only
    rw [hoperand]
    rfl

private theorem ne_time {type : ColumnType} (htype : type = .text ∨ type = .integer) : type ≠ .time := by
  rcases htype with rfl | rfl <;> decide

private theorem listedTests_coerced {c : Column .user} (htype : c.type = .text ∨ c.type = .integer)
    {identifiers : List Json} (hcan : c.CanLookFor identifiers) :
    Store.listedTests c.type (identifiers.filterMap (coerce c.type)) =
      .ok ((identifiers.filterMap (coerce c.type)).map fun value cell =>
        Store.compares cell (comparand value) (Store.accepted .eq)) := by
  rw [listedTests_eq_of_few (ne_time htype) hcan.few, ← mapM_ok]
  refine mapM_congr fun value hvalue => ?_
  obtain ⟨j, hj, hvalue⟩ := List.mem_filterMap.1 hvalue
  exact test_coerced htype (fun h => hcan.plain h j hj) (fun h => hcan.fits h j hj) hvalue

private theorem compares_self {cell : Cell} (hcell : (∃ t, cell = .text t) ∨ ∃ n, cell = .integer n) :
    Store.compares cell (comparand cell.json) (Store.accepted .eq) = true := by
  rcases hcell with ⟨t, rfl⟩ | ⟨n, rfl⟩
  · exact (compares_text t t).trans (beq_self_eq_true t)
  · have hself : compare n n = .eq := Std.ReflCmp.compare_self
    change (compare n n == .eq) = true
    rw [hself]
    rfl

namespace Store.Identifies

variable {s : Store} {owner : Company} {c : Column .user} (h : s.Identifies owner c) {identifiers : List Json}

include h

/-- Whoever has a value that an identifier comes to is among those who are found. -/
theorem exists_findMany (hcan : c.CanLookFor identifiers) :
    ∃ found, s.findMany .user owner c.name identifiers = .ok found ∧ (∀ u ∈ found, u ∈ s.owned .user owner) ∧
      ∀ u ∈ s.owned .user owner, (∃ j ∈ identifiers, coerce c.type j = some (u.get c).json) → u ∈ found := by
  refine ⟨(s.owned .user owner).filter fun u => ((identifiers.filterMap (coerce c.type)).map fun value cell =>
    compares cell (comparand value) (accepted .eq)).any fun holds => holds (u.get c), ?_, ?_, ?_⟩
  · rw [findMany, column_eq_ok.2 rfl, ok_bind, listedTests_coerced h.type hcan, ok_bind]
    rfl
  · intro u hu
    exact (List.mem_filter.1 hu).1
  · rintro u hu ⟨j, hj, hvalue⟩
    have hself : compares (u.get c) (comparand (u.get c).json) (accepted .eq) = true := by
      obtain ⟨-, t, ht⟩ | ⟨-, n, hn, -⟩ := h.cell_cases hu
      · exact compares_self (.inl ⟨t, ht⟩)
      · exact compares_self (.inr ⟨n, hn⟩)
    refine List.mem_filter.2 ⟨hu, ?_⟩
    rw [List.any_map, List.any_eq_true]
    exact ⟨_, List.mem_filterMap.2 ⟨j, hj, hvalue⟩, hself⟩

/-- Looking for users by identifiers is looking at each user of the company for the text of each identifier. -/
theorem resolve_eq {config : Config} (hname : c.name = config.memberField) (hcan : c.CanLookFor identifiers) :
    s.resolve config owner identifiers = identifiers.mapM (namedBy (Row.textIn c) (s.owned .user owner)) := by
  obtain ⟨found, hfound, howned, hmem⟩ := h.exists_findMany hcan
  have hkey (u : Row .user) : memberKey config u = .ok (u.textIn c) := by
    have hactive : c.name ≠ "active" := by cases c <;> decide
    rw [memberKey, Row.fieldText?, ← hname, if_neg hactive, Column.ofName?_name]
    rfl
  rw [hname] at hfound
  refine resolve_eq_of_found hkey (fun u hu v hv => h.textIn_inj hu hv) hfound howned fun j hj u hu htext => ?_
  exact hmem u hu ⟨j, hj, h.coerce_of_textIn hu (fun htype => hcan.plain htype j hj) htext⟩

end Store.Identifies

/-! ## What identifiers name -/

/-- An identifier means a user of a company: the one user who has its text. -/
structure Store.IsMeant (s : Store) (owner : Company) (c : Column .user) (identifier : Json) (u : Row .user) : Prop where
  owned : u ∈ s.owned .user owner
  text : u.textIn c = identifier.text
  only : ∀ v ∈ s.owned .user owner, v.textIn c = identifier.text → v = u

/-- The first of the identifiers that has the text of no user. -/
def Store.meansNobody? (s : Store) (owner : Company) (c : Column .user) (identifiers : List Json) : Option Json :=
  identifiers.find? fun j => !(s.owned .user owner).any fun u => u.textIn c == j.text

section Named

variable {s : Store} {config : Config} {owner : Company} {c : Column .user} (hname : c.name = config.memberField)
  (h : s.Identifies owner c) {identifiers : List Json} (hcan : c.CanLookFor identifiers)

include hname h hcan

/-- Each identifier stands for the user it means, or the first that means nobody is refused. -/
theorem resolve_cases :
    match s.meansNobody? owner c identifiers with
    | some j => s.resolve config owner identifiers = .error (.refused (.notFound j))
    | none => ∃ users, s.resolve config owner identifiers = .ok users ∧
        List.Forall₂ (s.IsMeant owner c) identifiers users := by
  have hcases := mapM_namedBy_cases (Row.textIn c) (s.owned .user owner) identifiers
  rw [h.resolve_eq hname hcan, Store.meansNobody?]
  cases hfirst : identifiers.find? fun j => !(s.owned .user owner).any fun u => u.textIn c == j.text with
  | some j =>
    rw [hfirst] at hcases
    exact hcases
  | none =>
    rw [hfirst] at hcases
    obtain ⟨users, husers⟩ := hcases
    refine ⟨users, husers, (mapM_eq_ok.1 husers).imp fun j u hnamed => ?_⟩
    obtain ⟨hu, htext⟩ := mem_of_namedBy hnamed
    exact ⟨hu, htext, fun v hv hsame => h.textIn_inj hv hu (hsame.trans htext.symm)⟩

/-- Where an identifier has the text of nobody, some identifier is refused. -/
theorem resolve_of_nobody {j : Json} (hj : j ∈ identifiers)
    (hnobody : ∀ u ∈ s.owned .user owner, u.textIn c ≠ j.text) :
    ∃ i ∈ identifiers, s.resolve config owner identifiers = .error (.refused (.notFound i)) := by
  have hcases := resolve_cases hname h hcan
  cases hfirst : s.meansNobody? owner c identifiers with
  | some i =>
    rw [hfirst] at hcases
    exact ⟨i, List.mem_of_find?_eq_some hfirst, hcases⟩
  | none =>
    have hsome := List.find?_eq_none.1 hfirst j hj
    rw [Bool.not_eq_true', Bool.not_eq_false, List.any_eq_true] at hsome
    obtain ⟨u, hu, hsame⟩ := hsome
    exact absurd (beq_iff_eq.1 hsame) (hnobody u hu)

end Named

/-- Members are named by their texts in the column that identifies them. More values than one statement takes are a
fault, and so is a torn text where this is a column of texts. Otherwise each identifier stands for the user who has its
text, in the order of the identifiers, or the first that has the text of nobody is refused. Whoever has the text of an
identifier is among those who are looked for by its value; and a value that is read as that of a user but does not have
its text is refused. -/
theorem resolves_by_text {s : Store} {config : Config} {owner : Company} {c : Column .user}
    (hname : c.name = config.memberField) (h : s.Identifies owner c) (identifiers : List Json)
    (hfits : c.type = .integer → ∀ j ∈ identifiers, ∀ n, coerce .integer j = some (.int n) → fitsInt64 n = true) :
    (Store.maxVariables ≤ (identifiers.filterMap (coerce c.type)).length →
        s.resolve config owner identifiers = .error (.fault .store)) ∧
      ((identifiers.filterMap (coerce c.type)).length < Store.maxVariables → c.type = .text →
        (∃ j ∈ identifiers, j.isTorn = true) → s.resolve config owner identifiers = .error (.fault .value)) ∧
      ((identifiers.filterMap (coerce c.type)).length < Store.maxVariables →
        (c.type = .text → ∀ j ∈ identifiers, j.isTorn = false) →
        (match s.meansNobody? owner c identifiers with
          | some j => s.resolve config owner identifiers = .error (.refused (.notFound j))
          | none => ∃ users, s.resolve config owner identifiers = .ok users ∧
              List.Forall₂ (s.IsMeant owner c) identifiers users) ∧
        (∃ found, s.findMany .user owner config.memberField identifiers = .ok found ∧
          ∀ u ∈ s.owned .user owner, (∃ j ∈ identifiers, u.textIn c = j.text) → u ∈ found) ∧
        ∀ j ∈ identifiers, ∀ u ∈ s.owned .user owner,
          coerce c.type j = some (u.get c).json → u.textIn c ≠ j.text →
            (∀ v ∈ s.owned .user owner, v.textIn c ≠ j.text) ∧
              ∃ i ∈ identifiers, s.resolve config owner identifiers = .error (.refused (.notFound i))) := by
  refine ⟨Store.resolve_of_many hname (ne_time h.type) s owner, fun hfew htype htorn => ?_, fun hfew hplain => ?_⟩
  · rw [htype, length_coerce_text] at hfew
    exact Store.resolve_torn_of_text hname htype s owner hfew htorn
  have hcan : c.CanLookFor identifiers := ⟨hfew, hplain, hfits⟩
  have hplain' (j : Json) (hj : j ∈ identifiers) : c.type = .text → j.isTorn = false := fun htype => hplain htype j hj
  refine ⟨resolve_cases hname h hcan, ?_, fun j hj u hu hvalue htext => ?_⟩
  · obtain ⟨found, hfound, -, hmem⟩ := h.exists_findMany hcan
    rw [← hname]
    refine ⟨found, hfound, ?_⟩
    rintro u hu ⟨j, hj, htext⟩
    exact hmem u hu ⟨j, hj, h.coerce_of_textIn hu (hplain' j hj) htext⟩
  · have hnobody : ∀ v ∈ s.owned .user owner, v.textIn c ≠ j.text :=
      fun v hv => h.textIn_ne hu hv (hplain' j hj) hvalue htext
    exact ⟨hnobody, resolve_of_nobody hname h hcan hj hnobody⟩

namespace Sample

/-- The configuration where users are members by their numbers. -/
def byNumber : Config := { config true with memberSchema := .object [("value", .field "id")] }

theorem identifies_id : store.Identifies acme .id where
  type := .inr rfl
  filled := by decide
  fits := by
    intro u hu n hn
    have howned : u = ada ∨ u = bob := by simpa using (show u ∈ [ada, bob] from hu)
    rcases howned with rfl | rfl <;> cases hn <;> decide
  unique := by decide

theorem fits_numbers {identifiers : List Json} (h : identifiers ⊆ [.int 2, .str "1", .str " 2 "]) :
    (Column.id : Column .user).type = .integer → ∀ j ∈ identifiers, ∀ n, coerce .integer j = some (.int n) →
      fitsInt64 n = true := by
  intro _ j hj n hn
  have hvalue : coerce .integer j = some (.int 2) ∨ coerce .integer j = some (.int 1) := by
    have hlisted := h hj
    rw [List.mem_cons, List.mem_cons, List.mem_singleton] at hlisted
    rcases hlisted with rfl | rfl | rfl <;> decide
  rcases hvalue with hvalue | hvalue <;>
  · rw [hvalue] at hn
    cases hn
    decide

theorem identifies_uuid : store.Identifies acme .uuid where
  type := .inl rfl
  filled := by decide
  fits := by
    intro u _ n hn
    cases hn
  unique := by decide

end Sample

/-- The number 2 and the text 1 name users; the text that is read as 2 but is not written so does not. -/
theorem resolves_by_text_sample :
    (∃ users, Sample.store.resolve Sample.byNumber Sample.acme [.int 2, .str "1"] = .ok users ∧
        List.Forall₂ (Sample.store.IsMeant Sample.acme .id) [.int 2, .str "1"] users) ∧
      Sample.store.resolve Sample.byNumber Sample.acme [.str "1", .str " 2 "] =
        .error (.refused (.notFound (.str " 2 "))) ∧
      coerce .integer (.str " 2 ") = some (.int 2) := by
  have hname : (Column.id : Column .user).name = Sample.byNumber.memberField := by decide
  have hnamed := resolves_by_text hname Sample.identifies_id [.int 2, .str "1"] (Sample.fits_numbers (by decide))
  have hrefused := resolves_by_text hname Sample.identifies_id [.str "1", .str " 2 "]
    (Sample.fits_numbers (by decide))
  exact ⟨(hnamed.2.2 (by decide) nofun).1, (hrefused.2.2 (by decide) nofun).1, by decide⟩

/-- That every list with an identifier of nobody is answered by refusing the first fails for a text that is torn. -/
theorem not_resolves_by_text :
    Sample.store.Identifies Sample.acme .uuid ∧
      ¬∀ (identifiers : List Json) (j : Json), Sample.store.meansNobody? Sample.acme .uuid identifiers = some j →
        Sample.store.resolve (Sample.config true) Sample.acme identifiers = .error (.refused (.notFound j)) := by
  refine ⟨Sample.identifies_uuid, fun h => ?_⟩
  have hrefused := h [.str "nobody", .torn [0xD800]] (.str "nobody") (by decide)
  have hfault : Sample.store.resolve (Sample.config true) Sample.acme [.str "nobody", .torn [0xD800]] =
      .error (.fault .value) := by decide
  rw [hfault] at hrefused
  cases hrefused

end Roster
