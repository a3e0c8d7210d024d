import Roster.Service.Attributes
import Roster.Service.Membership
import Roster.Proofs.Configuration
import Roster.Proofs.Rows

/-!
Rows by their public identifiers.

A resource and the members of a group are looked for by the text of what a client gives. A torn text is the
text of no identifier, and the store cannot look for it.
-/

set_option autoImplicit false

namespace Roster

variable {k : Kind}

/-- The value is a text that is no sequence of characters. -/
def Json.isTorn : Json → Bool
  | .torn _ => true
  | _ => false

theorem torn_or_plain (identifiers : List Json) :
    (∃ j ∈ identifiers, j.isTorn = true) ∨ ∀ j ∈ identifiers, j.isTorn = false := by
  by_cases htorn : ∃ j ∈ identifiers, j.isTorn = true
  · exact .inl htorn
  · refine .inr fun j hj => ?_
    exact Bool.eq_false_iff.2 fun e => htorn ⟨j, hj, e⟩

/-- The row among some whose key is the text of an identifier. -/
def namedBy (key : Row k → String) (rows : List (Row k)) (identifier : Json) : Except Failure (Row k) :=
  match rows.find? fun r => key r == identifier.text with
  | some r => .ok r
  | none => .error (.refused (.notFound identifier))

theorem mem_of_namedBy {key : Row k → String} {rows : List (Row k)} {identifier : Json} {r : Row k}
    (h : namedBy key rows identifier = .ok r) : r ∈ rows ∧ key r = identifier.text := by
  rw [namedBy] at h
  split at h
  next r' hr =>
    cases h
    exact ⟨List.mem_of_find?_eq_some hr, by simpa using List.find?_some hr⟩
  next => cases h

theorem namedBy_eq_error {key : Row k → String} {rows : List (Row k)} {identifier : Json}
    (h : ∀ r ∈ rows, key r ≠ identifier.text) :
    namedBy key rows identifier = .error (.refused (.notFound identifier)) := by
  have hnone : rows.find? (fun r => key r == identifier.text) = none := by
    refine List.find?_eq_none.2 fun r hr => ?_
    rw [beq_iff_eq]
    exact h r hr
  rw [namedBy, hnone]

/-- Where no two rows have one key, an identifier names whoever has its text. -/
theorem namedBy_eq_ok {key : Row k → String} {rows : List (Row k)} {identifier : Json} {r : Row k}
    (hunique : ∀ v ∈ rows, ∀ w ∈ rows, key v = key w → v = w) (hr : r ∈ rows) (hkey : key r = identifier.text) :
    namedBy key rows identifier = .ok r := by
  cases h : namedBy key rows identifier with
  | ok v =>
    obtain ⟨hv, htext⟩ := mem_of_namedBy h
    rw [hunique v hv r hr (htext.trans hkey.symm)]
  | error e =>
    rw [namedBy] at h
    split at h
    next => cases h
    next hnone =>
      have hmiss := List.find?_eq_none.1 hnone r hr
      rw [hkey, beq_self_eq_true] at hmiss
      exact absurd rfl hmiss

/-- The row among some that an identifier names. -/
def named (rows : List (Row k)) (identifier : Json) : Except Failure (Row k) :=
  match rows.find? fun r => r.uuid == identifier.text with
  | some r => .ok r
  | none => .error (.refused (.notFound identifier))

theorem named_eq_namedBy (rows : List (Row k)) : named rows = namedBy Row.uuid rows := rfl

theorem mem_of_named {rows : List (Row k)} {identifier : Json} {r : Row k}
    (h : named rows identifier = .ok r) : r ∈ rows ∧ r.uuid = identifier.text := by
  rw [named_eq_namedBy] at h
  exact mem_of_namedBy h

theorem named_eq_error {rows : List (Row k)} {identifier : Json}
    (h : ∀ r ∈ rows, r.uuid ≠ identifier.text) :
    named rows identifier = .error (.refused (.notFound identifier)) := by
  rw [named_eq_namedBy, namedBy_eq_error h]

/-- Among rows of one table an identifier names at most one. -/
theorem named_eq_ok {t : Table k} {rows : List (Row k)} (hrows : ∀ r ∈ rows, r ∈ t.rows)
    {identifier : Json} {r : Row k} :
    named rows identifier = .ok r ↔ r ∈ rows ∧ r.uuid = identifier.text := by
  constructor
  · exact mem_of_named
  · rintro ⟨hr, huuid⟩
    have hunique : ∀ v ∈ rows, ∀ w ∈ rows, v.uuid = w.uuid → v = w :=
      fun v hv w hw => Table.eq_of_uuid (hrows v hv) (hrows w hw)
    rw [named_eq_namedBy, namedBy_eq_ok hunique hr huuid]

theorem map_uuid_of_mapM_named {rows : List (Row k)} {identifiers : List Json} {found : List (Row k)}
    (h : identifiers.mapM (named rows) = .ok found) : found.map Row.uuid = identifiers.map Json.text := by
  have hfound := mapM_eq_ok.1 h
  clear h
  induction hfound with
  | nil => rfl
  | cons hnamed _ ih => rw [List.map_cons, List.map_cons, ih, (mem_of_named hnamed).2]

/-- What keeps the identifiers of rows keeps which rows are named. -/
theorem named_map (f : Row k → Row k) (hf : ∀ r, (f r).uuid = r.uuid) (rows : List (Row k)) (identifier : Json) :
    named (rows.map f) identifier = (named rows identifier).map f := by
  have hsame : (fun r : Row k => r.uuid == identifier.text) ∘ f = fun r => r.uuid == identifier.text := by
    funext r
    rw [Function.comp_apply, hf]
  rw [named, named, List.find?_map, hsame]
  cases rows.find? fun r => r.uuid == identifier.text <;> rfl

theorem mapM_named_map (f : Row k → Row k) (hf : ∀ r, (f r).uuid = r.uuid) (rows : List (Row k))
    (identifiers : List Json) :
    identifiers.mapM (named (rows.map f)) = (identifiers.mapM (named rows)).map (List.map f) := by
  induction identifiers with
  | nil => rfl
  | cons identifier rest ih =>
    rw [List.mapM_cons, List.mapM_cons, named_map f hf, ih]
    cases named rows identifier with
    | error e => rfl
    | ok r => cases rest.mapM (named rows) <;> rfl

/-! ## Comparing with the column of identifiers -/

/-- Columns have different names. -/
theorem Column.eq_of_name {c c' : Column k} (h : c.name = c'.name) : c = c' := by
  have hc := ofName?_name c
  rw [h, ofName?_name] at hc
  exact (Option.some.inj hc).symm

theorem Store.column_eq_ok {name : String} {c : Column k} : Store.column k name = .ok c ↔ c.name = name := by
  rw [Store.column]
  constructor
  · intro h
    split at h
    next c' hc' =>
      cases h
      exact Column.name_of_ofName? hc'
    next => cases h
  · rintro rfl
    rw [Column.ofName?_name]

theorem column_uuid (k : Kind) : Store.column k "uuid" = .ok .uuid :=
  Store.column_eq_ok.2 rfl

theorem coerce_text {j : Json} (h : j.isTorn = false) : coerce .text j = some (.str j.text) := by
  cases j
  case torn points => cases h
  all_goals rfl

theorem coerce_torn {j : Json} (h : j.isTorn = true) : coerce .text j = some j := by
  cases j
  case torn points => rfl
  all_goals cases h

private theorem test_str (text : String) :
    Store.test (Column.uuid : Column k).type .eq (.str text) =
      .ok fun cell => Store.compares cell (.text text) (Store.accepted .eq) :=
  rfl

private theorem test_torn {j : Json} (h : j.isTorn = true) : Store.test .text .eq j = .error (.fault .value) := by
  cases j
  case torn points => rfl
  all_goals cases h

theorem compares_text (a b : String) :
    Store.compares (.text a) (.text b) (Store.accepted .eq) = (a == b) := by
  have hleft : (Cell.text a != .null) = true := rfl
  have hright : (Cell.text b != .null) = true := rfl
  have horder : Store.accepted .eq ((Cell.text a).compare (.text b)) = (compare a b == .eq) := rfl
  rw [Store.compares, hleft, hright, horder, Bool.true_and, Bool.true_and]
  by_cases h : a = b
  · rw [h, beq_self_eq_true, Std.LawfulEqOrd.compare_eq_iff_eq.2 rfl]
    rfl
  · rw [beq_eq_false_iff_ne.2 h, beq_eq_false_iff_ne, ne_eq, Std.LawfulEqOrd.compare_eq_iff_eq]
    exact h

private theorem compares_uuid (r : Row k) (text : String) :
    Store.compares (r.get .uuid) (.text text) (Store.accepted .eq) = (r.uuid == text) :=
  compares_text r.uuid text

/-! ## Resources -/

section Resources

variable {c : Config} (h : c.IsStandard) (s : Store) (owner : Company)

include h

theorem Store.get_eq {identifier : Json} (hplain : identifier.isTorn = false) :
    s.get c k owner identifier = named (s.owned k owner) identifier := by
  have hfind : s.findBy k owner (c.resource k).lookupField identifier false =
      .ok ((s.owned k owner).find? fun r => r.uuid == identifier.text) := by
    have hcoerce : coerce (Column.uuid : Column k).type identifier = some (.str identifier.text) :=
      coerce_text hplain
    rw [findBy, h.lookupField, column_uuid, ok_bind, hcoerce]
    dsimp only
    rw [lookupTest, if_neg Bool.false_ne_true, test_str, ok_bind]
    simp only [compares_uuid]
    rfl
  rw [get, hfind, ok_bind, named]
  cases (s.owned k owner).find? fun r => r.uuid == identifier.text <;> rfl

theorem Store.get_torn {identifier : Json} (htorn : identifier.isTorn = true) :
    s.get c k owner identifier = .error (.fault .value) := by
  have hcoerce : coerce (Column.uuid : Column k).type identifier = some identifier := coerce_torn htorn
  have htest : lookupTest (Column.uuid : Column k).type false identifier = .error (.fault .value) := by
    cases identifier
    case torn points => rfl
    all_goals cases htorn
  rw [get, findBy, h.lookupField, column_uuid, ok_bind, hcoerce]
  dsimp only
  rw [htest]
  rfl

/-- A resource that is found is found again by its identifier wherever it is still stored. -/
theorem Store.get_eq_ok {identifier : Json} {r : Row k} :
    s.get c k owner identifier = .ok r ↔
      identifier.isTorn = false ∧ r ∈ s.owned k owner ∧ r.uuid = identifier.text := by
  have hrows : ∀ r ∈ s.owned k owner, r ∈ (s.table k).rows := fun _ => mem_rows_of_owned
  cases hj : identifier.isTorn with
  | true =>
    rw [Store.get_torn h s owner hj]
    constructor
    · intro hget
      cases hget
    · rintro ⟨hplain, -⟩
      cases hplain
  | false =>
    rw [Store.get_eq h s owner hj, named_eq_ok hrows]
    exact ⟨fun hr => ⟨rfl, hr⟩, fun hr => hr.2⟩

theorem Store.mem_owned_of_get {s : Store} {owner : Company} {identifier : Json} {r : Row k}
    (hr : s.get c k owner identifier = .ok r) : r ∈ s.owned k owner :=
  ((s.get_eq_ok h owner).1 hr).2.1

omit h in
theorem Store.mem_owned_of_findBy {s : Store} {owner : Company} {name : String} {value : Json}
    {ignoreCase : Bool} {r : Row k} (hr : s.findBy k owner name value ignoreCase = .ok (some r)) :
    r ∈ s.owned k owner := by
  rw [findBy] at hr
  obtain ⟨column, -, hr⟩ := bind_eq_ok.1 hr
  split at hr
  · cases hr
  · obtain ⟨holds, -, hr⟩ := bind_eq_ok.1 hr
    exact List.mem_of_find?_eq_some (Except.ok.inj hr)

end Resources

/-! ## Pages -/

/-- A query selects the rows of a company and reads its order; then the order has to be short enough for one statement,
and the ends of the page have to be numbers that the store counts to. -/
theorem Store.query_eq (s : Store) (k : Kind) (owner : Company) (filter : Option Filter.Expression)
    (order : List OrderBy) (offset : Int) (limit : Option Int) :
    s.query k owner filter order offset limit =
      (s.selected k owner filter).bind fun found => (sortKeys k order).bind fun keys =>
        if maxCriteria < criteria order then .error (.fault .store)
        else if Number.fitsInt64 offset && limit.all Number.fitsInt64 then
          .ok ⟨slice offset limit (sortRows keys found), found.length⟩
        else .error (.fault .overflow) := by
  rw [query]
  cases s.selected k owner filter with
  | error e => rfl
  | ok found =>
    cases sortKeys k order with
    | error e => rfl
    | ok keys =>
      rw [ok_bind, ok_bind]
      dsimp only [Except.bind]
      split
      · rfl
      · cases Number.fitsInt64 offset with
        | false => rfl
        | true => cases limit.all Number.fitsInt64 <;> rfl

/-! ## Users named as members -/

theorem keyed_eq {c : Config} {key : Row .user → String} (hkey : ∀ u, memberKey c u = .ok (key u))
    (users : List (Row .user)) : keyed c users = .ok (users.map fun u => (key u, u)) := by
  have hpair (u : Row .user) : (do return (← memberKey c u, u) : Except Failure (String × Row .user)) =
      .ok (key u, u) := by
    rw [hkey]
    rfl
  rw [keyed, funext hpair]
  exact mapM_ok _ users

/-- Where no two users have one key it does not matter which of them is found first. -/
theorem matchKeys_eq {key : Row .user → String} {users : List (Row .user)}
    (hunique : ∀ u ∈ users, ∀ v ∈ users, key u = key v → u = v) (identifiers : List Json) :
    matchKeys (users.map fun u => (key u, u)) identifiers = identifiers.mapM (namedBy key users) := by
  have hlookup (text : String) :
      (users.map fun u => (key u, u)).reverse.lookup text = users.find? fun u => key u == text := by
    cases hl : (users.map fun u => (key u, u)).reverse.lookup text with
    | none =>
      have hnone := List.lookup_eq_none_iff.1 hl
      refine (List.find?_eq_none.2 fun u hu => ?_).symm
      have hne := hnone (key u, u) (List.mem_reverse.2 (List.mem_map_of_mem hu))
      rw [beq_iff_eq]
      exact fun e => bne_iff_ne.1 hne e.symm
    | some u =>
      obtain ⟨u', hu', e⟩ := List.mem_map.1 (List.mem_reverse.1 (mem_of_lookup hl))
      cases e
      cases hf : users.find? fun v => key v == key u with
      | none =>
        have := List.find?_eq_none.1 hf u hu'
        rw [beq_self_eq_true] at this
        exact absurd rfl this
      | some v =>
        have hkey : key v = key u := by simpa using List.find?_some hf
        rw [hunique v (List.mem_of_find?_eq_some hf) u hu' hkey]
  unfold matchKeys
  congr 1
  funext identifier
  rw [hlookup, namedBy]
  cases users.find? fun u => key u == identifier.text <;> rfl

private theorem memberKey_eq {c : Config} (h : c.IsStandard) (u : Row .user) : memberKey c u = .ok u.uuid := by
  rw [memberKey, h.memberField]
  rfl

theorem Store.mem_of_mem_membersOf {s : Store} {group : Row .group} {u : Row .user}
    (hu : u ∈ s.membersOf group) : u ∈ s.users.rows := by
  obtain ⟨m, -, hm⟩ := List.mem_filterMap.1 hu
  exact (Table.find?_eq_some_iff.1 hm).1

/-- What is looked for in a column of other things than times is bound by one statement. -/
theorem listedTests_eq_of_few {type : ColumnType} (htype : type ≠ .time) {values : List Json}
    (hfew : values.length < Store.maxVariables) :
    Store.listedTests type values = values.mapM (Store.test type .eq) := by
  rw [Store.listedTests, if_neg htype, Store.boundTests, if_pos hfew]

/-- More values than one statement takes cannot be looked for. -/
theorem Store.findMany_of_many {column : Column k} (htype : column.type ≠ .time) (s : Store) (owner : Company)
    {identifiers : List Json} (hmany : maxVariables ≤ (identifiers.filterMap (coerce column.type)).length) :
    s.findMany k owner column.name identifiers = .error (.fault .store) := by
  rw [findMany, column_eq_ok.2 rfl, ok_bind, listedTests, if_neg htype, boundTests, if_neg (Nat.not_lt.2 hmany)]
  rfl

/-- Every identifier gives a text. -/
theorem length_coerce_text (identifiers : List Json) :
    (identifiers.filterMap (coerce .text)).length = identifiers.length := by
  induction identifiers with
  | nil => rfl
  | cons j rest ih =>
    cases hj : j.isTorn with
    | true => rw [List.filterMap_cons_some (coerce_torn hj), List.length_cons, List.length_cons, ih]
    | false => rw [List.filterMap_cons_some (coerce_text hj), List.length_cons, List.length_cons, ih]

private theorem listedTests_plain {identifiers : List Json} (hplain : ∀ j ∈ identifiers, j.isTorn = false)
    (hfew : identifiers.length < Store.maxVariables) :
    Store.listedTests (Column.uuid : Column k).type
        (identifiers.filterMap (coerce (Column.uuid : Column k).type)) =
      .ok (identifiers.map fun j cell => Store.compares cell (.text j.text) (Store.accepted .eq)) := by
  have htype : (Column.uuid : Column k).type ≠ .time := by nofun
  have hlength : (identifiers.filterMap (coerce (Column.uuid : Column k).type)).length = identifiers.length :=
    length_coerce_text identifiers
  rw [listedTests_eq_of_few htype (hlength ▸ hfew)]
  clear hfew hlength
  induction identifiers with
  | nil => rfl
  | cons j rest ih =>
    have hcoerce : coerce (Column.uuid : Column k).type j = some (.str j.text) :=
      coerce_text (hplain j List.mem_cons_self)
    have hrest := ih fun i hi => hplain i (List.mem_cons_of_mem j hi)
    rw [List.filterMap_cons_some hcoerce, List.mapM_cons, test_str, ok_bind, hrest]
    rfl

/-- A torn text cannot be looked for in a column of texts. -/
theorem Store.findMany_torn {column : Column k} (htype : column.type = .text) (s : Store) (owner : Company)
    {identifiers : List Json} (hfew : identifiers.length < maxVariables) (htorn : ∃ j ∈ identifiers, j.isTorn = true) :
    s.findMany k owner column.name identifiers = .error (.fault .value) := by
  have htests : (identifiers.filterMap (coerce .text)).mapM (Store.test .text .eq) = .error (.fault .value) := by
    clear hfew
    induction identifiers with
    | nil =>
      obtain ⟨j, hj, -⟩ := htorn
      cases hj
    | cons j rest ih =>
      cases hj : j.isTorn with
      | true =>
        rw [List.filterMap_cons_some (coerce_torn hj), List.mapM_cons, test_torn hj]
        rfl
      | false =>
        have hrest : ∃ i ∈ rest, i.isTorn = true := by
          obtain ⟨i, hi, htorn⟩ := htorn
          rcases List.mem_cons.1 hi with rfl | hi
          · rw [hj] at htorn
            cases htorn
          · exact ⟨i, hi, htorn⟩
        have hstr : Store.test .text .eq (.str j.text) = .ok _ := test_str (k := .user) j.text
        rw [List.filterMap_cons_some (coerce_text hj), List.mapM_cons, hstr, ok_bind, ih hrest]
        rfl
  rw [← length_coerce_text] at hfew
  rw [findMany, column_eq_ok.2 rfl, ok_bind, htype, listedTests_eq_of_few (by decide) hfew, htests]
  rfl

/-- Where a column of texts identifies members, a torn text among the identifiers is a fault. -/
theorem Store.resolve_torn_of_text {c : Config} {column : Column .user} (hname : column.name = c.memberField)
    (htype : column.type = .text) (s : Store) (owner : Company) {identifiers : List Json}
    (hfew : identifiers.length < maxVariables) (htorn : ∃ j ∈ identifiers, j.isTorn = true) :
    s.resolve c owner identifiers = .error (.fault .value) := by
  have hne : identifiers.isEmpty = false := by
    obtain ⟨j, hj, -⟩ := htorn
    cases identifiers with
    | nil => cases hj
    | cons => rfl
  rw [resolve, hne, if_neg Bool.false_ne_true, ← hname, findMany_torn htype s owner hfew htorn]
  rfl

/-- Where more values have to be looked for than one statement takes, nobody is found. -/
theorem Store.resolve_of_many {c : Config} {column : Column .user} (hname : column.name = c.memberField)
    (htype : column.type ≠ .time) (s : Store) (owner : Company) {identifiers : List Json}
    (hmany : maxVariables ≤ (identifiers.filterMap (coerce column.type)).length) :
    s.resolve c owner identifiers = .error (.fault .store) := by
  have hne : identifiers.isEmpty = false := by
    cases identifiers with
    | nil => cases hmany
    | cons => rfl
  rw [resolve, hne, if_neg Bool.false_ne_true, ← hname, findMany_of_many htype s owner hmany]
  rfl

/-- Identifiers name users by a key where whoever has the text of one has been found: it makes no difference then that
they are told apart among those who have been found only. -/
theorem Store.resolve_eq_of_found {c : Config} {s : Store} {owner : Company} {key : Row .user → String}
    (hkey : ∀ u, memberKey c u = .ok (key u))
    (hunique : ∀ u ∈ s.owned .user owner, ∀ v ∈ s.owned .user owner, key u = key v → u = v) {identifiers : List Json}
    {found : List (Row .user)} (hfound : s.findMany .user owner c.memberField identifiers = .ok found)
    (howned : ∀ u ∈ found, u ∈ s.owned .user owner)
    (hmem : ∀ j ∈ identifiers, ∀ u ∈ s.owned .user owner, key u = j.text → u ∈ found) :
    s.resolve c owner identifiers = identifiers.mapM (namedBy key (s.owned .user owner)) := by
  have hunique' : ∀ u ∈ found, ∀ v ∈ found, key u = key v → u = v :=
    fun u hu v hv => hunique u (howned u hu) v (howned v hv)
  have hnamed (j : Json) (hj : j ∈ identifiers) : namedBy key found j = namedBy key (s.owned .user owner) j := by
    by_cases hsome : ∃ u ∈ s.owned .user owner, key u = j.text
    · obtain ⟨u, hu, htext⟩ := hsome
      rw [namedBy_eq_ok hunique' (hmem j hj u hu htext) htext, namedBy_eq_ok hunique hu htext]
    · rw [namedBy_eq_error fun u hu htext => hsome ⟨u, howned u hu, htext⟩,
        namedBy_eq_error fun u hu htext => hsome ⟨u, hu, htext⟩]
  rw [resolve]
  split
  next hempty =>
    rw [List.isEmpty_iff.1 hempty]
    rfl
  next =>
    rw [hfound, ok_bind, keyed_eq hkey, ok_bind, matchKeys_eq hunique']
    exact mapM_congr hnamed

section Members

variable {c : Config} (h : c.IsStandard) (s : Store) (owner : Company)

include h

theorem Store.resolve_eq {identifiers : List Json} (hfew : identifiers.length < maxVariables)
    (hplain : ∀ j ∈ identifiers, j.isTorn = false) :
    s.resolve c owner identifiers = identifiers.mapM (named (s.owned .user owner)) := by
  have hmany : s.findMany .user owner c.memberField identifiers =
      .ok ((s.owned .user owner).filter fun u => identifiers.any fun j => u.uuid == j.text) := by
    rw [findMany, h.memberField, column_uuid, ok_bind, listedTests_plain hplain hfew, ok_bind]
    simp only [List.any_map, Function.comp_def, compares_uuid]
    rfl
  have hunique : ∀ u ∈ s.owned .user owner, ∀ v ∈ s.owned .user owner, u.uuid = v.uuid → u = v :=
    fun u hu v hv => Table.eq_of_uuid (mem_rows_of_owned hu) (mem_rows_of_owned hv)
  refine resolve_eq_of_found (memberKey_eq h) hunique hmany (fun u hu => (List.mem_filter.1 hu).1) ?_
  intro j hj u hu huuid
  exact List.mem_filter.2 ⟨hu, List.any_eq_true.2 ⟨j, hj, beq_iff_eq.2 huuid⟩⟩

theorem Store.resolve_torn {identifiers : List Json} (hfew : identifiers.length < maxVariables)
    (htorn : ∃ j ∈ identifiers, j.isTorn = true) : s.resolve c owner identifiers = .error (.fault .value) := by
  have hname : (Column.uuid : Column .user).name = c.memberField := h.memberField.symm
  exact resolve_torn_of_text hname rfl s owner hfew htorn

theorem Store.resolve_many {identifiers : List Json} (hmany : maxVariables ≤ identifiers.length) :
    s.resolve c owner identifiers = .error (.fault .store) := by
  have hname : (Column.uuid : Column .user).name = c.memberField := h.memberField.symm
  refine resolve_of_many hname (by decide) s owner ?_
  exact Nat.le_trans hmany (Nat.le_of_eq (length_coerce_text identifiers).symm)

/-- What becomes of identifiers: there are too many of them, one is torn, or they name users one by one. -/
theorem Store.resolve_cases (identifiers : List Json) :
    (maxVariables ≤ identifiers.length ∧ s.resolve c owner identifiers = .error (.fault .store)) ∨
      (identifiers.length < maxVariables ∧ (∃ j ∈ identifiers, j.isTorn = true) ∧
        s.resolve c owner identifiers = .error (.fault .value)) ∨
      (identifiers.length < maxVariables ∧ (∀ j ∈ identifiers, j.isTorn = false) ∧
        s.resolve c owner identifiers = identifiers.mapM (named (s.owned .user owner))) := by
  rcases Nat.lt_or_ge identifiers.length maxVariables with hfew | hmany
  · rcases torn_or_plain identifiers with htorn | hplain
    · exact .inr (.inl ⟨hfew, htorn, s.resolve_torn h owner hfew htorn⟩)
    · exact .inr (.inr ⟨hfew, hplain, s.resolve_eq h owner hfew hplain⟩)
  · exact .inl ⟨hmany, s.resolve_many h owner hmany⟩

/-- Users that are named one by one. -/
theorem Store.mapM_of_resolve {identifiers : List Json} {users : List (Row .user)}
    (husers : s.resolve c owner identifiers = .ok users) :
    identifiers.mapM (named (s.owned .user owner)) = .ok users := by
  obtain ⟨-, e⟩ | ⟨-, -, e⟩ | ⟨-, -, e⟩ := s.resolve_cases h owner identifiers
  · rw [husers] at e
    cases e
  · rw [husers] at e
    cases e
  · rw [← e, husers]

theorem Store.mem_owned_of_resolve {identifiers : List Json} {users : List (Row .user)}
    (husers : s.resolve c owner identifiers = .ok users) : ∀ u ∈ users, u ∈ s.owned .user owner := by
  intro u hu
  obtain ⟨j, -, hnamed⟩ := exists_of_mem_mapM (s.mapM_of_resolve h owner husers) hu
  exact (mem_of_named hnamed).1

theorem Store.resolveMembers_eq (group : Row .group) (identifiers : List Json) :
    s.resolveMembers c group identifiers = identifiers.mapM (named (s.membersOf group)) := by
  have hunique : ∀ u ∈ s.membersOf group, ∀ v ∈ s.membersOf group, u.uuid = v.uuid → u = v :=
    fun u hu v hv => Table.eq_of_uuid (mem_of_mem_membersOf hu) (mem_of_mem_membersOf hv)
  rw [resolveMembers, keyed_eq (memberKey_eq h), ok_bind, matchKeys_eq hunique, named_eq_namedBy]

end Members

end Roster
