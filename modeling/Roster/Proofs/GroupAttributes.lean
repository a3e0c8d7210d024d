import Roster.Proofs.Patching

/-!
Whether attributes of a group can be replaced.

The columns for attributes of groups take texts, and a value that says the same as its column is a text, so
whether values can be written depends on the values alone and not on the group.
-/

set_option autoImplicit false

namespace Roster

open Store

/-- What becomes of a group is decided by the cells that its values become: none of them may be empty. -/
def columnsVerdict (given : Except Fault (List (Column .group × Cell))) : Except Failure Unit :=
  match given with
  | .error fault => .error (.fault fault)
  | .ok given => if given.any fun p => p.2 == .null then .error (.fault .store) else .ok ()

/-- The attributes can be written to a group. -/
def storable (attributes : Schema.Values) : Except Failure Unit := do
  columnsVerdict (cells (← columns .group attributes))

/-- What is given for the two attributes of groups. -/
private def given {α : Type} (displayName email : Option α) : List (Column .group × α) :=
  (displayName.map fun v => (Column.displayName, v)).toList ++ (email.map fun v => (Column.email, v)).toList

private theorem exists_columns (document : Json) :
    ∃ a b, columns .group ((Schema.writable .group).extractPresent document) = .ok (given a b) := by
  have hnames : (Schema.writable .group).fields.eraseDups = ["display_name", "email"] := by decide +kernel
  have hdisplayName : column .group "display_name" = .ok .displayName := by
    rw [column, show "display_name" = (Column.displayName).name from rfl, Column.ofName?_name]
  have hemail : column .group "email" = .ok (.email : Column .group) := by
    rw [column, show "email" = (Column.email : Column .group).name from rfl, Column.ofName?_name]
  let found := (Schema.writable .group).collect (some document) []
  refine ⟨found.lookup "display_name", found.lookup "email", ?_⟩
  rw [Schema.extractPresent, hnames]
  change columns .group (["display_name", "email"].filterMap fun name =>
    (found.lookup name).map fun v => (name, v)) = _
  cases h₁ : found.lookup "display_name" <;> cases h₂ : found.lookup "email" <;>
    simp only [List.filterMap_cons, List.filterMap_nil, h₁, h₂, Option.map_some, Option.map_none, columns,
      List.mapM_cons, List.mapM_nil, hdisplayName, hemail, ok_bind] <;> rfl

/-- The cell that a value becomes, if there is one. -/
private def fit : Option Json → Except Fault (Option Cell)
  | none => .ok none
  | some v => (Cell.ofJson .text v).map some

private theorem cells_given (a b : Option Json) :
    cells (given a b) = (fit a).bind fun x => (fit b).bind fun y => .ok (given x y) := by
  have htimed : (given a b).any (fun p => isMistimed p.1 p.2) = false := by
    cases a <;> cases b <;> rfl
  have hcolumns : (Column.all .group).filterMap (fun c => ((given a b).lookup c).map fun v => (c, v)) =
      given a b := by
    cases a <;> cases b <;> rfl
  have hdisplayName : (Column.displayName).type = .text := rfl
  have hemail : (Column.email : Column .group).type = .text := rfl
  rw [cells, htimed, if_neg Bool.false_ne_true, hcolumns]
  cases a with
  | none =>
    cases b with
    | none => rfl
    | some w =>
      change [(Column.email, w)].mapM _ = (fit (some w)).bind fun y => .ok (given none y)
      simp only [List.mapM_cons, List.mapM_nil, hemail, fit]
      generalize Cell.ofJson .text w = y
      cases y <;> rfl
  | some v =>
    cases b with
    | none =>
      change [(Column.displayName, v)].mapM _ = (fit (some v)).bind fun x => .ok (given x none)
      simp only [List.mapM_cons, List.mapM_nil, hdisplayName, fit]
      generalize Cell.ofJson .text v = x
      cases x <;> rfl
    | some w =>
      change [(Column.displayName, v), (Column.email, w)].mapM _ = _
      simp only [List.mapM_cons, List.mapM_nil, hdisplayName, hemail, fit]
      generalize Cell.ofJson .text v = x
      generalize Cell.ofJson .text w = y
      cases x <;> cases y <;> rfl

private theorem filter_given {α : Type} (p : Column .group × α → Bool) (a b : Option α) :
    (given a b).filter p = given (a.filter fun v => p (.displayName, v)) (b.filter fun v => p (.email, v)) := by
  cases a with
  | none =>
    cases b with
    | none => rfl
    | some w => cases h : p (.email, w) <;> simp [given, h, Option.filter]
  | some v =>
    cases b with
    | none => cases h : p (.displayName, v) <;> simp [given, h, Option.filter]
    | some w => cases h : p (.displayName, v) <;> cases h' : p (.email, w) <;> simp [given, h, h', Option.filter]

/-- What is given for a column that holds a text, with what says the same as the text left out. -/
private theorem fit_filter_unchanged {r : Row .group} {column : Column .group} {text : String}
    (hcell : r.get column = .text text) (a : Option Json) :
    a.filter (fun v => !unchanged r column v) = a ∨
      (a.filter (fun v => !unchanged r column v) = none ∧ fit a = .ok (some (.text text))) := by
  cases a with
  | none => exact .inl rfl
  | some v =>
    have hunchanged : unchanged r column v = Json.same v (.str text) := by
      rw [unchanged, hcell]
      rfl
    rw [Option.filter_some, hunchanged]
    cases h : Json.same v (.str text) with
    | false => exact .inl rfl
    | true =>
      rw [eq_str_of_same h]
      exact .inr ⟨rfl, rfl⟩

/-- What stays as it is decides nothing. -/
private theorem verdict_filter_unchanged (r : Row .group) (a b : Option Json) :
    columnsVerdict (cells ((given a b).filter fun p => !unchanged r p.1 p.2)) = columnsVerdict (cells (given a b)) := by
  have htexts : ∃ name address, r.get .displayName = .text name ∧ r.get .email = .text address := by
    obtain ⟨_, _, _, profile, _, _, _⟩ := r
    cases profile with
    | group name address => exact ⟨name, address, rfl, rfl⟩
  obtain ⟨name, address, hdisplayName, hemail⟩ := htexts
  rw [filter_given, cells_given, cells_given]
  rcases fit_filter_unchanged hdisplayName a with ha | ⟨ha, hfit⟩ <;>
    rcases fit_filter_unchanged hemail b with hb | ⟨hb, hfit'⟩
  · rw [ha, hb]
  · rw [ha, hb, hfit']
    cases fit a with
    | error e => rfl
    | ok x => cases x <;> rfl
  · rw [ha, hb, hfit]
    cases fit b with
    | error e => rfl
    | ok y => cases y <;> rfl
  · rw [ha, hb, hfit, hfit']
    rfl

private theorem ofJson_text_cases {v : Json} {cell : Cell} (h : Cell.ofJson .text v = .ok cell) :
    cell = .null ∨ ∃ text, cell = .text text := by
  cases v with
  | null =>
    cases h
    exact .inl rfl
  | bool b =>
    cases h
    exact .inr ⟨_, rfl⟩
  | int n =>
    rw [Cell.ofJson] at h
    split at h
    · cases h
      exact .inr ⟨_, rfl⟩
    · cases h
  | double x =>
    rw [Cell.ofJson] at h
    cases hx : x.storedText? with
    | none =>
      rw [hx] at h
      cases h
      exact .inl rfl
    | some text =>
      rw [hx] at h
      cases h
      exact .inr ⟨text, rfl⟩
  | str s =>
    cases h
    exact .inr ⟨s, rfl⟩
  | torn points => cases h
  | arr items => cases h
  | obj fields => cases h

private theorem fit_cases {a : Option Json} {x : Option Cell} (h : fit a = .ok x) :
    x = none ∨ x = some .null ∨ ∃ text, x = some (.text text) := by
  cases a with
  | none =>
    cases h
    exact .inl rfl
  | some v =>
    obtain ⟨cell, hcell, rfl⟩ := map_eq_ok.1 h
    rcases ofJson_text_cases hcell with rfl | ⟨text, rfl⟩
    · exact .inr (.inl rfl)
    · exact .inr (.inr ⟨text, rfl⟩)

/-- A group can be given another name and address unless one of them is to be empty. -/
private theorem isSome_revised_given (r : Row .group) (hcompany : r.company ≠ .null) {a b : Option Json}
    {x y : Option Cell} (hx : fit a = .ok x) (hy : fit b = .ok y) (clock : Nat) :
    (revised r (given x y ++ [(.updated, .time clock)])).isSome = !(given x y).any fun p => p.2 == .null := by
  have hcompany' : ((given x y ++ [(Column.updated, Cell.time clock)]).lookup Column.company).getD
      (r.get .company) ≠ .null := by
    cases x <;> cases y <;> exact hcompany
  rw [revised, Row.make]
  dsimp only
  rw [if_neg hcompany']
  obtain ⟨_, _, _, profile, archived, _, _⟩ := r
  cases profile
  rcases fit_cases hx with rfl | rfl | ⟨text, rfl⟩ <;> rcases fit_cases hy with rfl | rfl | ⟨text', rfl⟩ <;>
    cases archived <;> rfl

/-- The cells of a name and an address are put into a group unless one of them is empty. -/
private theorem revised_given_cases {s : Store} {r : Row .group} (hr : r ∈ (s.table .group).rows)
    (hcompany : r.company ≠ .null) {a b : Option Json} {x y : Option Cell} (hx : fit a = .ok x)
    (hy : fit b = .ok y) (clock : Nat) :
    (revised r (given x y ++ [(.updated, .time clock)]) = none ∧
      columnsVerdict (.ok (given x y)) = .error (.fault .store)) ∨
    ∃ new s', revised r (given x y ++ [(.updated, .time clock)]) = some new ∧ s.put r new = .ok s' ∧
      columnsVerdict (.ok (given x y)) = .ok () := by
  have hsome := isSome_revised_given r hcompany hx hy clock
  rw [columnsVerdict]
  cases hnew : revised r (given x y ++ [(.updated, .time clock)]) with
  | none =>
    rw [hnew, Option.isSome_none, eq_comm, Bool.not_eq_false'] at hsome
    exact .inl ⟨rfl, if_pos hsome⟩
  | some new =>
    rw [hnew, Option.isSome_some, eq_comm, Bool.not_eq_true'] at hsome
    have hprofile : ∀ p ∈ given x y, p.1.isProfile = true := by
      cases x <;> cases y <;> simp [given, Column.isProfile]
    obtain ⟨profile, rfl⟩ := eq_of_revised hprofile hnew
    have hput : ∃ t : Table .group, s.put r { r with profile, updated := clock } =
        .ok (s.withTable .group t) ∧ _ := exists_put hr rfl rfl
    obtain ⟨t, hput, -⟩ := hput
    refine .inr ⟨_, _, rfl, hput, if_neg ?_⟩
    rw [hsome]
    exact Bool.false_ne_true

/-- Whether attributes can be written to a group does not depend on the group. -/
theorem update_verdict {s : Store} {owner : Company} {r : Row .group} (hr : r ∈ s.owned .group owner)
    (clock : Nat) (document : Json) :
    (s.update clock r ((Schema.writable .group).extractPresent document)).map (fun _ => ()) =
      storable ((Schema.writable .group).extractPresent document) := by
  obtain ⟨a, b, hcolumns⟩ := exists_columns document
  obtain ⟨hmem, hcompany⟩ := mem_owned.1 hr
  have hnull : r.company ≠ .null := by
    rw [hcompany]
    exact Cell.noConfusion
  rw [storable, update, hcolumns, ok_bind, ok_bind, ← verdict_filter_unchanged r a b]
  dsimp only
  split
  next hempty =>
    rw [List.isEmpty_iff.1 hempty]
    rfl
  next =>
    rw [filter_given]
    generalize a.filter _ = a'
    generalize b.filter _ = b'
    rw [cells_given]
    cases hx : fit a' with
    | error e => rfl
    | ok x =>
      cases hy : fit b' with
      | error e => rfl
      | ok y =>
        have hcells : ((Except.ok x : Except Fault (Option Cell)).bind fun x =>
            (Except.ok y : Except Fault (Option Cell)).bind fun y => .ok (given x y)) = .ok (given x y) := rfl
        rw [hcells]
        dsimp only
        rcases revised_given_cases hmem hnull hx hy clock with ⟨hnew, hverdict⟩ | ⟨new, s', hnew, hput, hverdict⟩
        · rw [hnew, hverdict]
          rfl
        · rw [hnew, hverdict]
          dsimp only
          rw [hput]
          rfl

end Roster
