import Roster.Proofs.ConfigurationErrors
import Roster.Proofs.PatchSequence
import Roster.Proofs.Replacement
import Roster.Proofs.SchemaPaths

/-!
Replacing by a text.

An operation that replaces by a text gives it to the attribute that its path leads to, or to the status; a path that
leads nowhere changes nothing. Two kinds of paths are not foreseen: a path that there is no room to follow, or to word
a refusal for, and one that goes on beyond an attribute, which gives the attribute an object in place of a text. What
else can be wrong is a reason to refuse.
-/

set_option autoImplicit false

namespace Roster

open Step

variable {k : Kind} {s : Store} {owner : Company} {r : Row k}

/-! ## Reasons to refuse -/

namespace Store

/-- What may be wrong about a value that is given for an attribute, each with the status of the answer. -/
def valueReasons (s : Store) (owner : Company) (r : Row k) (f : String × Json) : List (Nat × Option Failure) := [
  (500, torn? [f.2]),
  (409, if f.1 = "email" then s.taken? owner r f.2 else none),
  (500, if f.2.isObject then some (.fault .store) else none)]

/-- What may be wrong about the status that a document asks for: it makes no sense, which there may be no room to
word. -/
def statusReasons (room : Nat) (document : Json) : List (Nat × Option Failure) := [
  (500, if (document.fieldOrNull "active").height + 3 ≤ room then none
    else document.unclear?.map fun _ => .fault .internal),
  (400, document.unclear?)]

/-- What may be wrong about replacing by a text under a path. -/
def textReasons (s : Store) (owner : Company) (r : Row k) (room : Nat) (path : Option String) (text : Json) :
    List (Nat × Option Failure) :=
  match path with
  | none | some "" => [(400, some (.refused .patchValue))]
  | some path =>
    if k = .group ∧ path = "members" then [(400, some (.refused (.members Members.patchExpectation)))]
    else if path.toList.any BracketPath.isBracket then [(422, some (.refused (.patchPath (some path))))]
    else if room < Schema.calls (some (Schema.writable k)) (PatchOperation.names path) then
      [(500, some (.fault .internal))]
    else
      statusReasons room (Schema.nest (some (Schema.writable k)) (PatchOperation.names path) text) ++
        (((Schema.writable k).landing (PatchOperation.names path)).given text).flatMap (s.valueReasons owner r)

/-- In a store a text under a path has been taken: the attribute that the path leads to says it, the others say what
they said before, and the status is the one that is asked for, if any is. -/
structure TakesText (s : Store) (clock : Nat) (r r' : Row k) (path : String) (text : Json) (s' : Store) : Prop where
  rewrites : s.Rewrites r r' s'
  attributes : ∀ c : Column k, c.isProfile = true →
    r'.get c = ((((Schema.writable k).landing (PatchOperation.names path)).given text).lookup c.name).elim (r.get c)
      fun value => .text value.text
  archived : r'.archived = r.archivedAfter clock
    ((Schema.nest (some (Schema.writable k)) (PatchOperation.names path) text).fieldOrNull "active").status?.join

/-! ## Writing one attribute -/

section Single

variable {c : Column k} {value : Json} {clock : Nat}

private theorem columns_singleton (c : Column k) (value : Json) : columns k [(c.name, value)] = .ok [(c, value)] := by
  have hcolumn : column k c.name = .ok c := column_eq_ok.2 rfl
  rw [columns, List.mapM_cons]
  dsimp only
  rw [hcolumn]
  rfl

private theorem cells_singleton (hc : c.isProfile = true) (value : Json) :
    cells [(c, value)] = (Cell.ofJson .text value).map fun cell => [(c, cell)] := by
  have hordered :
      ((Column.all k).filterMap fun c' => ([(c, value)].lookup c').map fun v => (c', v)) = [(c, value)] := by
    cases k <;> cases c <;> rfl
  have htimed : ([(c, value)].any fun v => isMistimed v.1 v.2) = false := by
    rw [List.any_cons, isMistimed, type_of_isProfile hc]
    rfl
  rw [cells, hordered, htimed, if_neg Bool.false_ne_true, List.mapM_cons]
  dsimp only
  rw [type_of_isProfile hc]
  cases Cell.ofJson .text value <;> rfl

/-- A row that says a text in place of what it said is a row. -/
private theorem exists_revised (hcompany : r.company ≠ .null) (hc : c.isProfile = true) (text : String) (clock : Nat) :
    ∃ new, revised r [(c, .text text), (.updated, .time clock)] = some new := by
  have hcompany' :
      ([(c, Cell.text text), (.updated, .time clock)].lookup .company).getD (r.get .company) ≠ .null := by
    cases c <;> first | exact hcompany | cases hc
  rw [revised, Row.make]
  dsimp only
  rw [if_neg hcompany']
  obtain ⟨id, uuid, company, profile, archived, created, updated⟩ := r
  cases profile with
  | user firstName lastName email alternate =>
    cases alternate <;> cases archived <;> cases c <;> first | exact ⟨_, rfl⟩ | cases hc
  | group displayName email => cases archived <;> cases c <;> first | exact ⟨_, rfl⟩ | cases hc

/-- A text can be written to any attribute of a resource. -/
theorem exists_update_singleton (hr : r ∈ s.owned k owner) (hc : c.isProfile = true) (text : String) (clock : Nat) :
    ∃ p, s.update clock r [(c.name, .str text)] = .ok p := by
  obtain ⟨hmem, howner⟩ := mem_owned.1 hr
  have hcompany : r.company ≠ .null := by
    rw [howner]
    exact Cell.noConfusion
  rw [update, columns_singleton, ok_bind]
  dsimp only
  cases hunchanged : unchanged r c (.str text) with
  | true =>
    rw [List.filter_cons, hunchanged]
    exact ⟨(r, s), rfl⟩
  | false =>
    have hcells : cells [(c, Json.str text)] = .ok [(c, .text text)] := (cells_singleton hc _).trans rfl
    rw [List.filter_cons, hunchanged, Bool.not_false, if_pos rfl, List.filter_nil, List.isEmpty_cons,
      if_neg Bool.false_ne_true, hcells]
    obtain ⟨new, hnew⟩ := exists_revised hcompany hc text clock
    have hprofile : ∀ p ∈ [(c, Cell.text text)], p.1.isProfile = true := by
      intro p hp
      rw [List.mem_singleton.1 hp]
      exact hc
    obtain ⟨profile, rfl⟩ := eq_of_revised hprofile hnew
    obtain ⟨t, hput, -⟩ : ∃ t : Table k, s.put r { r with profile, updated := clock } = .ok (s.withTable k t) ∧ _ :=
      exists_put hmem rfl rfl
    refine ⟨({ r with profile, updated := clock }, s.withTable k t), ?_⟩
    dsimp only
    rw [List.singleton_append, hnew]
    dsimp only
    rw [hput]
    rfl

/-- A value that becomes no cell is not written. -/
theorem update_singleton_error (hc : c.isProfile = true) {fault : Fault}
    (hcell : Cell.ofJson .text value = .error fault) (hchanged : unchanged r c value = false) (clock : Nat) :
    s.update clock r [(c.name, value)] = .error (.fault fault) := by
  rw [update, columns_singleton, ok_bind]
  dsimp only
  rw [List.filter_cons, hchanged, Bool.not_false, if_pos rfl, List.filter_nil, List.isEmpty_cons,
    if_neg Bool.false_ne_true, cells_singleton hc, hcell]
  rfl

/-- Objects and torn texts differ from whatever a column says. -/
private theorem unchanged_of_unfit (hvalue : value.isTorn = true ∨ value.isObject = true) :
    unchanged r c value = false := by
  cases value
  case torn | obj =>
    rw [unchanged]
    cases r.get c <;> rfl
  all_goals rcases hvalue with hvalue | hvalue <;> cases hvalue

/-- A text that is a sequence of characters is written; an object is not. -/
private theorem decides_update_plain (hr : r ∈ s.owned k owner) (hc : c.isProfile = true)
    (hvalue : value.isText = true ∨ value.isObject = true) (hplain : value.isTorn = false) (clock : Nat) :
    Decides [(500, if value.isObject then some (.fault .store) else none)] (s.update clock r [(c.name, value)])
      fun p => ∃ text, value = .str text ∧ s.update clock r [(c.name, .str text)] = .ok p := by
  cases value
  case str text =>
    obtain ⟨p, hp⟩ := exists_update_singleton hr hc text clock
    exact .done rfl hp ⟨text, rfl, hp⟩
  case obj fields => exact .refused rfl rfl (update_singleton_error hc rfl (unchanged_of_unfit (.inr rfl)) clock)
  case torn => cases hplain
  all_goals rcases hvalue with hvalue | hvalue <;> cases hvalue

private theorem update_of_torn (hc : c.isProfile = true) (htorn : value.isTorn = true) (clock : Nat) :
    s.update clock r [(c.name, value)] = .error (.fault .value) := by
  have hcell : Cell.ofJson .text value = .error .value := by
    cases value
    case torn => rfl
    all_goals cases htorn
  exact update_singleton_error hc hcell (unchanged_of_unfit (.inl htorn)) clock

end Single

section Standard

variable {ctx : Context} (h : ctx.config.IsStandard)

include h

/-- Only the address of a user is compared with those of others. -/
private theorem checkKey_cases (s : Store) (owner : Company) (r : Row k) (c : Column k) (value : Json) :
    k = .user ∧ c.name = "email" ∨
      s.checkKey ctx.config owner r [(c.name, value)] = .ok () ∧
        (if c.name = "email" then s.taken? owner r value else none) = none := by
  cases k with
  | group => exact .inr ⟨s.checkKey_group h owner r _, by split <;> rfl⟩
  | user =>
    by_cases hname : c.name = "email"
    · exact .inl ⟨rfl, hname⟩
    · refine .inr ⟨(s.checkKey_user_eq_ok h owner r _).2 fun v hv => ?_, if_neg hname⟩
      rw [List.lookup_cons, beq_eq_false_iff_ne.2 (Ne.symm hname)] at hv
      cases hv

/-- A value for one attribute is written unless there is a reason to refuse it. -/
private theorem decides_value (hr : r ∈ s.owned k owner) {c : Column k} (hc : c.isProfile = true) {value : Json}
    (hvalue : value.isText = true ∨ value.isObject = true) :
    Decides (s.valueReasons owner r (c.name, value)) (s.written ctx owner r [(c.name, value)]) fun p =>
      ∃ text, value = .str text ∧ s.update ctx.clock r [(c.name, .str text)] = .ok p := by
  have hwritten : s.written ctx owner r [(c.name, value)] =
      (s.checkKey ctx.config owner r [(c.name, value)]).bind fun _ => s.update ctx.clock r [(c.name, value)] := rfl
  have hplain (htorn : torn? [value] = none) :=
    decides_update_plain hr hc hvalue (torn?_eq_none.1 htorn value List.mem_cons_self) ctx.clock
  rw [hwritten, valueReasons]
  dsimp only
  rcases checkKey_cases h s owner r c value with ⟨rfl, hname⟩ | ⟨hfree, hnone⟩
  · have haddress : List.lookup "email" [(c.name, value)] = some value := by
      rw [hname]
      rfl
    have hnull : value.isNull = false := by
      cases value
      case null => rcases hvalue with hvalue | hvalue <;> cases hvalue
      all_goals rfl
    rw [if_pos hname]
    refine (decides_address h s owner r haddress hnull).known.bind fun _ ⟨hfirst, _⟩ => hplain ?_
    cases htorn : torn? [value] with
    | none => rfl
    | some failure =>
      rw [htorn] at hfirst
      cases hfirst
  · rw [hfree, hnone]
    refine .cons (fun failure hfailure => ?_) fun htorn =>
      .cons (fun _ hfailure => nomatch hfailure) fun _ => hplain htorn
    obtain ⟨⟨j, hj, htorn⟩, rfl⟩ := torn?_eq_some.1 hfailure
    obtain rfl := List.mem_singleton.1 hj
    exact ⟨update_of_torn hc htorn ctx.clock, rfl⟩

end Standard

/-! ## Operations -/

private theorem hasDistinctKeys_writable (k : Kind) : (Schema.writable k).hasDistinctKeys = true := by
  cases k <;> decide +kernel

variable {text : Json}

/-- A text under a path is given for one attribute at most, as it is or in an object. -/
private theorem given_cases (k : Kind) (names : List String) (htext : text.isText = true) :
    ((Schema.writable k).landing names).given text = [] ∨
      ∃ (c : Column k) (value : Json), c.isProfile = true ∧ (value.isText = true ∨ value.isObject = true) ∧
        ((Schema.writable k).landing names).given text = [(c.name, value)] := by
  have hcases : ((Schema.writable k).landing names).given text = [] ∨
      ∃ (name : String) (value : Json), (value.isText = true ∨ value.isObject = true) ∧
        ((Schema.writable k).landing names).given text = [(name, value)] := by
    cases (Schema.writable k).landing names with
    | nowhere => exact .inl rfl
    | beyond name rest =>
      refine .inr ⟨name, Schema.nest none rest text, ?_, rfl⟩
      cases rest with
      | nil => exact .inl htext
      | cons _ _ => exact .inr rfl
    | reached schema =>
      cases schema with
      | field name => exact .inr ⟨name, text, .inl htext, rfl⟩
      | _ => exact .inl rfl
  rcases hcases with hgiven | ⟨name, value, hvalue, hgiven⟩
  · exact .inl hgiven
  · have hprofile := profileOnly_extractPresent k (Schema.nest (some (Schema.writable k)) names text)
    rw [Schema.extractPresent_nest (hasDistinctKeys_writable k) names htext, hgiven] at hprofile
    obtain ⟨c, hname, hc⟩ := hprofile _ (List.mem_singleton_self _)
    obtain rfl : c.name = name := Column.name_of_ofName? hname
    exact .inr ⟨c, value, hc, hvalue, hgiven⟩

section Standard

variable {ctx : Context} (h : ctx.config.IsStandard)

include h

/-- What is found under a path is written unless there is a reason to refuse it. -/
private theorem decides_found (hr : r ∈ s.owned k owner) (names : List String) (htext : text.isText = true) :
    Decides ((((Schema.writable k).landing names).given text).flatMap (s.valueReasons owner r))
      (s.written ctx owner r ((Schema.writable k).extractPresent (Schema.nest (some (Schema.writable k)) names text)))
      fun p => s.Rewrites r p.1 p.2 ∧ p.1.archived = r.archived ∧ ∀ c : Column k, c.isProfile = true →
        p.1.get c = ((((Schema.writable k).landing names).given text).lookup c.name).elim (r.get c)
          fun value => .text value.text := by
  have hmem := mem_rows_of_owned hr
  rw [Schema.extractPresent_nest (hasDistinctKeys_writable k) names htext]
  rcases given_cases k names htext with hgiven | ⟨c, value, hc, hvalue, hgiven⟩
  · rw [hgiven]
    exact .done rfl rfl ⟨.refl hmem, rfl, fun _ _ => rfl⟩
  · rw [hgiven, List.flatMap_singleton]
    refine (decides_value h hr hc hvalue).mono fun p ⟨text', hstr, hupdate⟩ => ?_
    obtain ⟨r', s'⟩ := p
    have hprofile : ProfileOnly k [(c.name, .str text')] := by
      intro f hf
      rw [List.mem_singleton.1 hf]
      exact ⟨c, Column.ofName?_name c, hc⟩
    subst hstr
    refine ⟨.of_update hmem hprofile hupdate, ?_, fun c' hc' => ?_⟩
    · rcases update_cases hmem hprofile hupdate with ⟨rfl, -⟩ | ⟨⟨profile, rfl⟩, -⟩ <;> rfl
    · rw [List.lookup_cons]
      by_cases hname : c'.name = c.name
      · obtain rfl := Column.eq_of_name hname
        rw [beq_self_eq_true]
        refine get_of_update_str ?_ hupdate (type_of_isProfile hc) ?_
        · exact List.nodup_singleton _
        · rw [List.lookup_cons, beq_self_eq_true]
          rfl
      · rw [beq_eq_false_iff_ne.2 hname]
        refine get_of_update_of_none hupdate ?_ ?_
        · rintro rfl
          cases hc'
        · rw [List.lookup_cons, beq_eq_false_iff_ne.2 hname]
          rfl

omit h in
/-- The document that is made for a path. -/
private theorem document_eq (k : Kind) (room : Nat) {o : PatchOperation} {path : String} (hpath : o.path = some path)
    (hempty : path ≠ "") (hvalue : o.valueOrNull = text) :
    o.document room (Schema.writable k) =
      if path.toList.any BracketPath.isBracket then .error (.refused (.patchPath (some path)))
      else if room < Schema.calls (some (Schema.writable k)) (PatchOperation.names path) then .error (.fault .internal)
      else .ok (Schema.nest (some (Schema.writable k)) (PatchOperation.names path) text) := by
  rw [PatchOperation.document, hpath, hvalue]
  split
  next hnone => cases hnone
  next hnone => exact absurd (Option.some.inj hnone) hempty
  next path' _ hsome =>
    obtain rfl := Option.some.inj hsome
    rw [Schema.nestWithin]
    by_cases hroom : Schema.calls (some (Schema.writable k)) (PatchOperation.names path) ≤ room
    · rw [if_pos hroom, if_neg (Nat.not_lt.2 hroom)]
    · rw [if_neg hroom, if_pos (Nat.lt_of_not_le hroom)]

omit h in
/-- The status that a document asks for. -/
private theorem decides_patchStatus (room : Nat) (document : Json) :
    Decides (statusReasons room document) (PatchOperation.status room document) fun status =>
      (document.fieldOrNull "active").status? = some status := by
  rw [PatchOperation.status, statusReasons, parseActive_eq, Json.unclear?]
  cases hstatus : (document.fieldOrNull "active").status? with
  | some status => exact .done (by split <;> rfl) rfl rfl
  | none =>
    dsimp only [Option.isSome_none]
    rw [if_neg Bool.false_ne_true]
    split
    · exact .refused rfl rfl rfl
    · exact .refused rfl rfl rfl

omit h in
private theorem archived_marked (r : Row k) (clock : Nat) (status : Option Bool) :
    (r.marked clock status).archived = r.archivedAfter clock status := by
  rw [Row.marked]
  split
  next hsame => exact hsame.symm
  next => rfl

omit h in
private theorem archivedAfter_congr {r' : Row k} (harchived : r'.archived = r.archived) (clock : Nat)
    (status : Option Bool) : r'.archivedAfter clock status = r.archivedAfter clock status := by
  cases status with
  | none => exact harchived
  | some active => cases active <;> simp [Row.archivedAfter, harchived]

omit h in
private theorem isObject_nest (k : Kind) (path : String) (text : Json) :
    (Schema.nest (some (Schema.writable k)) (PatchOperation.names path) text).isObject = true := by
  have hnames : PatchOperation.names path ≠ [] := by
    rw [PatchOperation.names, ne_eq, List.map_eq_nil_iff]
    cases path.toList with
    | nil => exact List.cons_ne_nil _ _
    | cons c rest =>
      rw [Text.splitAt]
      split
      · exact List.cons_ne_nil _ _
      · split <;> exact List.cons_ne_nil _ _
  cases hpath : PatchOperation.names path with
  | nil => exact absurd hpath hnames
  | cons name rest => cases k <;> rfl

/-- A text for attributes is taken unless there is a reason to refuse it. -/
private theorem decides_replaceAttributes (hr : r ∈ s.owned k owner) {o : PatchOperation} {path : String}
    (hpath : o.path = some path) (hempty : path ≠ "") (hvalue : o.valueOrNull = text) (htext : text.isText = true) :
    Decides
      (if path.toList.any BracketPath.isBracket then [(422, some (.refused (.patchPath (some path))))]
      else if ctx.config.room < Schema.calls (some (Schema.writable k)) (PatchOperation.names path) then
        [(500, some (.fault .internal))]
      else
        statusReasons ctx.config.room (Schema.nest (some (Schema.writable k)) (PatchOperation.names path) text) ++
          (((Schema.writable k).landing (PatchOperation.names path)).given text).flatMap (s.valueReasons owner r))
      (effect (replaceAttributes ctx owner r o) s) fun p => s.TakesText ctx.clock r p.1 path text p.2 := by
  rw [effect_replaceAttributes, h.mutableSchema, document_eq k _ hpath hempty hvalue]
  split
  · exact .refused rfl rfl rfl
  · split
    · exact .refused rfl rfl rfl
    · change Decides _ (if _ then _ else _) _
      rw [if_pos (isObject_nest k path text)]
      refine (decides_patchStatus _ _).bind fun status hstatus => ?_
      refine (decides_found h hr (PatchOperation.names path) htext).bind_ok fun p ⟨hw, harchived, hattributes⟩ => ?_
      obtain ⟨t, hsettled, hmarked⟩ := exists_settled ctx.clock hw.mem_new status
      refine ⟨_, hsettled, hw.trans hmarked, fun c hc => ?_, ?_⟩
      · rw [get_of_settled hsettled hc]
        exact hattributes c hc
      · rw [hstatus, Option.join_some, archived_marked, archivedAfter_congr harchived]

/-- A text is taken unless there is a reason to refuse it. -/
theorem decides_text (hr : r ∈ s.owned k owner) {o : PatchOperation} (hname : o.name = "replace")
    (hvalue : o.value = some text) (htext : text.isText = true) :
    Decides (s.textReasons owner r ctx.config.room o.path text) (effect (applyOperation ctx owner k r o) s) fun p =>
      ∃ path, o.path = some path ∧ s.TakesText ctx.clock r p.1 path text p.2 := by
  have hvalue : o.valueOrNull = text := by rw [PatchOperation.valueOrNull, hvalue, Option.getD_some]
  -- Without a path the text would have to be an object.
  have hwhole (hpath : o.path = none ∨ o.path = some "") :
      effect (applyOperation ctx owner k r o) s = .error (.refused .patchValue) := by
    have hattributes : o.OnAttributes k := by
      refine ⟨hname, fun _ hmembers => ?_⟩
      rcases hpath with hpath | hpath <;> simp [hpath] at hmembers
    have hdocument : o.document ctx.config.room (Schema.writable k) = .ok text := by
      rcases hpath with hpath | hpath <;> simp [PatchOperation.document, hpath, hvalue]
    have hobject : text.isObject = false := by
      cases text
      case str | torn => rfl
      all_goals cases htext
    rw [effect_applyOperation_of_onAttributes hattributes, effect_replaceAttributes, h.mutableSchema, hdocument]
    change (if text.isObject = true then _ else _) = _
    rw [hobject, if_neg Bool.false_ne_true]
  unfold textReasons
  split
  next hpath => exact .refused rfl rfl (hwhole (.inl hpath))
  next hpath => exact .refused rfl rfl (hwhole (.inr hpath))
  next path hempty hpath =>
    split
    next hmembers =>
      obtain ⟨rfl, rfl⟩ := hmembers
      have hpath' : (o.path == some "members") = true := beq_iff_eq.2 hpath
      have hlisted : s.listed ctx.config owner text Members.patchExpectation =
          .error (.refused (.members Members.patchExpectation)) := by
        cases text
        case str | torn => rfl
        all_goals cases htext
      refine .refused rfl rfl ?_
      rw [applyOperation, if_pos hname, effect_replaceInGroup, if_pos hpath', hvalue, hlisted]
      rfl
    next hmembers =>
      have hattributes : o.OnAttributes k := by
        refine ⟨hname, fun hk hmembers' => hmembers ⟨hk, ?_⟩⟩
        rw [hpath] at hmembers'
        exact Option.some.inj hmembers'
      rw [effect_applyOperation_of_onAttributes hattributes]
      exact (decides_replaceAttributes h hr hpath (fun e => hempty (e ▸ rfl)) hvalue htext).mono fun p hp =>
        ⟨path, hpath, hp⟩

end Standard

/-! ## Paths that are not foreseen -/

/-- A path is followed to an attribute: it is not empty, not the one of the members, and has no brackets. -/
def IsFollowed (k : Kind) (path : String) : Prop :=
  path ≠ "" ∧ ¬(k = .group ∧ path = "members") ∧ path.toList.any BracketPath.isBracket = false

/-- There is no room for a text under a path: to follow the path, or to word that the status makes no sense. -/
def LacksRoom (k : Kind) (room : Nat) (path : String) (text : Json) : Prop :=
  room < Schema.calls (some (Schema.writable k)) (PatchOperation.names path) ∨
    (Schema.nest (some (Schema.writable k)) (PatchOperation.names path) text).unclear? ≠ none ∧
      room < ((Schema.nest (some (Schema.writable k)) (PatchOperation.names path) text).fieldOrNull "active").height + 3

/-- A text under a path cannot be dealt with: there is no room for it, or the text is torn where an attribute would say
it, or the path goes on beyond an attribute. An object for an address may be refused before, if there is a user whose
address is its text. -/
def Breaks (s : Store) (owner : Company) (r : Row k) (room : Nat) (path : String) (text : Json) : Prop :=
  IsFollowed k path ∧
    (LacksRoom k room path text ∨
      ∃ f ∈ ((Schema.writable k).landing (PatchOperation.names path)).given text,
        f.2.isTorn = true ∨ (f.2.isObject = true ∧ (f.1 = "email" → s.taken? owner r f.2 = none)))

instance (s : Store) (owner : Company) (r : Row k) (room : Nat) (path : String) (text : Json) :
    Decidable (s.Breaks owner r room path text) :=
  inferInstanceAs (Decidable ((_ ≠ _ ∧ ¬(_ ∧ _) ∧ _) ∧ ((_ < _ ∨ _ ≠ _ ∧ _ < _) ∨ ∃ f ∈ _, _)))

/-- A path that leads to an attribute is not the one of the status. -/
private theorem unclear_of_given {names : List String} (hgiven : ((Schema.writable k).landing names).given text ≠ []) :
    (Schema.nest (some (Schema.writable k)) names text).unclear? = none := by
  cases names with
  | nil => cases k <;> exact absurd rfl hgiven
  | cons name rest =>
    have hname : ("active" == name) = false := by
      refine beq_eq_false_iff_ne.2 ?_
      rintro rfl
      cases k <;> exact hgiven rfl
    have hactive : (Schema.nest (some (Schema.writable k)) (name :: rest) text).fieldOrNull "active" = .null := by
      have hlookup (value : Json) : ([(name, value)].lookup "active").getD .null = .null := by
        rw [List.lookup_cons, hname]
        rfl
      cases k <;> exact hlookup _
    rw [Json.unclear?, hactive]
    rfl

/-- What may be wrong about one value comes to a failure of the server. -/
private theorem valueReasons_iff (s : Store) (owner : Company) (r : Row k) (f : String × Json) :
    (f.2.isTorn = true ∨ (f.2.isObject = true ∧ (f.1 = "email" → s.taken? owner r f.2 = none))) ↔
      ∃ failure, firstReason (s.valueReasons owner r f) = some (500, failure) := by
  rw [valueReasons, torn?, List.any_cons, List.any_nil, Bool.or_false]
  cases htorn : f.2.isTorn with
  | true => exact iff_of_true (.inl rfl) ⟨_, rfl⟩
  | false =>
    rw [if_neg Bool.false_ne_true]
    have htaken : (if f.1 = "email" then s.taken? owner r f.2 else none) = none ↔
        (f.1 = "email" → s.taken? owner r f.2 = none) := by
      split
      next hname => simp [hname]
      next hname => simp [hname]
    rw [← htaken]
    cases hfound : (if f.1 = "email" then s.taken? owner r f.2 else none) with
    | some failure => simp [firstReason]
    | none => cases hobject : f.2.isObject <;> simp [firstReason]

/-- A status that makes no sense comes to a failure of the server if there is no room to word it. -/
private theorem statusReasons_iff (room : Nat) (document : Json) :
    (∃ failure, firstReason (statusReasons room document) = some (500, failure)) ↔
      document.unclear? ≠ none ∧ room < (document.fieldOrNull "active").height + 3 := by
  rw [statusReasons]
  cases document.unclear? with
  | none => exact iff_of_false (by split <;> exact fun ⟨_, h⟩ => nomatch h) fun h => h.1 rfl
  | some failure =>
    split
    next hroom => exact iff_of_false (fun ⟨_, h⟩ => nomatch h) fun h => absurd h.2 (Nat.not_lt.2 hroom)
    next hroom => exact iff_of_true ⟨_, rfl⟩ ⟨Option.some_ne_none _, Nat.lt_of_not_le hroom⟩

private theorem firstReason_statusReasons {room : Nat} {document : Json} (hclear : document.unclear? = none) :
    firstReason (statusReasons room document) = none := by
  rw [statusReasons, hclear]
  split <;> rfl

private theorem breaks_iff (htext : text.isText = true) (room : Nat) (path : Option String) :
    (∃ p, path = some p ∧ s.Breaks owner r room p text) ↔
      ∃ failure, firstReason (s.textReasons owner r room path text) = some (500, failure) := by
  have hrefused (status : Nat) (failure : Failure) (hstatus : status ≠ 500) :
      ¬∃ failure', firstReason [(status, some failure)] = some (500, failure') := by
    rintro ⟨failure', e⟩
    cases e
    exact hstatus rfl
  unfold textReasons
  split
  next => exact iff_of_false (fun ⟨_, hpath, _⟩ => nomatch hpath) (hrefused _ _ (by decide))
  next =>
    refine iff_of_false (fun ⟨p, hpath, hfollowed, _⟩ => ?_) (hrefused _ _ (by decide))
    exact hfollowed.1 (Option.some.inj hpath).symm
  next p hempty =>
    have hsome : (∃ p', some p = some p' ∧ s.Breaks owner r room p' text) ↔ s.Breaks owner r room p text := by simp
    rw [hsome]
    split
    next hmembers => exact iff_of_false (fun h => h.1.2.1 hmembers) (hrefused _ _ (by decide))
    next hmembers =>
      split
      next hbracket =>
        have hnot : p.toList.any BracketPath.isBracket ≠ false := by rw [hbracket]; exact Bool.noConfusion
        exact iff_of_false (fun h => hnot h.1.2.2) (hrefused _ _ (by decide))
      next hbracket =>
        have hfollowed : IsFollowed k p := ⟨fun e => hempty (e ▸ rfl), hmembers, Bool.not_eq_true _ ▸ hbracket⟩
        split
        next hlong => exact iff_of_true ⟨hfollowed, .inl (.inl hlong)⟩ ⟨_, rfl⟩
        next hshort =>
          rw [Breaks, LacksRoom, firstReason_append]
          simp only [hfollowed, hshort, true_and, false_or]
          rcases given_cases k (PatchOperation.names p) htext with hgiven | ⟨c, value, -, -, hgiven⟩
          · have hnothing : firstReason ([] : List (Nat × Option Failure)) = none := rfl
            rw [hgiven, List.flatMap_nil, hnothing, Option.or_none, statusReasons_iff]
            simp
          · have hclear := unclear_of_given (hgiven ▸ List.cons_ne_nil _ _)
            rw [firstReason_statusReasons hclear, hclear, hgiven, List.flatMap_singleton, Option.none_or]
            simp only [ne_eq, not_true_eq_false, false_and, false_or, List.mem_singleton, exists_eq_left]
            exact valueReasons_iff s owner r (c.name, value)

/-- The other reasons are told to the client. -/
private theorem status_of_firstReason {room : Nat} {path : Option String} {status : Nat} {failure : Failure}
    (hfirst : firstReason (s.textReasons owner r room path text) = some (status, failure)) (hstatus : status ≠ 500) :
    status ∈ [400, 409, 422] := by
  have hmem := mem_of_firstReason hfirst
  have hsingle {n : Nat} {reason : Option Failure} (hmem : (status, some failure) ∈ [(n, reason)]) : status = n :=
    congrArg Prod.fst (List.mem_singleton.1 hmem)
  unfold textReasons at hmem
  split at hmem
  next => simp [hsingle hmem]
  next => simp [hsingle hmem]
  next =>
    split at hmem
    next => simp [hsingle hmem]
    next =>
      split at hmem
      next => simp [hsingle hmem]
      next =>
        split at hmem
        next => exact absurd (hsingle hmem) hstatus
        next =>
          rcases List.mem_append.1 hmem with hmem | hmem
          · rw [statusReasons, List.mem_cons] at hmem
            rcases hmem with e | hmem
            · exact absurd (Prod.mk.inj e).1 hstatus
            · simp [hsingle hmem]
          · obtain ⟨f, -, hmem⟩ := List.mem_flatMap.1 hmem
            simp only [valueReasons, List.mem_cons, Prod.mk.injEq, List.not_mem_nil, or_false] at hmem
            rcases hmem with ⟨rfl, -⟩ | ⟨rfl, -⟩ | ⟨rfl, -⟩
            · exact absurd rfl hstatus
            · decide
            · exact absurd rfl hstatus

end Store

/-- A request of one operation that replaces by a text fails in the server exactly if no services can be opened under
the settings or the path cannot be dealt with. Otherwise the text is taken, which may come to nothing, or it is refused
to the client and nothing is changed. -/
theorem takes_or_refuses_text {s : Settings} {c : Config} (hb : Config.build s = .ok c)
    (hs : s.customUserAttributes = []) (d : Directory) (clock : Nat) (owner : Company) (k : Kind) {r : Row k}
    (hr : r ∈ d.store.owned k owner) {o : PatchOperation} (hname : o.name = "replace") {text : Json}
    (hvalue : o.value = some text) (htext : text.isText = true) :
    ((∃ failure, (d.perform ⟨c, clock⟩ owner (.patch k (.str r.uuid) [o])).result = .error failure ∧
        (Answer.failure failure).status = 500) ↔
      ¬s.HasPageSizes ∨ ∃ path, o.path = some path ∧ d.store.Breaks owner r c.room path text) ∧
    (s.HasPageSizes → (¬∃ path, o.path = some path ∧ d.store.Breaks owner r c.room path text) →
      (∃ path r' s', o.path = some path ∧ d.store.TakesText clock r r' path text s' ∧
        (d.perform ⟨c, clock⟩ owner (.patch k (.str r.uuid) [o])).result = .ok (s'.document k r') ∧
        (d.perform ⟨c, clock⟩ owner (.patch k (.str r.uuid) [o])).directory = { d with store := s' }) ∨
      ∃ failure, (d.perform ⟨c, clock⟩ owner (.patch k (.str r.uuid) [o])).result = .error failure ∧
        (Answer.failure failure).status ∈ [400, 409, 422] ∧
        (d.perform ⟨c, clock⟩ owner (.patch k (.str r.uuid) [o])).directory = d) := by
  by_cases hsizes : s.HasPageSizes
  · have h : (Context.mk c clock).config.IsStandard := Config.isStandard_of_build hb hs
    obtain ⟨pager, hserve⟩ := Config.exists_serve hb hsizes.1 hsizes.2 k
    have hserve : (Context.mk c clock).config.serve k = .ok pager := hserve
    have hget : d.store.get (Context.mk c clock).config k owner (.str r.uuid) = .ok r :=
      (d.store.get_eq_ok h owner).2 ⟨rfl, hr, rfl⟩
    rw [Store.breaks_iff htext c.room]
    cases Store.decides_text h hr hname hvalue htext with
    | @refused status failure hfirst hstatus he =>
      obtain ⟨hresult, hdirectory⟩ := perform_single_error ⟨c, clock⟩ owner h d hserve hget he
      rw [hresult, hdirectory, hfirst]
      constructor
      · simp [hsizes, hstatus, eq_comm]
      · intro _ hbreaks
        refine .inr ⟨failure, rfl, ?_, rfl⟩
        rw [hstatus]
        exact Store.status_of_firstReason hfirst fun e => hbreaks ⟨failure, by rw [e]⟩
    | @done p hfirst he htaken =>
      obtain ⟨r', s'⟩ := p
      obtain ⟨path, hpath, htaken⟩ := htaken
      obtain ⟨hresult, hdirectory⟩ := perform_single_ok ⟨c, clock⟩ owner h d hserve hget he
      rw [hresult, hdirectory, hfirst]
      constructor
      · simp [hsizes]
      · exact fun _ _ => .inl ⟨path, r', s', hpath, htaken, rfl, rfl⟩
  · have hrefused := perform_of_not_hasPageSizes hb hsizes d clock owner (.patch k (.str r.uuid) [o])
    rw [hrefused]
    exact ⟨iff_of_true ⟨_, rfl, rfl⟩ (.inl hsizes), fun h => absurd h hsizes⟩

/-- Gives a user another name, by a path. -/
private def rename (path : String) : PatchOperation := ⟨"Replace", some path, some (.str "Ann")⟩

theorem takes_or_refuses_text_sample :
    (∃ path r' s', (rename "name.givenName").path = some path ∧
      Sample.store.TakesText 5 Sample.ada r' path (.str "Ann") s' ∧
      (Sample.directory.perform ⟨Sample.config true, 5⟩ Sample.acme
        (.patch .user (.str "u1") [rename "name.givenName"])).directory = { Sample.directory with store := s' }) ∧
    ∃ failure, (Sample.directory.perform ⟨Sample.config true, 5⟩ Sample.acme
        (.patch .user (.str "u1") [rename "name.givenName.first"])).result = .error failure ∧
      (Answer.failure failure).status = 500 := by
  have hada : Sample.ada ∈ Sample.store.owned .user Sample.acme := by decide +kernel
  have hplain := takes_or_refuses_text (Sample.build_config true) rfl Sample.directory 5 Sample.acme .user hada
    (o := rename "name.givenName") (by decide +kernel) rfl rfl
  have hbeyond := takes_or_refuses_text (Sample.build_config true) rfl Sample.directory 5 Sample.acme .user hada
    (o := rename "name.givenName.first") (by decide +kernel) rfl rfl
  have hnot : ¬∃ path, (rename "name.givenName").path = some path ∧
      Sample.store.Breaks Sample.acme Sample.ada (Sample.config true).room path (.str "Ann") := by
    rintro ⟨_, ⟨⟩, hbreaks⟩
    revert hbreaks
    decide +kernel
  constructor
  · have hok : (Sample.directory.perform ⟨Sample.config true, 5⟩ Sample.acme
        (.patch .user (.str Sample.ada.uuid) [rename "name.givenName"])).result.isOk = true := by decide +kernel
    rcases hplain.2 Settings.hasPageSizes_default hnot with
      ⟨path, r', s', hpath, htaken, -, hdirectory⟩ | ⟨failure, hrefused, -⟩
    · exact ⟨path, r', s', hpath, htaken, hdirectory⟩
    · rw [hrefused] at hok
      cases hok
  · exact hbeyond.1.2 (.inr ⟨_, rfl, by decide +kernel⟩)

/-- A text is not always taken or refused: a path may go on beyond an attribute. -/
theorem not_takes_or_refuses_text :
    ¬∀ {s : Settings} {c : Config}, Config.build s = .ok c → s.customUserAttributes = [] → s.HasPageSizes →
      ∀ (d : Directory) (clock : Nat) (owner : Company) (k : Kind) (r : Row k), r ∈ d.store.owned k owner →
        ∀ (o : PatchOperation) (text : String), o.name = "replace" → o.value = some (.str text) →
          ∀ failure, (d.perform ⟨c, clock⟩ owner (.patch k (.str r.uuid) [o])).result = .error failure →
            (Answer.failure failure).status ≠ 500 := by
  intro hall
  have hfault : (Sample.directory.perform ⟨Sample.config true, 5⟩ Sample.acme
      (.patch .user (.str Sample.ada.uuid) [rename "name.givenName.first"])).result = .error (.fault .store) := by
    decide +kernel
  exact hall (Sample.build_config true) rfl Settings.hasPageSizes_default Sample.directory 5 Sample.acme .user
    Sample.ada (by decide +kernel) (rename "name.givenName.first") "Ann" (by decide +kernel) rfl _ hfault rfl

end Roster
