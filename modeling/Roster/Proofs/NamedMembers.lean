import Roster.Proofs.MemberLists
import Roster.Proofs.Patching

/-!
Users that an operation on members names.

An operation names users by a list of their identifiers or by a filter. As long as the identifiers are texts,
both depend on the identifiers of the users alone: a list names the users with its texts, and a filter those
whose identifiers it selects.
-/

set_option autoImplicit false

namespace Roster

/-! ## Texts and filters -/

/-- The text that a member gives for its user. -/
def Members.text? (member : Json) : Option String :=
  match identifier? member with
  | some (.str text) => some text
  | _ => none

/-- The texts that a list of members gives for its users. -/
def Members.texts? : Json → Option (List String)
  | .arr members => members.mapM text?
  | _ => none

/-- What a list of members gives for its users are texts. -/
def Members.AreTexts (members : Json) : Prop :=
  ∀ items, members = .arr items → ∀ m ∈ items, ∀ j, identifier? m = some j → ∃ text, j = .str text

/-- A list of members that are identified by texts. -/
def Members.ofTexts (texts : List String) : Json :=
  .arr (texts.map fun text => .obj [("value", .str text)])

theorem Members.areTexts_ofTexts (texts : List String) : AreTexts (ofTexts texts) := by
  intro items hitems m hm j hj
  cases hitems
  obtain ⟨text, -, rfl⟩ := List.mem_map.1 hm
  cases hj
  exact ⟨text, rfl⟩

theorem Members.texts?_ofTexts (texts : List String) : texts? (ofTexts texts) = some texts := by
  rw [ofTexts, texts?]
  induction texts with
  | nil => rfl
  | cons text rest ih =>
    rw [List.map_cons, List.mapM_cons, ih]
    rfl

/-- The texts of a list of members, if all of them are known; otherwise the first that is not is not found. -/
def listedAmong (known : List String) (members : Json) : Except Failure (List String) :=
  match Members.texts? members with
  | none => .error (.refused (.members Members.patchExpectation))
  | some texts =>
    match texts.find? fun text => !known.contains text with
    | some text => .error (.refused (.notFound (.str text)))
    | none => .ok texts

/-- One statement takes the texts of a list of members besides the number of a company or a group. -/
def Members.AreFew (members : Json) : Prop :=
  ∀ texts, texts? members = some texts → texts.eraseDups.length < Store.maxVariables

instance (members : Json) : Decidable (Members.AreFew members) :=
  match h : Members.texts? members with
  | none => isTrue fun texts htexts => by rw [h] at htexts; cases htexts
  | some texts =>
    decidable_of_iff (texts.eraseDups.length < Store.maxVariables)
      ⟨fun hfew _ htexts => by rw [h] at htexts; cases htexts; exact hfew, fun hfew => hfew texts h⟩

/-- The texts of a list of users whom one statement looks for, if all of them are known. -/
def soughtAmong (known : List String) (members : Json) : Except Failure (List String) :=
  if Members.AreFew members then listedAmong known members else .error (.fault .store)

/-- The filter selects users with an identifier. -/
def Filter.Expression.selects (e : Filter.Expression) (uuid : String) : Bool :=
  match Store.pattern? e.operator e.literal.toList with
  | some pattern => Like.accepts pattern uuid.toList
  | none => Store.accepted e.operator (compare uuid e.literal)

/-- The filter compares with a pattern that the store does not try on any user. -/
def Filter.Expression.isTooLong (e : Filter.Expression) : Bool :=
  (Store.pattern? e.operator e.literal.toList).any Like.isTooLong

/-! ## Lists of texts -/

private theorem foldl_addIdentifier (listed texts : List String) :
    (texts.map Json.str).foldl Members.addIdentifier (listed.map Json.str) =
      (including listed texts).map Json.str := by
  rw [← foldl_eq_including]
  induction texts generalizing listed with
  | nil => rfl
  | cons text rest ih =>
    have hany : (listed.map Json.str).any (Json.same (.str text)) = listed.contains text := by
      rw [List.any_map, Bool.eq_iff_iff, List.any_eq_true, List.contains_iff_mem]
      constructor
      · rintro ⟨t, ht, e⟩
        rw [Function.comp_apply, Json.same, beq_iff_eq] at e
        rw [e]
        exact ht
      · intro ht
        refine ⟨text, ht, ?_⟩
        rw [Function.comp_apply, Json.same, beq_self_eq_true]
    have hstep : Members.addIdentifier (listed.map Json.str) (.str text) =
        (if listed.contains text then listed else listed ++ [text]).map Json.str := by
      rw [Members.addIdentifier, hany]
      split
      · rfl
      · rw [List.map_append, List.map_singleton]
    rw [List.map_cons, List.foldl_cons, List.foldl_cons, hstep]
    exact ih _

private theorem mapM_identifier? {items : List Json} (h : Members.AreTexts (.arr items)) :
    items.mapM Members.identifier? = (Members.texts? (.arr items)).map fun texts => texts.map Json.str := by
  have htexts : ∀ m ∈ items, ∀ j, Members.identifier? m = some j → ∃ text, j = .str text := h items rfl
  clear h
  rw [Members.texts?]
  induction items with
  | nil => rfl
  | cons m rest ih =>
    have hrest := ih fun x hx => htexts x (List.mem_cons_of_mem m hx)
    rw [List.mapM_cons, List.mapM_cons, hrest, Members.text?]
    cases hm : Members.identifier? m with
    | none => rfl
    | some j =>
      obtain ⟨text, rfl⟩ := htexts m List.mem_cons_self j hm
      cases rest.mapM Members.text? <;> rfl

theorem identifiers?_eq {members : Json} (h : Members.AreTexts members) :
    Members.identifiers? members = (Members.texts? members).map fun texts => texts.eraseDups.map Json.str := by
  cases members
  case arr items =>
    rw [Members.identifiers?, mapM_identifier? h, Option.map_map]
    congr 1
    funext texts
    rw [Function.comp_apply, ← including_nil_left]
    exact foldl_addIdentifier [] texts
  all_goals rfl

/-- Naming the rows of one table by texts. -/
private theorem mapM_named_str {k : Kind} {t : Table k} {rows : List (Row k)} (hrows : ∀ r ∈ rows, r ∈ t.rows)
    (texts : List String) :
    ((texts.map Json.str).mapM (named rows)).map (fun found => found.map Row.uuid) =
      match texts.find? fun text => !(rows.map Row.uuid).contains text with
      | some text => .error (.refused (.notFound (.str text)))
      | none => .ok texts := by
  induction texts with
  | nil => rfl
  | cons text rest ih =>
    rw [List.map_cons, List.mapM_cons]
    by_cases hmem : text ∈ rows.map Row.uuid
    · obtain ⟨r, hr, huuid⟩ := List.mem_map.1 hmem
      have hnamed : named rows (.str text) = .ok r := (named_eq_ok hrows).2 ⟨hr, huuid⟩
      have hknown : (rows.map Row.uuid).contains text = true := List.contains_iff_mem.2 hmem
      have hcons : (((rest.map Json.str).mapM (named rows)) >>= fun found => pure (r :: found)).map
          (fun found => found.map Row.uuid) =
          (((rest.map Json.str).mapM (named rows)).map fun found => found.map Row.uuid).map (text :: ·) := by
        rw [map_map, ← huuid]
        cases (rest.map Json.str).mapM (named rows) <;> rfl
      rw [hnamed, ok_bind, hcons, ih, List.find?_cons, hknown, Bool.not_true]
      dsimp only
      cases rest.find? fun text => !(rows.map Row.uuid).contains text <;> rfl
    · have hunknown : (rows.map Row.uuid).contains text = false := by
        rw [← Bool.not_eq_true, List.contains_iff_mem]
        exact hmem
      have hnamed : named rows (.str text) = .error (.refused (.notFound (.str text))) :=
        named_eq_error fun r hr e => hmem (List.mem_map.2 ⟨r, hr, e⟩)
      rw [hnamed, List.find?_cons, hunknown]
      rfl

/-- Rows of one table that a list of members names. -/
private theorem map_uuid_named {k : Kind} {t : Table k} {rows : List (Row k)} (hrows : ∀ r ∈ rows, r ∈ t.rows)
    {find : List Json → Except Failure (List (Row k))} {members : Json} (htexts : Members.AreTexts members)
    (hfind : ∀ texts, Members.texts? members = some texts →
      find (texts.eraseDups.map Json.str) = (texts.eraseDups.map Json.str).mapM (named rows)) :
    (((Members.identifiers members Members.patchExpectation).mapError Failure.refused).bind find).map
        (fun found => found.map Row.uuid) =
      (listedAmong (rows.map Row.uuid) members).map List.eraseDups := by
  rw [Members.identifiers, identifiers?_eq htexts, listedAmong]
  cases hgiven : Members.texts? members with
  | none => rfl
  | some texts =>
    change (find (texts.eraseDups.map Json.str)).map _ = _
    rw [hfind texts hgiven, mapM_named_str hrows, find?_eraseDups]
    dsimp only
    split <;> rfl

/-! ## Filters -/

/-- A filter is about a column that some attribute stands for. -/
theorem mem_of_parse {attributes : List (String × String)} {text : String} {e : Filter.Expression}
    (he : Filter.parse attributes text = .ok e) : ∃ name, (name, e.column) ∈ attributes := by
  rw [Filter.parse] at he
  split at he
  · cases he
  · split at he
    · cases he
    next parts _ =>
      dsimp only at he
      split at he
      · cases he
      next column hlookup =>
        split at he
        · cases he
        · cases he
          exact ⟨_, mem_of_lookup hlookup⟩

theorem mem_of_filterOf {attributes : List (String × String)} {filter : Json} {e : Filter.Expression}
    (he : Request.filterOf attributes filter = .ok (some e)) : ∃ name, (name, e.column) ∈ attributes := by
  obtain ⟨text, -, he⟩ := bind_eq_ok.1 he
  split at he
  · cases he
  · split at he
    next hparse =>
      cases he
      exact mem_of_parse hparse
    next => cases he

theorem mem_of_memberFilter {c : Config} {path : Option String} {e : Filter.Expression}
    (he : memberFilter c path = .ok e) : ∃ name, (name, e.column) ∈ c.memberAttributes := by
  rw [memberFilter] at he
  split at he
  · split at he
    · cases he
    · split at he
      next hparse =>
        cases he
        exact mem_of_parse hparse
      next => cases he
  · cases he

/-- A filter on a column of texts is true of a row when it selects the text of the column. -/
theorem exists_predicate_of_text {k : Kind} {e : Filter.Expression} {c : Column k} (hname : c.name = e.column)
    (htype : c.type = .text) :
    ∃ holds : Cell → Bool, Store.predicate k e = .ok (fun r => holds (r.get c)) ∧
      (∀ text, holds (.text text) = e.selects text) ∧ holds .null = false := by
  have hcolumn : Store.column k e.column = .ok c := Store.column_eq_ok.2 hname
  have hcoerce : coerce .text (.str e.literal) = some (.str e.literal) := rfl
  have htext : (Json.str e.literal).text = e.literal := rfl
  rw [Store.predicate, hcolumn, ok_bind, htype, hcoerce]
  dsimp only
  rw [Store.test, htext]
  cases hpattern : Store.pattern? e.operator e.literal.toList with
  | some pattern =>
    refine ⟨fun cell => Store.resembles cell pattern, rfl, fun text => ?_, rfl⟩
    rw [Filter.Expression.selects, hpattern]
    rfl
  | none =>
    refine ⟨fun cell => Store.compares cell (.text e.literal) (Store.accepted e.operator), rfl, fun text => ?_, rfl⟩
    rw [Filter.Expression.selects, hpattern]
    rfl

theorem isTooLong_of_text {k : Kind} {e : Filter.Expression} {c : Column k} (hname : c.name = e.column)
    (htype : c.type = .text) : Store.isTooLong k e = e.isTooLong := by
  rw [Store.isTooLong, ← hname, Column.ofName?_name, Filter.Expression.isTooLong, Option.bind_some, htype]
  rfl

private theorem predicate_uuid {e : Filter.Expression} (hcolumn : e.column = "uuid") :
    Store.predicate .user e = .ok fun u => e.selects u.uuid := by
  have hname : (Column.uuid : Column .user).name = e.column := hcolumn.symm
  obtain ⟨holds, hpredicate, htext, -⟩ := exists_predicate_of_text hname rfl
  rw [hpredicate]
  exact congrArg Except.ok (funext fun u => htext u.uuid)

private theorem isTooLong_uuid {e : Filter.Expression} (hcolumn : e.column = "uuid") :
    Store.isTooLong .user e = e.isTooLong := by
  have hname : (Column.uuid : Column .user).name = e.column := hcolumn.symm
  exact isTooLong_of_text hname rfl

/-- Rows are sorted by what their columns say. -/
theorem sortRows_map {k : Kind} {f : Row k → Row k} {keys : List (Column k × Bool)} {rows : List (Row k)}
    (hf : ∀ a ∈ rows, ∀ b ∈ rows, Store.compareRows keys (f a) (f b) = Store.compareRows keys a b) :
    Store.sortRows keys (rows.map f) = (Store.sortRows keys rows).map f := by
  refine (List.map_mergeSort ?_).symm
  intro a ha b hb
  rw [hf a ha b hb]

/-- The members that a filter on their identifiers selects, in the order of their numbers. -/
theorem matchingMembers_eq {s : Store} {owner : Company} {group : Row .group} {e : Filter.Expression}
    (hcolumn : e.column = "uuid") :
    s.matchingMembers owner group e =
      if e.isTooLong && !((s.owned .user owner).map Row.uuid).isEmpty then .error (.fault .store)
      else .ok ((Store.sortRows [(.id, false)] ((s.owned .user owner).filter fun u => e.selects u.uuid)).filter
        fun u => (s.membersOf group).any fun m => m.id == u.id) := by
  have hempty : ((s.owned .user owner).map Row.uuid).isEmpty = (s.owned .user owner).isEmpty := by
    cases s.owned .user owner <;> rfl
  rw [Store.matchingMembers, Store.query, Store.selected, predicate_uuid hcolumn, isTooLong_uuid hcolumn,
    hempty]
  dsimp only
  split <;> rfl

/-- Taking out those that are found among the members is taking out all that are selected. -/
theorem Store.withoutMembers_found (s : Store) (owner : Company) (group : Row .group) (p : Row .user → Bool) :
    s.withoutMembers group ((Store.sortRows [(.id, false)] ((s.owned .user owner).filter p)).filter fun u =>
        (s.membersOf group).any fun m => m.id == u.id) =
      s.withoutMembers group ((s.owned .user owner).filter p) := by
  have hfound (m : Membership) (hm : m ∈ s.memberships) (hgroup : m.group = group.id) (u : Row .user) :
      (u ∈ (Store.sortRows [(.id, false)] ((s.owned .user owner).filter p)).filter fun u =>
        (s.membersOf group).any fun m => m.id == u.id) ∧ u.id = m.user ↔
        u ∈ (s.owned .user owner).filter p ∧ u.id = m.user := by
    rw [List.mem_filter, Store.sortRows, List.mem_mergeSort, List.any_eq_true]
    constructor
    · rintro ⟨⟨hu, -⟩, hid⟩
      exact ⟨hu, hid⟩
    · rintro ⟨hu, hid⟩
      have hrow : u ∈ s.users.rows := Store.mem_rows_of_owned (List.mem_filter.1 hu).1
      have hmember : u.id ∈ s.memberNumbers group := Store.mem_memberNumbers.2 ⟨m, hm, hgroup, hid.symm⟩
      exact ⟨⟨hu, u, Store.mem_membersOf.2 ⟨hrow, hmember⟩, beq_self_eq_true u.id⟩, hid⟩
  rw [Store.withoutMembers, Store.withoutMembers]
  congr 1
  refine List.filter_congr fun m hm => ?_
  by_cases hgroup : m.group = group.id
  · congr 2
    rw [Bool.eq_iff_iff, List.any_eq_true, List.any_eq_true]
    refine exists_congr fun u => ?_
    rw [beq_iff_eq]
    exact hfound m hm hgroup u
  · rw [beq_eq_false_iff_ne.2 hgroup, Bool.false_and, Bool.false_and]

/-! ## Members of a group -/

section Members

variable {c : Config} (h : c.IsStandard)

include h

/-- A list of members fails as its texts do, or names the users of the company with these texts. -/
theorem listed_cases (s : Store) (owner : Company) {members : Json} (htexts : Members.AreTexts members) :
    (∃ e, s.listed c owner members Members.patchExpectation = .error e ∧
      soughtAmong ((s.owned .user owner).map Row.uuid) members = .error e) ∨
    ∃ users texts, s.listed c owner members Members.patchExpectation = .ok users ∧
      soughtAmong ((s.owned .user owner).map Row.uuid) members = .ok texts ∧
      users.map Row.uuid = texts.eraseDups ∧ ∀ u ∈ users, u ∈ s.users.rows := by
  have hrows : ∀ u ∈ s.owned .user owner, u ∈ s.users.rows := fun _ => Store.mem_rows_of_owned
  rw [soughtAmong]
  split
  next hfew =>
    have hresolve (texts : List String) (hgiven : Members.texts? members = some texts) :
        s.resolve c owner (texts.eraseDups.map Json.str) =
          (texts.eraseDups.map Json.str).mapM (named (s.owned .user owner)) := by
      refine s.resolve_eq h owner (by simpa using hfew texts hgiven) fun j hj => ?_
      obtain ⟨text, -, rfl⟩ := List.mem_map.1 hj
      rfl
    rcases map_eq_map (map_uuid_named hrows htexts hresolve) with he | ⟨users, texts, husers, hlisted, huuids⟩
    · exact .inl he
    · have howned := Store.mem_owned_of_listed h husers
      exact .inr ⟨users, texts, husers, hlisted, huuids, fun u hu => hrows u (howned u hu)⟩
  next hmany =>
    simp only [Members.AreFew, not_forall, Nat.not_lt] at hmany
    obtain ⟨texts, hgiven, hmany⟩ := hmany
    refine .inl ⟨_, ?_, rfl⟩
    rw [Store.listed, Members.identifiers, identifiers?_eq htexts, hgiven]
    exact s.resolve_many h owner (by simpa using hmany)

/-- A list of members fails as its texts do, or names the members of the group with these texts. -/
theorem resolveMembers_cases (s : Store) (group : Row .group) {members : Json}
    (htexts : Members.AreTexts members) :
    (∃ e, ((Members.identifiers members Members.patchExpectation).mapError Failure.refused).bind
        (s.resolveMembers c group) = .error e ∧ listedAmong (s.memberUuids group) members = .error e) ∨
    ∃ users texts, ((Members.identifiers members Members.patchExpectation).mapError Failure.refused).bind
        (s.resolveMembers c group) = .ok users ∧ listedAmong (s.memberUuids group) members = .ok texts ∧
      users.map Row.uuid = texts.eraseDups ∧ ∀ u ∈ users, u ∈ s.users.rows := by
  have hrows : ∀ u ∈ s.membersOf group, u ∈ s.users.rows := fun _ => Store.mem_of_mem_membersOf
  have hnamed := map_uuid_named hrows htexts fun texts _ => s.resolveMembers_eq h group (texts.eraseDups.map Json.str)
  rcases map_eq_map hnamed with he | ⟨users, texts, husers, hlisted, huuids⟩
  · exact .inl he
  · obtain ⟨identifiers, -, hresolve⟩ := bind_eq_ok.1 husers
    rw [s.resolveMembers_eq h] at hresolve
    refine .inr ⟨users, texts, husers, hlisted, huuids, fun u hu => ?_⟩
    obtain ⟨j, -, hfound⟩ := exists_of_mem_mapM hresolve hu
    exact hrows u (mem_of_named hfound).1

/-- Members are filtered by the column of their identifiers. -/
theorem column_of_memberFilter {path : Option String} {e : Filter.Expression}
    (he : memberFilter c path = .ok e) : e.column = "uuid" := by
  obtain ⟨name, hname⟩ := mem_of_memberFilter he
  rw [h.memberAttributes, List.mem_singleton] at hname
  exact congrArg Prod.snd hname

end Members

end Roster
