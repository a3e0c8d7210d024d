import Roster.Proofs.Creation
import Roster.Proofs.CustomAttributes
import Roster.Proofs.OrderedMembers
import Roster.Proofs.Replacement

/-!
Users who are listed are all heeded.

A request on a group lists users by values of any sort. A value means the user whose identifier is its text, and values
that count as the same are looked for once. As long as values that count as the same have the same text, no value is
passed over: the request succeeds only if each names somebody, and then exactly those who are named have been added,
have become the members of the group, or have been taken out.
-/

set_option autoImplicit false

namespace Roster

open Step

namespace Members

/-- Values that count as the same have the same text. -/
def AreDistinguished (values : List Json) : Prop :=
  ∀ v ∈ values, ∀ w ∈ values, Json.same v w = true → v.text = w.text

instance (values : List Json) : Decidable (AreDistinguished values) :=
  inferInstanceAs (Decidable (∀ v ∈ values, ∀ w ∈ values, Json.same v w = true → v.text = w.text))

theorem areDistinguished_str (texts : List String) : AreDistinguished (texts.map Json.str) := by
  intro v hv w hw hsame
  obtain ⟨a, -, rfl⟩ := List.mem_map.1 hv
  obtain ⟨b, -, rfl⟩ := List.mem_map.1 hw
  rw [Json.same, beq_iff_eq] at hsame
  rw [hsame]

/-- What becomes of users who are listed: they are added to the members of a group, they become its members, or they
are taken out. -/
inductive Use
  | add
  | set
  | remove

/-- One statement of the store can look for the users who are listed. Those who are to be taken out are not looked for
in the store. -/
def Use.Fits : Use → List Json → Prop
  | .add, values | .set, values => (values.eraseDupsBy Json.same).length < Store.maxVariables
  | .remove, _ => True

/-- What becomes of the members of a group. -/
def Use.apply : Use → List String → List String → List String
  | .add, members, texts => including members texts
  | .set, _, texts => texts.eraseDups
  | .remove, members, texts => members.filter fun uuid => !texts.contains uuid

end Members

/-- An operation lists users. -/
inductive PatchOperation.Lists (o : PatchOperation) : Members.Use → Json → Prop
  | add (hname : o.name = "add") (hpath : o.path = none ∨ o.path = some "members") : o.Lists .add o.addedMembers
  | set (hname : o.name = "replace") (hpath : o.path = some "members") : o.Lists .set o.valueOrNull
  | remove (hname : o.name = "remove") (hpath : o.path = some "members") {members : Json}
    (hvalue : o.value = some members) : o.Lists .remove members

namespace Store

/-- The users who may be listed: those of the company, or the members where they are to be taken out. -/
def eligible (s : Store) (owner : Company) (group : Row .group) : Members.Use → List (Row .user)
  | .add | .set => s.owned .user owner
  | .remove => s.membersOf group

/-- The users whom an operation lists; those to be taken out must not be more than one statement names. -/
def sought (s : Store) (c : Config) (owner : Company) (group : Row .group) (members : Json) :
    Members.Use → Except Failure (List (Row .user))
  | .add | .set => s.listed c owner members Members.patchExpectation
  | .remove =>
    ((Members.identifiers members Members.patchExpectation).mapError .refused).bind fun identifiers =>
      (s.resolveMembers c group identifiers).bind fun users =>
        if users.length < maxVariables then .ok users else .error (.fault .store)

def withUsers (s : Store) (clock : Nat) (group : Row .group) (users : List (Row .user)) : Members.Use → Store
  | .add => s.addMembers clock group users
  | .set => (s.clearMembers group).addMembers clock group users
  | .remove => s.withoutMembers group users

end Store

/-! ## Looking for users -/

/-- Users are looked for by values among others, which may be too many for the store to look for. If they are found then
each value names one of those others, and exactly those are found whom a value names; and if a value names nobody, one
that does so is not found. -/
structure FindsAll (among : List (Row .user)) (values : List Json) (few : Prop)
    (found : Except Failure (List (Row .user))) : Prop where
  known : ∀ users, found = .ok users → ∀ v ∈ values, v.text ∈ among.map Row.uuid
  mem : ∀ users, found = .ok users → ∀ u ∈ users, u ∈ among
  uuids : ∀ users, found = .ok users →
    ∀ old, including old (users.map Row.uuid) = including old (values.map Json.text)
  unknown : (∃ v ∈ values, v.text ∉ among.map Row.uuid) → few → (∀ v ∈ values, v.isTorn = false) →
    ∃ v ∈ values, v.text ∉ among.map Row.uuid ∧ found = .error (.refused (.notFound v))
  excess : ¬few → found = .error (.fault .store)

namespace FindsAll

variable {among : List (Row .user)} {values : List Json} {few : Prop}

theorem of_torn {fault : Fault} (hfew : few) (htorn : ∃ v ∈ values, v.isTorn = true) :
    FindsAll among values few (.error (.fault fault)) where
  known _ h := nomatch h
  mem _ h := nomatch h
  uuids _ h := nomatch h
  unknown _ _ hplain := by
    obtain ⟨v, hv, htorn⟩ := htorn
    rw [hplain v hv] at htorn
    cases htorn
  excess hmany := absurd hfew hmany

theorem of_many (hmany : ¬few) : FindsAll among values few (.error (.fault .store)) where
  known _ h := nomatch h
  mem _ h := nomatch h
  uuids _ h := nomatch h
  unknown _ hfew := absurd hfew hmany
  excess _ := rfl

/-- Where all have been found, something else can go wrong later. -/
theorem of_ok {users : List (Row .user)} (h : FindsAll among values few (.ok users)) (e : Failure) :
    FindsAll among values few (.error e) where
  known _ h := nomatch h
  mem _ h := nomatch h
  uuids _ h := nomatch h
  unknown := fun ⟨v, hv, hunknown⟩ => absurd (h.known users rfl v hv) hunknown
  excess hmany := nomatch h.excess hmany

theorem few_of_ok {users : List (Row .user)} (h : FindsAll among values few (.ok users)) : few := by
  by_contra hmany
  exact nomatch h.excess hmany

/-- Values that have the same text as others that count as the same need not be looked for. -/
theorem of_mapM_named (hfew : few) (hsame : Members.AreDistinguished values) :
    FindsAll among values few ((values.eraseDupsBy Json.same).mapM (named among)) := by
  have huuids (users : List (Row .user)) (h : (values.eraseDupsBy Json.same).mapM (named among) = .ok users)
      (old : List String) : including old (users.map Row.uuid) = including old (values.map Json.text) := by
    rw [map_uuid_of_mapM_named h]
    exact including_map_eraseDupsBy hsame old
  have hmem (users : List (Row .user)) (h : (values.eraseDupsBy Json.same).mapM (named among) = .ok users) :
      ∀ u ∈ users, u ∈ among := by
    intro u hu
    obtain ⟨j, -, hj⟩ := exists_of_mem_mapM h hu
    exact (mem_of_named hj).1
  have hknown (users : List (Row .user)) (h : (values.eraseDupsBy Json.same).mapM (named among) = .ok users) :
      ∀ v ∈ values, v.text ∈ among.map Row.uuid := by
    intro v hv
    have htext : v.text ∈ including [] (values.map Json.text) := mem_including.2 (.inr (List.mem_map_of_mem hv))
    rw [← huuids users h, mem_including] at htext
    obtain ⟨u, hu, huuid⟩ := List.mem_map.1 (htext.resolve_left List.not_mem_nil)
    exact List.mem_map.2 ⟨u, hmem users h u hu, huuid⟩
  refine ⟨hknown, hmem, huuids, fun ⟨v, hv, hunknown⟩ _ _ => ?_, fun hmany => absurd hfew hmany⟩
  have hcases := mapM_named_cases among (values.eraseDupsBy Json.same)
  split at hcases
  next j hj =>
    have hnobody := List.find?_some hj
    refine ⟨j, mem_of_mem_eraseDupsBy (List.mem_of_find?_eq_some hj), fun htext => ?_, hcases⟩
    obtain ⟨u, hu, huuid⟩ := List.mem_map.1 htext
    rw [Bool.not_eq_true', List.any_eq_false] at hnobody
    exact hnobody u hu (beq_iff_eq.2 huuid)
  next =>
    obtain ⟨users, husers⟩ := hcases
    exact absurd (hknown users husers v hv) hunknown

end FindsAll

section Standard

variable {c : Config} (h : c.IsStandard) {s : Store} {owner : Company} {group : Row .group} {members : Json}
  {values : List Json} (hvalues : Members.values? members = some values) (hsame : Members.AreDistinguished values)

include h hvalues hsame

theorem findsAll_listed (expected : String) :
    FindsAll (s.owned .user owner) values ((values.eraseDupsBy Json.same).length < Store.maxVariables)
      (s.listed c owner members expected) := by
  have hlisted : s.listed c owner members expected = s.resolve c owner (values.eraseDupsBy Json.same) := by
    rw [Store.listed, Members.identifiers, Members.identifiers?_eq_values?, hvalues]
    rfl
  rw [hlisted]
  rcases s.resolve_cases h owner (values.eraseDupsBy Json.same) with
    ⟨hmany, hresolve⟩ | ⟨hfew, ⟨j, hj, htorn⟩, hresolve⟩ | ⟨hfew, -, hresolve⟩
  · rw [hresolve]
    exact .of_many (Nat.not_lt.2 hmany)
  · rw [hresolve]
    exact .of_torn hfew ⟨j, mem_of_mem_eraseDupsBy hj, htorn⟩
  · rw [hresolve]
    exact .of_mapM_named hfew hsame

theorem findsAll_sought (use : Members.Use) :
    FindsAll (s.eligible owner group use) values (use.Fits values) (s.sought c owner group members use) := by
  cases use with
  | add => exact findsAll_listed h hvalues hsame Members.patchExpectation
  | set => exact findsAll_listed h hvalues hsame Members.patchExpectation
  | remove =>
    have hmembers : s.sought c owner group members .remove =
        ((values.eraseDupsBy Json.same).mapM (named (s.membersOf group))).bind fun users =>
          if users.length < Store.maxVariables then .ok users else .error (.fault .store) := by
      rw [Store.sought, Members.identifiers, Members.identifiers?_eq_values?, hvalues, ← s.resolveMembers_eq h group]
      rfl
    have hfinds : FindsAll (s.membersOf group) values True _ := .of_mapM_named trivial hsame
    rw [hmembers]
    cases hnamed : (values.eraseDupsBy Json.same).mapM (named (s.membersOf group)) with
    | error e =>
      rw [hnamed] at hfinds
      exact hfinds
    | ok users =>
      rw [hnamed] at hfinds
      dsimp only [Except.bind]
      split
      · exact hfinds
      · exact hfinds.of_ok _

end Standard

theorem Store.mem_rows_of_eligible {s : Store} {owner : Company} {group : Row .group} {use : Members.Use}
    {u : Row .user} (hu : u ∈ s.eligible owner group use) : u ∈ s.users.rows := by
  cases use with
  | add => exact mem_rows_of_owned hu
  | set => exact mem_rows_of_owned hu
  | remove => exact mem_of_mem_membersOf hu

/-- What becomes of the members depends on the texts by which users have been looked for. -/
theorem Store.memberUuids_withUsers {s : Store} {group : Row .group} {users : List (Row .user)}
    (husers : ∀ u ∈ users, u ∈ s.users.rows) {texts : List String}
    (huuids : ∀ old, including old (users.map Row.uuid) = including old texts) (clock : Nat) (use : Members.Use) :
    (s.withUsers clock group users use).memberUuids group = use.apply (s.memberUuids group) texts := by
  cases use with
  | add => exact (memberUuids_addMembers clock husers).trans (huuids _)
  | set =>
    have hcleared : ∀ u ∈ users, u ∈ (s.clearMembers group).users.rows := husers
    rw [withUsers, memberUuids_addMembers clock hcleared, memberUuids_clearMembers, huuids, including_nil_left]
    rfl
  | remove =>
    rw [withUsers, memberUuids_withoutMembers husers]
    refine List.filter_congr fun uuid _ => congrArg not ?_
    have hmem : uuid ∈ including [] (users.map Row.uuid) ↔ uuid ∈ including [] texts := by rw [huuids]
    rw [mem_including, mem_including, or_iff_right List.not_mem_nil, or_iff_right List.not_mem_nil] at hmem
    rw [Bool.eq_iff_iff, List.contains_iff_mem, List.contains_iff_mem]
    exact hmem

/-! ## Operations -/

theorem effect_applyOperation_of_lists (ctx : Context) (owner : Company) (s : Store) (group : Row .group)
    {o : PatchOperation} {use : Members.Use} {members : Json} (ho : o.Lists use members) :
    effect (applyOperation ctx owner .group group o) s =
      (s.sought ctx.config owner group members use).map fun users =>
        (group, s.withUsers ctx.clock group users use) := by
  cases ho with
  | add hname hpath =>
    have hlisting : ¬(o.path != none && o.path != some "members") = true := by
      rw [Bool.and_eq_true, bne_iff_ne, bne_iff_ne]
      rintro ⟨hnone, hmembers⟩
      exact hpath.elim hnone hmembers
    have hreplace : o.name ≠ "replace" := by rw [hname]; decide
    rw [applyOperation, if_neg hreplace, if_pos hname, effect_return (local_addListed ctx owner group o),
      effect_addListed, if_neg hlisting, map_map]
    rfl
  | set hname hpath =>
    rw [applyOperation, if_pos hname, effect_replaceInGroup, if_pos (beq_iff_eq.2 hpath)]
    rfl
  | remove hname hpath hvalue =>
    have hreplace : o.name ≠ "replace" := by rw [hname]; decide
    have hadd : o.name ≠ "add" := by rw [hname]; decide
    rw [applyOperation, if_neg hreplace, if_neg hadd, if_pos hname,
      effect_return (local_removeListed ctx owner group o), effect_removeListed, if_pos (beq_iff_eq.2 hpath),
      hvalue, Store.sought, map_bind, map_bind]
    congr 1
    funext identifiers
    rw [map_bind, map_bind]
    congr 1
    funext users
    rw [Store.removeMembers]
    split <;> rfl

/-- Operations go on from where others have come to. -/
theorem Store.patched_append {k : Kind} (ctx : Context) (owner : Company) (s : Store) (r : Row k)
    (before after : List PatchOperation) :
    s.patched ctx owner r (before ++ after) =
      match s.patched ctx owner r before with
      | (.ok r', s') => s'.patched ctx owner r' after
      | (.error e, s') => (.error e, s') := by
  induction before generalizing s r with
  | nil => rfl
  | cons o rest ih =>
    rw [List.cons_append, patched, patched]
    cases effect (applyOperation ctx owner k r o) s with
    | error e => rfl
    | ok p => exact ih p.2 p.1

/-! ## Requests -/

/-- A request that looks for users by values succeeds only if each value names one of those who are eligible, and then
something has been done. If a value names nobody the request fails and leaves a store behind; and if the request gets as
far as to look for the users, it is answered that a value that names none of them is not found, or that there are too
many values to look for. -/
structure Outcome.Heeds (outcome : Outcome Json) (eligible : List (Row .user)) (values : List Json) (few : Prop)
    (left : Store) (looked : Prop) (done : Json → Prop) : Prop where
  succeeds : ∀ body, outcome.result = .ok body → (∀ v ∈ values, v.text ∈ eligible.map Row.uuid) ∧ done body
  fails : (∃ v ∈ values, v.text ∉ eligible.map Row.uuid) →
    outcome.result.isOk = false ∧ outcome.directory.store = left
  unknown : (∃ v ∈ values, v.text ∉ eligible.map Row.uuid) → looked → few → (∀ v ∈ values, v.isTorn = false) →
    ∃ v ∈ values, v.text ∉ eligible.map Row.uuid ∧ outcome.result = .error (.refused (.notFound v)) ∧
      (Answer.failure (.refused (.notFound v))).status = 404
  excess : looked → ¬few → outcome.result = .error (.fault .store) ∧ outcome.directory.store = left

namespace Outcome.Heeds

variable {outcome : Outcome Json} {eligible : List (Row .user)} {values : List Json} {few : Prop} {left : Store}
  {looked : Prop} {done : Json → Prop}

theorem of_known (hknown : ∀ v ∈ values, v.text ∈ eligible.map Row.uuid) (hfew : few)
    (hdone : ∀ body, outcome.result = .ok body → done body) : outcome.Heeds eligible values few left looked done where
  succeeds body hbody := ⟨hknown, hdone body hbody⟩
  fails := fun ⟨v, hv, hunknown⟩ => absurd (hknown v hv) hunknown
  unknown := fun ⟨v, hv, hunknown⟩ => absurd (hknown v hv) hunknown
  excess _ hmany := absurd hfew hmany

theorem mono {looked' : Prop} (h : outcome.Heeds eligible values few left looked done) (hlooked : looked' → looked) :
    outcome.Heeds eligible values few left looked' done :=
  ⟨h.succeeds, h.fails, fun hnobody hlooked' => h.unknown hnobody (hlooked hlooked'),
    fun hlooked' => h.excess (hlooked hlooked')⟩

/-- A request that fails for what went wrong when it looked for the users, if it came so far, heeds all values. -/
theorem of_error {e : Failure} (hresult : outcome.result = .error e) (hstore : outcome.directory.store = left)
    (hfinds : looked → FindsAll eligible values few (.error e)) :
    outcome.Heeds eligible values few left looked done where
  succeeds body hbody := by
    rw [hresult] at hbody
    cases hbody
  fails _ := ⟨by rw [hresult]; rfl, hstore⟩
  unknown hnobody hlooked hfew hplain := by
    obtain ⟨v, hv, htext, he⟩ := (hfinds hlooked).unknown hnobody hfew hplain
    cases he
    refine ⟨v, hv, htext, hresult, ?_⟩
    have hplain := hplain v hv
    cases v
    case torn => cases hplain
    all_goals rfl
  excess hlooked hmany := by
    cases (hfinds hlooked).excess hmany
    exact ⟨hresult, hstore⟩

end Outcome.Heeds

/-- Users are named by their identifiers as texts. -/
private theorem map_text_str (users : List (Row .user)) :
    (users.map fun u => Json.str u.uuid).map Json.text = users.map Row.uuid := by
  rw [List.map_map]
  rfl

section Requests

variable {ctx : Context} (h : ctx.config.IsStandard) {d : Directory} {owner : Company} {document : Json}
  {values : List Json}

include h

/-- A group that has been created is written, and then the users who are listed are added. -/
private theorem exists_takes_of_created {s s' : Store} {uuid : String} {r : Row .group}
    (hcreated : s.created ctx owner .group uuid document = .ok (r, s')) :
    ∃ users found t, s.newUsers ctx.config owner .group document = .ok users ∧ s.Takes found r t ∧
      s' = t.withNewMembers ctx.clock users .group r := by
  obtain ⟨p, hp, hcarried⟩ := bind_eq_ok.1 hcreated
  obtain ⟨hcomplete, -, husers, -, key, -, hfind⟩ := Store.creation_eq_ok.1 hp
  obtain ⟨⟨r₁, s₁⟩, hupserted, hcarried⟩ := bind_eq_ok.1 hcarried
  obtain ⟨⟨r₂, s₂⟩, hsettled, e⟩ := map_eq_ok.1 hcarried
  cases e
  have hprofile := h.profileOnly_complete hcomplete
  have htakes : s.Takes p.existing r₁ s₁ := by
    rcases Store.upserted_cases hprofile hupserted with ⟨found, hfound, hupdate⟩ | ⟨hnone, profile, t, -, ht, rfl⟩
    · rw [hfound] at hfind ⊢
      exact Store.Rewrites.of_update (Store.mem_rows_of_owned (Store.mem_owned_of_findBy hfind)) hprofile hupdate
    · rw [hnone]
      exact Store.Inserts.of_insert? ht
  exact ⟨p.users, p.existing, s₂, husers, htakes.rewrites (.of_settled htakes.mem hsettled), rfl⟩

omit h in
/-- The users who are listed are looked for when the attributes and the status have been read. -/
private theorem created_of_newUsers_error {s : Store} (uuid : String)
    (hcomplete : ((ctx.config.resource .group).complete document).isOk = true)
    (hactive : (parseActive (document.fieldOrNull "active")).isOk = true) {e : Failure}
    (hnew : s.newUsers ctx.config owner .group document = .error e) :
    s.created ctx owner .group uuid document = .error e := by
  rw [Store.created, Store.creation]
  cases hattributes : (ctx.config.resource .group).complete document with
  | error cause =>
    rw [hattributes] at hcomplete
    cases hcomplete
  | ok attributes =>
    cases hstatus : parseActive (document.fieldOrNull "active") with
    | error cause =>
      rw [hstatus] at hactive
      cases hactive
    | ok status =>
      rw [hnew]
      rfl

/-- Users are added to a group that is created. -/
theorem heeds_create (hvalues : Members.values? (document.fieldOrNull "members") = some values)
    (hsame : Members.AreDistinguished values) :
    let outcome := d.perform ctx owner (.create .group document)
    outcome.Heeds (d.store.owned .user owner) values (Members.Use.add.Fits values) d.store
      ((∃ pager, ctx.config.serve .group = .ok pager) ∧
        ((ctx.config.resource .group).complete document).isOk = true ∧
        (parseActive (document.fieldOrNull "active")).isOk = true)
      fun body => ∃ group ∈ outcome.directory.store.owned .group owner,
        body = outcome.directory.store.document .group group ∧
        outcome.directory.store.memberUuids group =
          Members.Use.add.apply (d.store.memberUuids group) (values.map Json.text) := by
  intro outcome
  have hfinds : FindsAll (d.store.owned .user owner) values (Members.Use.add.Fits values) _ :=
    findsAll_listed h hvalues hsame Members.postExpectation
  have hnew : d.store.newUsers ctx.config owner .group document =
      d.store.listed ctx.config owner (document.fieldOrNull "members") Members.postExpectation := by
    rw [Store.newUsers.eq_def]
    generalize document.fieldOrNull "members" = members at hvalues
    cases members
    case null => cases hvalues
    all_goals rfl
  rw [← hnew] at hfinds
  rcases d.perform_cases h owner (.create .group document) with
    ⟨e, hserve, hresult, hdirectory⟩ | ⟨pager, hserve, hresult, hdirectory⟩
  · refine .of_error hresult (congrArg Directory.store hdirectory) ?_
    rintro ⟨⟨pager, hpager⟩, -⟩
    cases hserve.symm.trans hpager
  · dsimp only [Directory.answer, Directory.changed] at hresult hdirectory
    cases hcreated : d.store.created ctx owner .group (Uuid.numbered (d.drawn + 1)) document with
    | error e =>
      rw [hcreated] at hresult hdirectory
      refine .of_error hresult ((congrArg Directory.store hdirectory).trans rfl) ?_
      rintro ⟨-, hcomplete, hactive⟩
      cases hnew : d.store.newUsers ctx.config owner .group document with
      | ok users => exact (hnew ▸ hfinds).of_ok e
      | error e' =>
        have hfails := created_of_newUsers_error (Uuid.numbered (d.drawn + 1)) hcomplete hactive hnew
        cases hcreated.symm.trans hfails
        exact hnew ▸ hfinds
    | ok p =>
      obtain ⟨r, s'⟩ := p
      obtain ⟨users, found, t, husers, htakes, rfl⟩ := exists_takes_of_created h hcreated
      have hmem := Store.mem_owned_of_created h hcreated
      have hmembers :=
        (Store.IsCreated.of_takes htakes (map_text_str users).symm (hfinds.mem users husers) ctx.clock).members rfl r
          rfl
      rw [hcreated] at hresult hdirectory
      have hstore : outcome.directory.store = t.withNewMembers ctx.clock users .group r :=
        congrArg Directory.store hdirectory
      refine .of_known (hfinds.known users husers) (husers ▸ hfinds).few_of_ok fun body hbody => ?_
      cases hresult.symm.trans hbody
      rw [hstore]
      refine ⟨r, hmem, rfl, ?_⟩
      rw [hmembers, map_text_str, hfinds.uuids users husers]
      rfl

/-- Users become the members of a group that is replaced. -/
theorem heeds_replace (hvalues : Members.values? (document.fieldOrNull "members") = some values)
    (hsame : Members.AreDistinguished values) {group : Row .group} (hgroup : group ∈ d.store.owned .group owner) :
    let outcome := d.perform ctx owner (.replace .group (.str group.uuid) document)
    outcome.Heeds (d.store.owned .user owner) values (Members.Use.set.Fits values) d.store
      (∃ pager, ctx.config.serve .group = .ok pager)
      fun _ => outcome.directory.store.memberUuids group =
        Members.Use.set.apply (d.store.memberUuids group) (values.map Json.text) := by
  intro outcome
  have hfinds : FindsAll (d.store.owned .user owner) values (Members.Use.set.Fits values)
      (d.store.replacedUsers ctx.config owner .group document) :=
    findsAll_listed h hvalues hsame Members.putExpectation
  have hget : d.store.get ctx.config .group owner (.str group.uuid) = .ok group :=
    (d.store.get_eq_ok h owner).2 ⟨rfl, hgroup, rfl⟩
  have hreplaced : d.store.replaced ctx owner .group (.str group.uuid) document =
      d.store.rewritten ctx owner group document := by
    rw [Store.replaced_eq, hget]
    rfl
  rcases d.perform_cases h owner (.replace .group (.str group.uuid) document) with
    ⟨e, hserve, hresult, hdirectory⟩ | ⟨pager, hserve, hresult, hdirectory⟩
  · refine .of_error hresult (congrArg Directory.store hdirectory) fun ⟨pager, hpager⟩ => ?_
    cases hserve.symm.trans hpager
  · dsimp only [Directory.answer, Directory.changed] at hresult hdirectory
    rw [hreplaced] at hresult hdirectory
    cases hrewritten : d.store.rewritten ctx owner group document with
    | error e =>
      rw [hrewritten] at hresult hdirectory
      refine .of_error hresult ((congrArg Directory.store hdirectory).trans rfl) fun _ => ?_
      cases hfound : d.store.replacedUsers ctx.config owner .group document with
      | ok users => exact (hfound ▸ hfinds).of_ok e
      | error e' =>
        rw [Store.rewritten, hfound] at hrewritten
        cases hrewritten
        exact hfound ▸ hfinds
    | ok p =>
      obtain ⟨r, s'⟩ := p
      obtain ⟨users, t, husers, hw, rfl⟩ :=
        Store.rewrites_of_rewritten h (Store.mem_rows_of_owned hgroup) hrewritten
      have hmembers :=
        (Store.IsReplaced.of_rewrites hw (map_text_str users).symm (hfinds.mem users husers) ctx.clock).members rfl
          group rfl
      rw [hrewritten] at hdirectory
      have hstore : outcome.directory.store = t.withMembers ctx.clock users .group r :=
        congrArg Directory.store hdirectory
      refine .of_known (hfinds.known users husers) (husers ▸ hfinds).few_of_ok fun _ _ => ?_
      rw [hstore, hmembers, map_text_str, ← including_nil_left, hfinds.uuids users husers, including_nil_left]
      rfl

/-- An operation that lists users fails on what the operations before it have left, or it finds all of them there. -/
private theorem patched_of_lists {members : Json} (hvalues : Members.values? members = some values)
    (hsame : Members.AreDistinguished values) {s s₀ : Store} {group r : Row .group}
    (hgroup : group ∈ s.owned .group owner) {o : PatchOperation} {use : Members.Use} (ho : o.Lists use members)
    {before : List PatchOperation} (hbefore : s.patched ctx owner group before = (.ok r, s₀)) :
    (∃ e, FindsAll (s₀.eligible owner group use) values (use.Fits values) (.error e) ∧
      ∀ after, s.patched ctx owner group (before ++ o :: after) = (.error e, s₀)) ∨
    ∃ s₁, (∀ v ∈ values, v.text ∈ (s₀.eligible owner group use).map Row.uuid) ∧ use.Fits values ∧
      s.patched ctx owner group (before ++ [o]) = (.ok r, s₁) ∧
      s₁.memberUuids group = use.apply (s₀.memberUuids group) (values.map Json.text) := by
  have hid : r.id = group.id :=
    (Store.Revises.of_patched h owner (Store.mem_rows_of_owned hgroup) hbefore).rewrites.id
  have heligible : s₀.eligible owner r use = s₀.eligible owner group use := by
    cases use
    case remove => rw [Store.eligible, Store.membersOf, hid, ← Store.membersOf, ← Store.eligible]
    all_goals rfl
  have hfinds : FindsAll (s₀.eligible owner r use) values (use.Fits values)
      (s₀.sought ctx.config owner r members use) :=
    findsAll_sought h hvalues hsame use
  have heffect := effect_applyOperation_of_lists ctx owner s₀ r ho
  have happend (after : List PatchOperation) :
      s.patched ctx owner group (before ++ o :: after) = s₀.patched ctx owner r (o :: after) := by
    rw [Store.patched_append, hbefore]
  cases hsought : s₀.sought ctx.config owner r members use with
  | error e =>
    rw [hsought] at hfinds heffect
    rw [heligible] at hfinds
    refine .inl ⟨e, hfinds, fun after => ?_⟩
    rw [happend, Store.patched, heffect]
    rfl
  | ok users =>
    have husers := hfinds.mem users hsought
    have hmembers : (s₀.withUsers ctx.clock r users use).memberUuids r = use.apply (s₀.memberUuids r) _ :=
      Store.memberUuids_withUsers (fun u hu => Store.mem_rows_of_eligible (husers u hu))
        (hfinds.uuids users hsought) ctx.clock use
    rw [hsought] at heffect
    refine .inr ⟨s₀.withUsers ctx.clock r users use, heligible ▸ hfinds.known users hsought,
      (hsought ▸ hfinds).few_of_ok, ?_, ?_⟩
    · rw [happend, Store.patched, heffect]
      rfl
    · rw [← Store.memberUuids_of_id _ hid, ← Store.memberUuids_of_id s₀ hid]
      exact hmembers

/-- An operation of a request is on what the operations before it have left of the group: the request heeds the values
that the operation lists, if those operations come to an end. -/
def Directory.HeedsPatch (d : Directory) (ctx : Context) (owner : Company) (group : Row .group) (values : List Json)
    (use : Members.Use) (before : List PatchOperation) (o : PatchOperation) (after : List PatchOperation) : Prop :=
  let patch (operations : List PatchOperation) := d.perform ctx owner (.patch .group (.str group.uuid) operations)
  let s := (patch before).directory.store
  (patch (before ++ o :: after)).Heeds (s.eligible owner group use) values (use.Fits values)
    (if ctx.config.atomicPatch then d.store else s) ((patch before).result.isOk = true)
    fun _ => (patch before).result.isOk = true ∧ (patch (before ++ [o])).result.isOk = true ∧
      (patch (before ++ [o])).directory.store.memberUuids group =
        use.apply (s.memberUuids group) (values.map Json.text)

section Patch

variable {group : Row .group} (hgroup : group ∈ d.store.owned .group owner) {o : PatchOperation} {use : Members.Use}
  (before after : List PatchOperation)

include hgroup

private theorem get_of_owned : d.store.get ctx.config .group owner (.str group.uuid) = .ok group :=
  (d.store.get_eq_ok h owner).2 ⟨rfl, hgroup, rfl⟩

omit hgroup in
private theorem heeds_patch_of_refused {e : ConfigurationError} (hserve : ctx.config.serve .group = .error e) :
    d.HeedsPatch ctx owner group values use before o after := by
  have hrefused (operations : List PatchOperation) :
      (d.perform ctx owner (.patch .group (.str group.uuid) operations)).result =
          .error (.refused (.configuration e)) ∧
        (d.perform ctx owner (.patch .group (.str group.uuid) operations)).directory = d := by
    rcases d.perform_cases h owner (.patch .group (.str group.uuid) operations) with
      ⟨e', hserve', hresult, hdirectory⟩ | ⟨pager, hserve', -⟩
    · cases hserve.symm.trans hserve'
      exact ⟨hresult, hdirectory⟩
    · cases hserve.symm.trans hserve'
  refine .of_error (hrefused _).1 ?_ fun hlooked => ?_
  · rw [(hrefused _).2, (hrefused before).2, ite_self]
  · rw [(hrefused before).1] at hlooked
    cases hlooked

private theorem heeds_patch_of_failed {pager : Pager} (hserve : ctx.config.serve .group = .ok pager) {e : Failure}
    {s₀ : Store} (hbefore : d.store.patched ctx owner group before = (.error e, s₀)) :
    d.HeedsPatch ctx owner group values use before o after := by
  have hpatch := perform_patch ctx owner h d hserve (get_of_owned h hgroup)
  have hwhole : d.store.patched ctx owner group (before ++ o :: after) = (.error e, s₀) := by
    rw [Store.patched_append, hbefore]
  refine .of_error (e := e) ?_ ?_ fun hlooked => ?_
  · rw [(hpatch _).1, hwhole]
    rfl
  · rw [(hpatch _).2, (hpatch before).2, hwhole, hbefore]
    cases ctx.config.atomicPatch <;> rfl
  · rw [(hpatch before).1, hbefore] at hlooked
    cases hlooked

private theorem heeds_patch_of_done {pager : Pager} (hserve : ctx.config.serve .group = .ok pager) {members : Json}
    (hvalues : Members.values? members = some values) (hsame : Members.AreDistinguished values)
    (ho : o.Lists use members) {r : Row .group} {s₀ : Store}
    (hbefore : d.store.patched ctx owner group before = (.ok r, s₀)) :
    d.HeedsPatch ctx owner group values use before o after := by
  have hpatch := perform_patch ctx owner h d hserve (get_of_owned h hgroup)
  have hs : (d.perform ctx owner (.patch .group (.str group.uuid) before)).directory.store = s₀ := by
    rw [(hpatch before).2, hbefore]
    rfl
  unfold Directory.HeedsPatch
  dsimp only
  rw [hs]
  rcases patched_of_lists h hvalues hsame hgroup ho hbefore with
    ⟨e, hfinds, hwhole⟩ | ⟨s₁, hknown, hfew, hhere, hmembers⟩
  · refine .of_error (e := e) ?_ ?_ fun _ => hfinds
    · rw [(hpatch _).1, hwhole]
      rfl
    · rw [(hpatch _).2, hwhole]
      cases ctx.config.atomicPatch <;> rfl
  · refine .of_known hknown hfew fun _ _ => ⟨?_, ?_, ?_⟩
    · rw [(hpatch before).1, hbefore]
      rfl
    · rw [(hpatch _).1, hhere]
      rfl
    · rw [(hpatch _).2, hhere]
      exact hmembers

theorem heeds_patch {members : Json} (hvalues : Members.values? members = some values)
    (hsame : Members.AreDistinguished values) (ho : o.Lists use members) :
    d.HeedsPatch ctx owner group values use before o after := by
  cases hserve : ctx.config.serve .group with
  | error e => exact heeds_patch_of_refused h before after hserve
  | ok pager =>
    obtain ⟨⟨result, s₀⟩, hbefore⟩ : ∃ p, d.store.patched ctx owner group before = p := ⟨_, rfl⟩
    cases result with
    | error e => exact heeds_patch_of_failed h hgroup before after hserve hbefore
    | ok r => exact heeds_patch_of_done h hgroup before after hserve hvalues hsame ho hbefore

end Patch

end Requests

/-- Users are listed in a request to create or to replace a group, or in one of the operations of a PATCH request, by
values of which those that count as the same have the same text. If the request succeeds every text is the identifier of
one who is eligible, and exactly those who are named have been added, have become the members, or have been taken out.
If a value names nobody the request fails and changes nothing, apart from what operations before have committed; and the
answer is that somebody is not found, if the request gets as far as to look for them, or that the store is at fault if
they are more than it can look for. -/
theorem heeds_listed {s : Settings} {c : Config} (hb : Config.build s = .ok c) (clock : Nat) (d : Directory)
    (owner : Company) {members : Json} {values : List Json} (hvalues : Members.values? members = some values)
    (hsame : Members.AreDistinguished values) :
    let perform := d.perform ⟨c, clock⟩ owner
    (∀ document : Json, document.fieldOrNull "members" = members →
      (perform (.create .group document)).Heeds (d.store.owned .user owner) values (Members.Use.add.Fits values) d.store
        (s.HasPageSizes ∧ ((c.resource .group).complete document).isOk = true ∧
          (parseActive (document.fieldOrNull "active")).isOk = true)
        fun body =>
          let s' := (perform (.create .group document)).directory.store
          ∃ group ∈ s'.owned .group owner, body = s'.document .group group ∧
            s'.memberUuids group = Members.Use.add.apply (d.store.memberUuids group) (values.map Json.text)) ∧
    ∀ group ∈ d.store.owned .group owner,
      (∀ document : Json, document.fieldOrNull "members" = members →
        (perform (.replace .group (.str group.uuid) document)).Heeds (d.store.owned .user owner) values
          (Members.Use.set.Fits values) d.store s.HasPageSizes
          fun _ => (perform (.replace .group (.str group.uuid) document)).directory.store.memberUuids group =
            Members.Use.set.apply (d.store.memberUuids group) (values.map Json.text)) ∧
      ∀ (o : PatchOperation) (use : Members.Use), o.Lists use members → ∀ before after : List PatchOperation,
        let patch operations := perform (.patch .group (.str group.uuid) operations)
        let prior := patch before
        (patch (before ++ o :: after)).Heeds (prior.directory.store.eligible owner group use) values (use.Fits values)
          (if s.atomicPatch then d.store else prior.directory.store) (prior.result.isOk = true)
          fun _ => prior.result.isOk = true ∧ (patch (before ++ [o])).result.isOk = true ∧
            (patch (before ++ [o])).directory.store.memberUuids group =
              use.apply (prior.directory.store.memberUuids group) (values.map Json.text) := by
  intro perform
  have h : (Context.mk c.plain clock).config.IsStandard := Config.isStandard_plain hb
  have hserve (hsizes : s.HasPageSizes) : ∃ pager, c.plain.serve .group = .ok pager :=
    Config.exists_serve hb hsizes.1 hsizes.2 .group
  have hplain (request : Request) (hrequest : ∀ payload, request ≠ .create .user payload) :
      d.perform ⟨c.plain, clock⟩ owner request = perform request := d.perform_plain c clock owner hrequest
  refine ⟨fun document hdocument => ?_, fun group hgroup => ⟨fun document hdocument => ?_, ?_⟩⟩
  · have hcreated := @heeds_create _ h d owner document values (hdocument ▸ hvalues) hsame
    rw [hplain (.create .group document) fun _ e => by cases e] at hcreated
    exact hcreated.mono fun ⟨hsizes, hlooked⟩ => ⟨hserve hsizes, hlooked⟩
  · have hreplaced := heeds_replace h (hdocument ▸ hvalues) hsame hgroup
    rw [hplain (.replace .group (.str group.uuid) document) fun _ e => by cases e] at hreplaced
    exact hreplaced.mono hserve
  · intro o use ho before after
    have hpatched := heeds_patch h hgroup before after hvalues hsame ho
    have hpatch (operations : List PatchOperation) := hplain (.patch .group (.str group.uuid) operations)
      fun _ e => by cases e
    have hatomic : c.atomicPatch = s.atomicPatch := Config.atomicPatch_of_build hb
    change Outcome.Heeds _ _ _ _ (if c.atomicPatch then _ else _) _ _ at hpatched
    simp only [hpatch, hatomic] at hpatched
    exact hpatched

private def membersOf (values : List Json) : Json := .arr (values.map fun value => .obj [("value", value)])

private def staffOf (values : List Json) : Json := .obj [
  ("displayName", .str "Staff"), ("email", .str "staff@acme.example"), ("members", membersOf values)]

theorem heeds_listed_sample :
    (Sample.directory.perform ⟨Sample.config true, 5⟩ Sample.acme (.replace .group (.str "g1")
        (staffOf [.str "u2", .str "u1", .str "u2"]))).directory.store.memberUuids Sample.staff = ["u2", "u1"] ∧
      ∃ v ∈ [Json.str "u1", .str "u2"], v.text ∉ Sample.store.memberUuids Sample.staff ∧
        (Sample.directory.perform ⟨Sample.config true, 5⟩ Sample.acme (.patch .group (.str "g1")
          [⟨"remove", some "members", some (membersOf [.str "u1", .str "u2"])⟩])).result =
            .error (.refused (.notFound v)) := by
  have hstaff : Sample.staff ∈ Sample.directory.store.owned .group Sample.acme := by decide +kernel
  have hheeds (texts : List String)
      (hvalues : Members.values? (membersOf (texts.map Json.str)) = some (texts.map Json.str)) :=
    heeds_listed (Sample.build_config true) 5 Sample.directory Sample.acme hvalues (Members.areDistinguished_str texts)
  have hset := ((hheeds ["u2", "u1", "u2"] rfl).2 Sample.staff hstaff).1
    (staffOf [.str "u2", .str "u1", .str "u2"]) rfl
  have hremove := ((hheeds ["u1", "u2"] rfl).2 Sample.staff hstaff).2
    ⟨"remove", some "members", some (membersOf [.str "u1", .str "u2"])⟩ .remove (.remove rfl rfl rfl) [] []
  constructor
  · have hok : (Sample.directory.perform ⟨Sample.config true, 5⟩ Sample.acme (.replace .group (.str "g1")
        (staffOf [.str "u2", .str "u1", .str "u2"]))).result.isOk = true := by decide +kernel
    cases hresult : (Sample.directory.perform ⟨Sample.config true, 5⟩ Sample.acme (.replace .group (.str "g1")
        (staffOf [.str "u2", .str "u1", .str "u2"]))).result with
    | error e =>
      rw [hresult] at hok
      cases hok
    | ok body => exact (hset.succeeds body hresult).2.trans (by decide +kernel)
  · obtain ⟨v, hv, hunknown, hresult, -⟩ := hremove.unknown ⟨.str "u2", by simp, by decide +kernel⟩ (by decide +kernel)
      trivial (by decide +kernel)
    exact ⟨v, hv, hunknown, hresult⟩

/-- Settings that fix the identifier of users. -/
private def fixingUuid : Settings := { customUserAttributes := [("uuid", .str "1")] }

/-- Settings under which a user has been written whom an integer names. -/
private def numbered : Directory :=
  (Sample.directory.perform ⟨Sample.built fixingUuid, 5⟩ Sample.acme (.create .user (.obj [
    ("name", .obj [("givenName", .str "Ada"), ("familyName", .str "King")]),
    ("emails", .arr [.obj [("value", .str "ada@acme.example")]])]))).directory

/-- A truth value that counts as the same as an integer before it is passed over although it names nobody. -/
theorem not_heeds_listed :
    ¬∀ {s : Settings} {c : Config}, Config.build s = .ok c → ∀ (clock : Nat) (d : Directory) (owner : Company)
      {members : Json} {values : List Json}, Members.values? members = some values →
        ∀ group ∈ d.store.owned .group owner, ∀ document : Json, document.fieldOrNull "members" = members →
          ∀ body, (d.perform ⟨c, clock⟩ owner (.replace .group (.str group.uuid) document)).result = .ok body →
            ∀ v ∈ values, v.text ∈ (d.store.owned .user owner).map Row.uuid := by
  intro hall
  have hbuild : Config.build fixingUuid = .ok (Sample.built fixingUuid) := rfl
  have hstaff : Sample.staff ∈ numbered.store.owned .group Sample.acme := by decide +kernel
  have hok : (numbered.perform ⟨Sample.built fixingUuid, 5⟩ Sample.acme (.replace .group (.str Sample.staff.uuid)
      (staffOf [.int 1, .bool true]))).result.isOk = true := by decide +kernel
  cases hresult : (numbered.perform ⟨Sample.built fixingUuid, 5⟩ Sample.acme (.replace .group (.str Sample.staff.uuid)
      (staffOf [.int 1, .bool true]))).result with
  | error e =>
    rw [hresult] at hok
    cases hok
  | ok body =>
    have hvalues : Members.values? (membersOf [.int 1, .bool true]) = some [.int 1, .bool true] := rfl
    have htrue := hall hbuild 5 numbered Sample.acme hvalues Sample.staff hstaff (staffOf [.int 1, .bool true]) rfl body
      hresult (.bool true) (by simp)
    exact absurd htrue (by decide +kernel)

end Roster
