import Roster.Proofs.ConfigurationErrors
import Roster.Proofs.NewRows
import Roster.Proofs.Reasons
import Roster.Proofs.Sample

/-!
Creating a resource.

A request to create a resource is refused for the first of several reasons that applies; then nothing is stored. If
none applies, one row is written: the first one that has the natural key that the document gives, or a new one if there
is none. It has the attributes and the status that the document gives, a group has the users that the document lists as
further members, and all else is as it was before.
-/

set_option autoImplicit false

namespace Roster

variable {k : Kind} {s s' : Store} {owner : Company} {r r' : Row k} {document : Json}

/-! ## Reasons to refuse -/

/-- The settings keep resources from being overwritten by new ones. -/
def Settings.preventsUpdate (s : Settings) : Kind → Bool
  | .user => s.userPreventUpdate
  | .group => s.groupPreventUpdate

/-- A new group need not be given members. -/
def Json.malformed? (document : Json) : Kind → Option Failure
  | .user => none
  | .group =>
    if document.fieldOrNull "members" = .null then none
    else Members.malformed? (document.fieldOrNull "members") Members.postExpectation

namespace Store

/-- The first resource of a company that has the natural key that a document gives. -/
def recognised? (s : Store) (owner : Company) (k : Kind) (document : Json) : Option (Row k) :=
  (s.owned k owner).find? fun r => recognises k r.key (document.key k).text

/-- A resource that has the natural key is there and must not be overwritten. -/
def conflict? (s : Store) (prevented : Bool) (owner : Company) (k : Kind) (document : Json) : Option Failure :=
  if prevented && (s.recognised? owner k document).isSome then
    some (.refused (.conflict k.name (Column.key k).name (document.key k)))
  else none

/-- A resource has to be inserted, and the identifier that has been drawn for it is in use. -/
def clash? (s : Store) (uuid : String) (owner : Company) (k : Kind) (document : Json) : Option Failure :=
  if (s.recognised? owner k document).isNone && (s.table k).rows.any fun r => r.uuid == uuid then some (.fault .store)
  else none

/-- The reasons to refuse a request to create a resource, in the order in which they are looked at, each with the
status of the answer. -/
def creationReasons (s : Store) (prevented : Bool) (uuid : String) (owner : Company) (k : Kind) (document : Json) :
    List (Nat × Option Failure) := [
  (422, document.incomplete? k),
  (400, document.unclear?),
  (400, document.malformed? k),
  (500, excess? (document.members k)),
  (404, s.unknown? owner (document.members k)),
  (409, s.conflict? prevented owner k document),
  (500, s.clash? uuid owner k document)]

/-- Of the resources that have the natural key the one with the lowest number is the first. -/
theorem id_le_of_recognised? (hfound : s.recognised? owner k document = some r) {x : Row k}
    (hx : x ∈ s.owned k owner) (hkey : recognises k x.key (document.key k).text = true) : r.id ≤ x.id := by
  obtain ⟨-, before, after, hrows, hbefore⟩ := List.find?_eq_some_iff_append.1 hfound
  have hordered := s.pairwise_owned k owner
  rw [hrows] at hx hordered
  rcases List.mem_append.1 hx with hx | hx
  · have hother := hbefore x hx
    rw [hkey] at hother
    cases hother
  · rcases List.mem_cons.1 hx with rfl | hx
    · exact Int.le_refl x.id
    · exact Int.le_of_lt ((List.pairwise_cons.1 (List.pairwise_append.1 hordered).2.1).1 x hx)

end Store

theorem Config.preventUpdate_of_build {s : Settings} {c : Config} (h : build s = .ok c) (k : Kind) :
    (c.resource k).preventUpdate = s.preventsUpdate k := by
  obtain ⟨users, groups, rfl⟩ := eq_of_build h
  cases k <;> rfl

section Standard

variable {ctx : Context} (h : ctx.config.IsStandard)

include h

/-- The members that a group is to have as well. -/
theorem decides_newUsers (s : Store) (owner : Company) (hplain : document.IsPlain k) :
    Decides [(400, document.malformed? k), (500, excess? (document.members k)),
        (404, s.unknown? owner (document.members k))]
      (s.newUsers ctx.config owner k document) fun users =>
        users.map Row.uuid = (document.members k).map Json.text ∧ ∀ u ∈ users, u ∈ s.owned .user owner := by
  cases k with
  | user => exact .done rfl rfl ⟨rfl, fun u hu => absurd hu List.not_mem_nil⟩
  | group =>
    have hlisted := decides_listed h s owner Members.postExpectation hplain.members
    rw [Store.newUsers.eq_def, Json.malformed?, Json.members]
    generalize document.fieldOrNull "members" = members at hlisted ⊢
    cases members
    case null => exact .done rfl rfl ⟨rfl, fun u hu => absurd hu List.not_mem_nil⟩
    all_goals exact hlisted

/-- What a request to create a resource comes to before anything is written. -/
theorem decides_creation (s : Store) (owner : Company) (hobject : document.isObject = true)
    (hplain : document.IsPlain k) (htexts : ∀ p ∈ document.attributes k, p.2 = .null ∨ p.2.isText = true) :
    Decides [(422, document.incomplete? k), (400, document.unclear?), (400, document.malformed? k),
        (500, excess? (document.members k)), (404, s.unknown? owner (document.members k)),
        (409, s.conflict? (ctx.config.resource k).preventUpdate owner k document)]
      (s.creation ctx.config owner k document) fun p =>
        (p.attributes = (Schema.writable k).extract document ∧ ∀ p ∈ document.attributes k, p.2.isText = true) ∧
        (document.fieldOrNull "active").status? = some p.status ∧
        (p.users.map Row.uuid = (document.members k).map Json.text ∧ ∀ u ∈ p.users, u ∈ s.owned .user owner) ∧
        p.existing = s.recognised? owner k document := by
  have hkey : ((Schema.writable k).extract document).lookup (ctx.config.resource k).naturalKey =
      some (document.key k) := by
    rw [h.naturalKey, Schema.extract_writable]
    cases k <;> rfl
  refine (decides_attributes h hobject htexts).bind fun attributes hattributes => ?_
  refine (decides_status document).bind fun status hstatus => ?_
  refine (decides_newUsers h s owner hplain).bind fun users husers => ?_
  rw [hattributes.1, hkey]
  have hfound : s.findBy k owner (ctx.config.resource k).naturalKey (document.key k)
      (ctx.config.resource k).ignoreCase = .ok (s.recognised? owner k document) :=
    s.findBy_key_of_plain h owner (hplain.attributes _ (document.key_mem_attributes k))
  dsimp only
  rw [hfound, ok_bind, Store.conflict?, h.name, h.naturalKey, Bool.and_comm]
  by_cases hprevented : ((s.recognised? owner k document).isSome && (ctx.config.resource k).preventUpdate) = true
  · rw [if_pos hprevented, if_pos hprevented]
    exact .refused rfl rfl rfl
  · rw [if_neg hprevented, if_neg hprevented]
    exact .done rfl rfl ⟨⟨rfl, hattributes.2⟩, hstatus, husers, rfl⟩

end Standard

/-! ## The row -/

namespace Store

/-- The row that a request to create a resource writes, as it is before: the one that has been found, or a blank
one. -/
def drafted (s : Store) (clock : Nat) (owner : Company) (uuid : String) (found : Option (Row k)) : Row k :=
  found.getD (.blank k (s.table k).nextId uuid owner clock)

/-- A row takes the place of the one that has been found, or it is new if none has been. -/
def Takes (s : Store) (found : Option (Row k)) (r : Row k) (s' : Store) : Prop :=
  match found with
  | some x => s.Rewrites x r s'
  | none => s.Inserts r s'

namespace Takes

variable {found : Option (Row k)}

theorem mem (h : s.Takes found r s') : r ∈ (s'.table k).rows := by
  cases found with
  | some x => exact Rewrites.mem_new h
  | none => exact Inserts.mem h

theorem rewrites {t : Store} (h : s.Takes found r t) (hw : t.Rewrites r r' s') : s.Takes found r' s' := by
  cases found with
  | some x => exact Rewrites.trans h hw
  | none => exact Inserts.rewrites h hw

theorem store (h : s.Takes found r s') : ∃ t : Table k, s' = s.withTable k t := by
  cases found with
  | some x =>
    obtain ⟨t, ht, -⟩ := Rewrites.store h
    exact ⟨t, ht⟩
  | none =>
    obtain ⟨t, ht, -⟩ := Inserts.store h
    exact ⟨t, ht⟩

end Takes

end Store

/-- The attributes are written to the row that has been found or to a new one. -/
theorem decides_upserted (s : Store) (owner : Company) {found : Option (Row k)}
    (hfound : s.recognised? owner k document = found) (htexts : ∀ p ∈ document.attributes k, ∃ text, p.2 = .str text)
    (clock : Nat) (uuid : String) :
    Decides [(500, s.clash? uuid owner k document)]
      (s.upserted clock owner uuid found ((Schema.writable k).extract document)) fun p =>
        p.1 = (s.drafted clock owner uuid found).written clock document ∧ s.Takes found p.1 p.2 := by
  cases found with
  | some x =>
    have hx : x ∈ s.owned k owner := List.mem_of_find?_eq_some hfound
    have hcompany : x.company ≠ .null := by
      rw [(Store.mem_owned.1 hx).2]
      exact Cell.noConfusion
    obtain ⟨t, hupdate, hw⟩ := Store.exists_update_extract (Store.mem_rows_of_owned hx) hcompany htexts clock
    rw [Store.clash?, hfound]
    exact .done rfl hupdate ⟨rfl, hw⟩
  | none =>
    have hupserted : s.upserted clock owner uuid none ((Schema.writable k).extract document) =
        s.insert clock owner uuid (document.attributes k) := by
      rw [Store.upserted, Store.columns_extract]
      rfl
    rw [hupserted, Store.insert_attributes htexts, Store.clash?, hfound, Option.isNone_none, Bool.true_and]
    have hfree := (s.table k).isFree_blank uuid owner clock document
    cases hany : (s.table k).rows.any fun r => r.uuid == uuid with
    | true =>
      rw [hany] at hfree
      rw [Table.insert?_eq_none (by rw [hfree]; exact Bool.false_ne_true)]
      exact .refused rfl rfl rfl
    | false =>
      rw [hany] at hfree
      obtain ⟨t, ht⟩ := Table.exists_insert? hfree
      rw [ht]
      exact .done rfl rfl ⟨rfl, .of_insert? ht⟩

/-! ## The store -/

/-- In a store a resource has been created: its row is in the place of the one that has been found, or it is a new one
among the others if none has been found; a group has the users that have been named as further members, in the order in
which they have been named first; and nothing else is different. -/
structure Store.IsCreated (s : Store) (clock : Nat) (owner : Company) (found : Option (Row k)) (r : Row k)
    (identifiers : List Json) (s' : Store) : Prop where
  companies : s'.companies = s.companies
  others : ∀ k', k' ≠ k → s'.table k' = s.table k'
  overwritten : ∀ x, found = some x → (s'.table k).rows = (s.table k).rows.map fun y => if y.id = x.id then r else y
  inserted : found = none → (∀ x ∈ (s.table k).rows, x.id ≠ r.id ∧ x.uuid ≠ r.uuid) ∧
    ∃ before after, (s.table k).rows = before ++ after ∧ (s'.table k).rows = before ++ r :: after
  user : k = .user → s'.memberships = s.memberships
  group : k = .group → ∃ users : List (Row .user), (∀ u ∈ users, u ∈ s.owned .user owner) ∧
    users.map Row.uuid = identifiers.map Json.text ∧
    s'.memberships = s.memberships ++ (newcomers ((s.memberships.filter fun m => m.group == r.id).map Membership.user)
      (users.map Row.id)).map fun id => ⟨r.id, id, clock⟩
  members : k = .group → ∀ group : Row .group, group.id = r.id →
    s'.memberUuids group = including (s.memberUuids group) (identifiers.map Json.text)

theorem Store.IsCreated.of_takes {found : Option (Row k)} {t : Store} (h : s.Takes found r t)
    {identifiers : List Json} {users : List (Row .user)} (huuids : users.map Row.uuid = identifiers.map Json.text)
    (husers : ∀ u ∈ users, u ∈ s.owned .user owner) (clock : Nat) :
    s.IsCreated clock owner found r identifiers (t.withNewMembers clock users k r) := by
  have hothers : t.companies = s.companies ∧ t.memberships = s.memberships ∧
      ∀ k', k' ≠ k → t.table k' = s.table k' := by
    obtain ⟨u, rfl⟩ := h.store
    exact ⟨companies_withTable s u, memberships_withTable s u, fun _ => table_withTable_of_ne s u⟩
  obtain ⟨hcompanies, hmemberships, htables⟩ := hothers
  constructor
  · exact (t.companies_withNewMembers clock users r).trans hcompanies
  · exact fun k' hk => (t.table_withNewMembers clock users r k').trans (htables k' hk)
  · rintro x rfl
    have hw : s.Rewrites x r t := h
    rw [table_withNewMembers, hw.rows, Table.overwritten, hw.id]
  · rintro rfl
    obtain ⟨hfresh, u, rfl, hrows⟩ : s.Inserts r t := h
    rw [table_withNewMembers, table_withTable]
    exact ⟨hfresh, hrows⟩
  · rintro rfl
    exact hmemberships
  · rintro rfl
    refine ⟨users, husers, huuids, ?_⟩
    rw [withNewMembers, memberships_addMembers, memberNumbers, hmemberships]
  · rintro rfl group hid
    have husers' : t.users = s.users := htables .user Kind.noConfusion
    have hrows : ∀ u ∈ users, u ∈ t.users.rows := by
      intro u hu
      rw [husers']
      exact mem_rows_of_owned (husers u hu)
    have hsame : t.memberUuids r = s.memberUuids r := by
      rw [memberUuids, membersOf, hmemberships, husers', ← membersOf, ← memberUuids]
    rw [memberUuids_of_id _ hid, memberUuids_of_id _ hid, withNewMembers, memberUuids_addMembers clock hrows, hsame,
      huuids]

/-- What a request to create a resource comes to, and how many identifiers it draws. -/
theorem decides_created {ctx : Context} (h : ctx.config.IsStandard) (s : Store) (owner : Company) (uuid : String)
    (hobject : document.isObject = true) (hplain : document.IsPlain k)
    (htexts : ∀ p ∈ document.attributes k, p.2 = .null ∨ p.2.isText = true) :
    Decides (s.creationReasons (ctx.config.resource k).preventUpdate uuid owner k document)
      (s.created ctx owner k uuid document) fun p =>
        p.1 = (s.drafted ctx.clock owner uuid (s.recognised? owner k document)).replaced ctx.clock document ∧
        s.IsCreated ctx.clock owner (s.recognised? owner k document) p.1 (document.members k) p.2 ∧
        s.drawnFor ctx.config owner k document = (s.recognised? owner k document).isNone.toNat := by
  refine (decides_creation h s owner hobject hplain htexts).eq_ok.bind fun p hp => ?_
  obtain ⟨hcreation, ⟨hattributes, htexts⟩, hstatus, ⟨huuids, husers⟩, hexisting⟩ := hp
  have hdrawn : s.drawnFor ctx.config owner k document = (s.recognised? owner k document).isNone.toNat := by
    rw [Store.drawnFor, hcreation, ← hexisting]
  have hupserted := decides_upserted s owner rfl (hplain.exists_str htexts) ctx.clock uuid
  rw [Store.carriedOut, hattributes, hexisting]
  refine hupserted.bind_ok fun q hq => ?_
  obtain ⟨r, t⟩ := q
  obtain ⟨rfl, htakes⟩ := hq
  obtain ⟨t', hw, hcompleted⟩ :=
    Store.exists_completed htakes.mem hstatus fun s => s.withNewMembers ctx.clock p.users
  exact ⟨_, hcompleted, rfl, .of_takes (htakes.rewrites hw) huuids husers ctx.clock, hdrawn⟩

theorem Store.drawnFor_le_one (s : Store) (c : Config) (owner : Company) (k : Kind) (document : Json) :
    s.drawnFor c owner k document ≤ 1 := by
  rw [drawnFor]
  split
  · exact Bool.toNat_le _
  · exact Nat.zero_le 1

/-- If services can be opened, a request to create a resource from an object whose attributes are absent, null or texts
is refused for the first reason that applies, and then nothing is stored. If none applies the resource has been created:
the first one that has its natural key is overwritten, which is the one with the lowest number, or a new one is
inserted; its row and its further members are what the document says, all else is as it was before, and the answer shows
the resource. -/
theorem creates_or_refuses {s : Settings} {c : Config} (hb : Config.build s = .ok c)
    (hs : s.customUserAttributes = []) (hsizes : s.HasPageSizes) (d : Directory) (clock : Nat) (owner : Company)
    (k : Kind) (document : Json) (hobject : document.isObject = true) (hplain : document.IsPlain k)
    (htexts : ∀ p ∈ document.attributes k, p.2 = .null ∨ p.2.isText = true) :
    let found := d.store.recognised? owner k document
    let uuid := Uuid.numbered (d.drawn + 1)
    let outcome := d.perform ⟨c, clock⟩ owner (.create k document)
    (∀ r, found = some r → ∀ x ∈ d.store.owned k owner,
      recognises k x.key (document.key k).text = true → r.id ≤ x.id) ∧
    match firstReason (d.store.creationReasons (s.preventsUpdate k) uuid owner k document) with
    | some (status, failure) =>
      outcome.result = .error failure ∧ (Answer.failure failure).status = status ∧
        ∃ n ≤ 1, outcome.directory = { d with drawn := d.drawn + n }
    | none => ∃ s',
      d.store.IsCreated clock owner found ((d.store.drafted clock owner uuid found).replaced clock document)
        (document.members k) s' ∧
      outcome.result = .ok (s'.document k ((d.store.drafted clock owner uuid found).replaced clock document)) ∧
      outcome.directory = { d with store := s', drawn := d.drawn + found.isNone.toNat } := by
  intro found uuid outcome
  refine ⟨fun r hr x => Store.id_le_of_recognised? hr, ?_⟩
  have h : (Context.mk c clock).config.IsStandard := Config.isStandard_of_build hb hs
  obtain ⟨pager, hserve⟩ := Config.exists_serve hb hsizes.1 hsizes.2 k
  obtain ⟨hresult, hdirectory⟩ : outcome.result = _ ∧ outcome.directory = _ :=
    Directory.perform_of_serve h d owner (.create k document) hserve
  rw [hresult, hdirectory]
  have hcreated := decides_created h d.store owner uuid hobject hplain htexts
  rw [Config.preventUpdate_of_build hb] at hcreated
  cases hcreated with
  | refused hfirst hstatus hcreated =>
    rw [hfirst]
    dsimp only [Directory.answer]
    rw [hcreated]
    exact ⟨rfl, hstatus, _, d.store.drawnFor_le_one c owner k document, rfl⟩
  | @done p hfirst hcreated hp =>
    obtain ⟨hrow, hstore, hdrawn⟩ := hp
    rw [hfirst]
    dsimp only [Directory.answer]
    rw [hcreated, hdrawn]
    rw [hrow] at hstore
    refine ⟨p.2, hstore, ?_, rfl⟩
    rw [← hrow]
    rfl

/-- Describes a user who is known to no company yet. -/
private def newUser : Json := .obj [
  ("name", .obj [("givenName", .str "Cy"), ("familyName", .str "Lee")]),
  ("emails", .arr [.obj [("value", .str "cy@acme.example")]])]

/-- Describes the group once more, with another address and further members; the group is to be archived. -/
private def staffWith (uuids : List String) : Json := .obj [
  ("displayName", .str "Staff"),
  ("email", .str "all@acme.example"),
  ("active", .bool false),
  ("members", Members.ofTexts uuids)]

theorem creates_or_refuses_sample :
    (∃ s', Sample.store.IsCreated 5 Sample.acme none
        (⟨4, Uuid.numbered 4, .integer 1, .user "Cy" "Lee" "cy@acme.example" none, none, 5, 5⟩ : Row .user) [] s' ∧
      (Sample.directory.perform ⟨Sample.config true, 5⟩ Sample.acme (.create .user newUser)).directory =
        { Sample.directory with store := s', drawn := 4 }) ∧
    (∃ s', Sample.store.IsCreated 5 Sample.acme (some Sample.staff)
        ⟨1, "g1", .integer 1, .group "Staff" "all@acme.example", some 5, 0, 5⟩ [.str "u2"] s' ∧
      (Sample.directory.perform ⟨Sample.config true, 5⟩ Sample.acme (.create .group (staffWith ["u2"]))).directory =
        { Sample.directory with store := s' }) ∧
    (Sample.directory.perform ⟨Sample.config true, 5⟩ Sample.acme (.create .group (staffWith ["u3"]))).result =
      .error (.refused (.notFound (.str "u3"))) := by
  have hcreated (k : Kind) (document : Json) := creates_or_refuses (Sample.build_config true) rfl
    Settings.hasPageSizes_default Sample.directory 5 Sample.acme k document
  have huser := (hcreated .user newUser rfl (by decide +kernel) (by decide +kernel)).2
  have hgroup := (hcreated .group (staffWith ["u2"]) rfl (by decide +kernel) (by decide +kernel)).2
  have hother := (hcreated .group (staffWith ["u3"]) rfl (by decide +kernel) (by decide +kernel)).2
  let reasons (k : Kind) (document : Json) := Sample.directory.store.creationReasons
    (Settings.preventsUpdate { atomicPatch := true } k) (Uuid.numbered (Sample.directory.drawn + 1)) Sample.acme k
    document
  have hnew : firstReason (reasons .user newUser) = none := by decide +kernel
  have hagain : firstReason (reasons .group (staffWith ["u2"])) = none := by decide +kernel
  have hunknown : firstReason (reasons .group (staffWith ["u3"])) = some (404, .refused (.notFound (.str "u3"))) := by
    decide +kernel
  have hnone : Sample.directory.store.recognised? Sample.acme .user newUser = none := by decide +kernel
  have hfound : Sample.directory.store.recognised? Sample.acme .group (staffWith ["u2"]) = some Sample.staff := by
    decide +kernel
  rw [hnew, hnone] at huser
  rw [hagain, hfound] at hgroup
  rw [hunknown] at hother
  obtain ⟨s', hstore, -, hdirectory⟩ := huser
  obtain ⟨s'', hstore', -, hdirectory'⟩ := hgroup
  exact ⟨⟨s', hstore, hdirectory⟩, ⟨s'', hstore', hdirectory'⟩, hother.1⟩

/-- A user of the sample has the identifier that is drawn next. -/
private def clashing : Directory :=
  { Sample.directory with
    store := { Sample.store with users := ⟨[{ Sample.ada with uuid := Uuid.numbered 4 }], by simp, by simp⟩ } }

private theorem attributes_staffWith (uuids : List String) : (staffWith uuids).attributes .group =
    [(.displayName, .str "Staff"), (.email, .str "all@acme.example")] := rfl

/-- More members than one statement looks for are too many, whoever they are. -/
private theorem firstReason_staffWith_crowd (prevented : Bool) (uuid : String) :
    firstReason (Sample.directory.store.creationReasons prevented uuid Sample.acme .group (staffWith Sample.crowd)) =
      some (500, .fault .store) := by
  have hcomplete : (staffWith Sample.crowd).incomplete? .group = none := rfl
  have hclear : (staffWith Sample.crowd).unclear? = none := rfl
  have hformed : (staffWith Sample.crowd).malformed? .group = none := by
    have hvalues : Members.values? ((staffWith Sample.crowd).fieldOrNull "members") = _ :=
      Members.values?_ofTexts Sample.crowd
    rw [Json.malformed?, Members.malformed?, hvalues]
    rfl
  have hexcess : excess? ((staffWith Sample.crowd).members .group) = some (.fault .store) := by
    apply excess?_of_many
    rw [Json.members_of_ofTexts Sample.nodup_crowd rfl, List.length_map, Sample.length_crowd]
  rw [Store.creationReasons, hcomplete, hclear, hformed, hexcess]
  rfl

private theorem texts_staffWith (uuids : List String) :
    ∀ p ∈ (staffWith uuids).attributes .group, p.2 = .null ∨ p.2.isText = true := by
  rw [attributes_staffWith]
  decide

private theorem isPlain_staffWith_crowd : (staffWith Sample.crowd).IsPlain .group := by
  refine .of_ofTexts Sample.nodup_crowd rfl ?_
  rw [attributes_staffWith]
  decide

/-- A group with more members than one statement looks for is not created. -/
private theorem perform_create_crowd : (Sample.directory.perform ⟨Sample.config true, 5⟩ Sample.acme
    (.create .group (staffWith Sample.crowd))).result = .error (.fault .store) := by
  have h : (Context.mk (Sample.config true) 5).config.IsStandard :=
    Config.isStandard_of_build (Sample.build_config true) rfl
  obtain ⟨pager, hserve⟩ := Config.exists_serve (Sample.build_config true) Settings.hasPageSizes_default.1
    Settings.hasPageSizes_default.2 .group
  obtain ⟨hcreated, -⟩ := (decides_created h Sample.directory.store Sample.acme
    (Uuid.numbered (Sample.directory.drawn + 1)) rfl isPlain_staffWith_crowd (texts_staffWith Sample.crowd)).eq_error
      (firstReason_staffWith_crowd _ _)
  rw [(Directory.perform_of_serve h Sample.directory Sample.acme (.create .group (staffWith Sample.crowd)) hserve).1]
  dsimp only [Directory.answer]
  rw [hcreated]
  rfl

/-- Three conditions cannot be left out. Under a negative page size a resource is not created although there is no
reason to refuse it. And if services can be opened, a request can fail for more than what is wrong about it: when it
lists more members than one statement of the store looks for, or when the identifier that has been drawn for a new row
is in use. -/
theorem not_creates_or_refuses :
    (¬∀ {s : Settings} {c : Config}, Config.build s = .ok c → s.customUserAttributes = [] →
      ∀ (d : Directory) (clock : Nat) (owner : Company) (k : Kind) (document : Json),
        document.isObject = true → document.IsPlain k →
        (∀ p ∈ document.attributes k, p.2 = .null ∨ p.2.isText = true) →
        (∀ reason ∈ d.store.creationReasons (s.preventsUpdate k) (Uuid.numbered (d.drawn + 1)) owner k document,
          reason.2 = none) →
        ∃ body, (d.perform ⟨c, clock⟩ owner (.create k document)).result = .ok body) ∧
    ∀ d ∈ [Sample.directory, clashing],
      ¬∀ {s : Settings} {c : Config}, Config.build s = .ok c → s.customUserAttributes = [] → s.HasPageSizes →
        ∀ (clock : Nat) (owner : Company) (k : Kind) (document : Json), document.isObject = true →
          document.IsPlain k → (∀ p ∈ document.attributes k, p.2 = .null ∨ p.2.isText = true) →
          ∀ failure, (d.perform ⟨c, clock⟩ owner (.create k document)).result = .error failure →
            (Answer.failure failure).status ≠ 500 := by
  constructor
  · intro hcreated
    have hbuild : Config.build { defaultPageSize := -1 } = .ok (Sample.built { defaultPageSize := -1 }) := rfl
    obtain ⟨body, hbody⟩ := hcreated hbuild rfl Sample.directory 5 Sample.acme .user newUser rfl (by decide +kernel)
      (by decide +kernel) (by decide +kernel)
    have hrefused : (Sample.directory.perform ⟨Sample.built { defaultPageSize := -1 }, 5⟩ Sample.acme
        (.create .user newUser)).result = .error (.refused (.configuration .pageSize)) := by
      decide +kernel
    cases hrefused.symm.trans hbody
  · intro d hd hdesigned
    have hdesigned := hdesigned (Sample.build_config true) rfl Settings.hasPageSizes_default 5 Sample.acme
    rcases List.mem_cons.1 hd with rfl | hd
    · exact hdesigned .group (staffWith Sample.crowd) rfl isPlain_staffWith_crowd (texts_staffWith Sample.crowd) _
        perform_create_crowd rfl
    · obtain rfl := List.mem_singleton.1 hd
      have hfault : (clashing.perform ⟨Sample.config true, 5⟩ Sample.acme (.create .user newUser)).result =
          .error (.fault .store) := by decide +kernel
      exact hdesigned .user newUser rfl (by decide +kernel) (by decide +kernel) _ hfault rfl

end Roster
