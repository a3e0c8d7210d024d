import Roster.Proofs.ConfigurationErrors
import Roster.Proofs.Edits
import Roster.Proofs.Reasons
import Roster.Proofs.Sample

/-!
Replacing a resource.

A request to replace a resource is refused for the first of several reasons that applies; then nothing is changed. If
none applies, the row has the attributes and the status that the document gives, a group has the users that it lists
as members, and all else is as it was before.
-/

set_option autoImplicit false

namespace Roster

variable {k : Kind} {s : Store} {owner : Company} {r : Row k} {document : Json}

/-! ## Reasons to refuse -/

namespace Json

/-- A group has to be given a list of members. -/
def unlisted? (document : Json) : Kind → Option Failure
  | .user => none
  | .group =>
    if (Members.values? (document.fieldOrNull "members")).isSome then none
    else some (.refused (.members Members.putExpectation))

end Json

namespace Store

/-- The first user of the company who is found by an address is another one. -/
def taken? (s : Store) (owner : Company) : {k : Kind} → Row k → Json → Option Failure
  | .user, r, address =>
    match (s.owned .user owner).find? fun u => recognises .user u.key address.text with
    | some u => if u.id = r.id then none else some (.refused (.conflict "User" "email" address))
    | none => none
  | .group, _, _ => none

/-- The resource of a company with an identifier. -/
def resource? (s : Store) (owner : Company) (k : Kind) (identifier : Json) : Option (Row k) :=
  (s.owned k owner).find? fun r => r.uuid == identifier.text

def absent? (s : Store) (owner : Company) (k : Kind) (identifier : Json) : Option Failure :=
  if (s.resource? owner k identifier).isSome then none else some (.refused (.notFound identifier))

/-- What a document may be wrong about, in the order in which it is looked at, each with the status of the answer. -/
def objections (s : Store) (owner : Company) (document : Json) (r : Row k) : List (Nat × Option Failure) := [
  (400, document.unlisted? k),
  (500, excess? (document.members k)),
  (404, s.unknown? owner (document.members k)),
  (400, document.unclear?),
  (422, document.incomplete? k),
  (409, s.taken? owner r (document.key k))]

/-- The reasons to refuse a request to replace a resource: the resource comes first, and then the document. -/
def reasons (s : Store) (owner : Company) (k : Kind) (identifier document : Json) : List (Nat × Option Failure) :=
  (404, s.absent? owner k identifier) ::
    ((s.resource? owner k identifier).map (s.objections owner document)).getD []

end Store

section Standard

variable {ctx : Context} (h : ctx.config.IsStandard)

include h

/-- The members that a group is to have are decided first. -/
theorem decides_replacedUsers (s : Store) (owner : Company) (hplain : document.IsPlain k) :
    Decides [(400, document.unlisted? k), (500, excess? (document.members k)),
        (404, s.unknown? owner (document.members k))]
      (s.replacedUsers ctx.config owner k document) fun users =>
        users.map Row.uuid = (document.members k).map Json.text ∧ ∀ u ∈ users, u ∈ s.owned .user owner := by
  cases k with
  | user => exact .done rfl rfl ⟨rfl, fun u hu => absurd hu List.not_mem_nil⟩
  | group => exact decides_listed h s owner Members.putExpectation hplain.members

/-- An address that attributes give a user decides whether they may have it. -/
theorem decides_address (s : Store) (owner : Company) (u : Row .user) {attributes : Schema.Values} {address : Json}
    (haddress : attributes.lookup "email" = some address) (hnull : address.isNull = false) :
    Decides [(500, torn? [address]), (409, s.taken? owner u address)] (s.checkKey ctx.config owner u attributes)
      fun _ => True := by
  have hresource : (ctx.config.resource .user).name = "User" ∧ (ctx.config.resource .user).naturalKey = "email" :=
    ⟨h.name .user, h.naturalKey .user⟩
  have hchecked : s.checkKey ctx.config owner u attributes =
      (s.findBy .user owner "email" address (ctx.config.resource .user).ignoreCase).bind fun found =>
        match found with
        | some other =>
          if other.id != u.id then .error (.refused (.conflict "User" "email" address)) else .ok ()
        | none => .ok () := by
    rw [Store.checkKey, hresource.1, hresource.2, haddress, h.uniqueKey_user]
    cases address
    case null => cases hnull
    all_goals
      dsimp only
      rw [if_pos rfl]
      congr 1
      funext found
      cases found <;> rfl
  have hfound := decides_findBy h s owner .user address
  rw [hresource.2] at hfound
  rw [hchecked]
  refine hfound.bind fun found hfirst => ?_
  subst hfirst
  rw [Store.taken?]
  cases (s.owned .user owner).find? fun u => recognises .user u.key address.text with
  | none => exact .done rfl rfl trivial
  | some other =>
    dsimp only
    by_cases hid : other.id = u.id
    · rw [if_pos hid]
      have hsame : ¬(other.id != u.id) = true := by simp [hid]
      exact .done (a := ()) rfl (if_neg hsame) trivial
    · rw [if_neg hid]
      exact .refused rfl rfl (if_pos (bne_iff_ne.2 hid))

/-- A user is not given the address of another one. -/
theorem decides_checkKey (s : Store) (owner : Company) (u : Row .user) (hplain : document.IsPlain .user)
    (htexts : ∀ p ∈ document.attributes .user, p.2.isText = true) :
    Decides [(409, s.taken? owner u (document.key .user))]
      (s.checkKey ctx.config owner u ((Schema.writable .user).extract document)) fun _ => True := by
  have hkey := document.key_mem_attributes .user
  have htorn : torn? [document.key .user] = none := torn?_eq_none.2 fun j hj => by
    rw [List.mem_singleton.1 hj]
    exact hplain.attributes _ hkey
  have hgiven : ((Schema.writable .user).extract document).lookup "email" = some (document.key .user) := by
    rw [Schema.extract_writable]
    rfl
  have haddress := decides_address h s owner u hgiven (Json.isNull_of_isText (htexts _ hkey))
  rw [htorn] at haddress
  exact haddress.of_none

/-- When all has been read, the key is decided, and then the attributes are written. -/
theorem decides_written (hr : r ∈ s.owned k owner) (hplain : document.IsPlain k)
    (htexts : ∀ p ∈ document.attributes k, p.2.isText = true) :
    Decides [(409, s.taken? owner r (document.key k))]
      ((s.checkKey ctx.config owner r ((Schema.writable k).extract document)).bind fun _ =>
        s.update ctx.clock r ((Schema.writable k).extract document)) fun p =>
          p.1 = r.written ctx.clock document ∧ s.Rewrites r p.1 p.2 := by
  obtain ⟨hmem, howner⟩ := Store.mem_owned.1 hr
  have hcompany : r.company ≠ .null := by
    rw [howner]
    exact Cell.noConfusion
  obtain ⟨t, hupdate, hw⟩ := Store.exists_update_extract hmem hcompany (hplain.exists_str htexts) ctx.clock
  cases k with
  | user => exact (decides_checkKey h s owner r hplain htexts).bind_ok fun _ _ => ⟨_, hupdate, rfl, hw⟩
  | group =>
    rw [s.checkKey_group h owner r]
    exact .cons (fun _ hfailure => nomatch hfailure) fun _ => .nil hupdate ⟨rfl, hw⟩

end Standard

/-! ## The store -/

/-- In a store a resource has been replaced: its row is another, a group has the users that have been named as its
members, in the order in which they have been named first and all since then, and nothing else is different. -/
structure Store.IsReplaced (s : Store) (clock : Nat) (owner : Company) (r r' : Row k) (identifiers : List Json)
    (s' : Store) : Prop where
  companies : s'.companies = s.companies
  others : ∀ k', k' ≠ k → s'.table k' = s.table k'
  rows : (s'.table k).rows = (s.table k).rows.map fun x => if x.id = r.id then r' else x
  user : k = .user → s'.memberships = s.memberships
  group : k = .group → ∃ users : List (Row .user), (∀ u ∈ users, u ∈ s.owned .user owner) ∧
    users.map Row.uuid = identifiers.map Json.text ∧
    s'.memberships = s.memberships.filter (fun m => m.group != r.id) ++
      (users.map Row.id).eraseDups.map fun id => ⟨r.id, id, clock⟩
  members : k = .group → ∀ group : Row .group, group.id = r.id →
    s'.memberUuids group = (identifiers.map Json.text).eraseDups

theorem Store.IsReplaced.of_rewrites {r' : Row k} {t : Store} (hw : s.Rewrites r r' t) {identifiers : List Json}
    {users : List (Row .user)} (huuids : users.map Row.uuid = identifiers.map Json.text)
    (husers : ∀ u ∈ users, u ∈ s.owned .user owner) (clock : Nat) :
    s.IsReplaced clock owner r r' identifiers (t.withMembers clock users k r') := by
  have hothers : t.companies = s.companies ∧ ∀ k', k' ≠ k → t.table k' = s.table k' := by
    obtain ⟨u, rfl, -⟩ := hw.store
    exact ⟨companies_withTable s u, fun _ => table_withTable_of_ne s u⟩
  constructor
  · exact (t.companies_withMembers clock users r').trans hothers.1
  · exact fun k' hk => (t.table_withMembers clock users r' k').trans (hothers.2 k' hk)
  · rw [table_withMembers, hw.rows, Table.overwritten, hw.id]
  · rintro rfl
    exact hw.memberships
  · rintro rfl
    refine ⟨users, husers, huuids, ?_⟩
    rw [withMembers, memberships_addMembers, memberNumbers_clearMembers, newcomers_nil_left, clearMembers,
      hw.memberships, hw.id]
  · rintro rfl group hid
    have hrows : ∀ u ∈ users, u ∈ (t.clearMembers r').users.rows := by
      intro u hu
      have husers' : t.users = s.users := hothers.2 .user Kind.noConfusion
      rw [clearMembers, husers']
      exact mem_rows_of_owned (husers u hu)
    rw [memberUuids_of_id _ (hid.trans hw.id.symm), withMembers, memberUuids_addMembers clock hrows,
      memberUuids_clearMembers, including_nil_left, huuids]

/-- When the resource has been found, the document decides. -/
theorem decides_rewritten {ctx : Context} (h : ctx.config.IsStandard) (hr : r ∈ s.owned k owner)
    (hobject : document.isObject = true) (hplain : document.IsPlain k)
    (htexts : ∀ p ∈ document.attributes k, p.2 = .null ∨ p.2.isText = true) :
    Decides (s.objections owner document r) (s.rewritten ctx owner r document) fun p =>
      p.1 = r.replaced ctx.clock document ∧ s.IsReplaced ctx.clock owner r p.1 (document.members k) p.2 := by
  refine (decides_replacedUsers h s owner hplain).bind fun users ⟨huuids, husers⟩ => ?_
  refine (decides_status document).bind fun status hstatus => ?_
  refine (decides_attributes h hobject htexts).bind fun attributes ⟨hattributes, htexts⟩ => ?_
  subst hattributes
  have hassoc : (do
      s.checkKey ctx.config owner r ((Schema.writable k).extract document)
      let p ← s.update ctx.clock r ((Schema.writable k).extract document)
      p.2.completed ctx.clock p.1 status fun s => s.withMembers ctx.clock users) =
      ((s.checkKey ctx.config owner r ((Schema.writable k).extract document)).bind fun _ =>
        s.update ctx.clock r ((Schema.writable k).extract document)) >>= fun p =>
          p.2.completed ctx.clock p.1 status fun s => s.withMembers ctx.clock users := by
    cases s.checkKey ctx.config owner r ((Schema.writable k).extract document) <;> rfl
  refine Eq.mpr (congrArg (fun x => Decides _ x _) hassoc) ?_
  refine (decides_written h hr hplain htexts).bind_ok fun p hp => ?_
  obtain ⟨r', t⟩ := p
  obtain ⟨rfl, hw⟩ := hp
  obtain ⟨t', hw', hcompleted⟩ :=
    Store.exists_completed hw.mem_new hstatus fun s => s.withMembers ctx.clock users
  exact ⟨_, hcompleted, rfl, .of_rewrites (hw.trans hw') huuids husers ctx.clock⟩

theorem decides_get {c : Config} (h : c.IsStandard) (s : Store) (owner : Company) (k : Kind) {identifier : Json}
    (hplain : identifier.isTorn = false) :
    Decides [(404, s.absent? owner k identifier)] (s.get c k owner identifier) fun r =>
      s.resource? owner k identifier = some r := by
  rw [s.get_eq h owner hplain, named, Store.absent?, Store.resource?]
  cases (s.owned k owner).find? fun r => r.uuid == identifier.text with
  | some r => exact .done rfl rfl rfl
  | none =>
    refine .refused rfl ?_ rfl
    cases identifier
    case torn => cases hplain
    all_goals rfl

theorem decides_replaced {ctx : Context} (h : ctx.config.IsStandard) (s : Store) (owner : Company) {identifier : Json}
    (hidentifier : identifier.isTorn = false) (hobject : document.isObject = true) (hplain : document.IsPlain k)
    (htexts : ∀ p ∈ document.attributes k, p.2 = .null ∨ p.2.isText = true) :
    Decides (s.reasons owner k identifier document) (s.replaced ctx owner k identifier document) fun p =>
      ∃ r ∈ s.owned k owner, r.uuid = identifier.text ∧
        p.1 = r.replaced ctx.clock document ∧ s.IsReplaced ctx.clock owner r p.1 (document.members k) p.2 := by
  refine (decides_get h s owner k hidentifier).bind fun r hr => ?_
  have hmem : r ∈ s.owned k owner := List.mem_of_find?_eq_some hr
  have huuid : r.uuid = identifier.text := by simpa using List.find?_some hr
  rw [hr]
  exact (decides_rewritten h hmem hobject hplain htexts).mono fun p hp => ⟨r, hmem, huuid, hp⟩

/-- If services can be opened, a request to replace a resource by an object whose attributes are absent, null or texts
is refused for the first reason that applies, and then nothing is changed. If none applies the resource has been
replaced: its row and its members are what the document says, all else is as it was before, and the answer shows the
resource. -/
theorem replaces_or_refuses {s : Settings} {c : Config} (hb : Config.build s = .ok c)
    (hs : s.customUserAttributes = []) (hsizes : s.HasPageSizes) (d : Directory) (clock : Nat) (owner : Company)
    (k : Kind) (identifier document : Json) (hidentifier : identifier.isTorn = false)
    (hobject : document.isObject = true) (hplain : document.IsPlain k)
    (htexts : ∀ p ∈ document.attributes k, p.2 = .null ∨ p.2.isText = true) :
    match firstReason (d.store.reasons owner k identifier document) with
    | some (status, failure) =>
      (d.perform ⟨c, clock⟩ owner (.replace k identifier document)).result = .error failure ∧
        (Answer.failure failure).status = status ∧
        (d.perform ⟨c, clock⟩ owner (.replace k identifier document)).directory = d
    | none => ∃ r ∈ d.store.owned k owner, r.uuid = identifier.text ∧
      ∃ s', d.store.IsReplaced clock owner r (r.replaced clock document) (document.members k) s' ∧
        (d.perform ⟨c, clock⟩ owner (.replace k identifier document)).result =
          .ok (s'.document k (r.replaced clock document)) ∧
        (d.perform ⟨c, clock⟩ owner (.replace k identifier document)).directory = { d with store := s' } := by
  have h : (Context.mk c clock).config.IsStandard := Config.isStandard_of_build hb hs
  obtain ⟨pager, hserve⟩ := Config.exists_serve hb hsizes.1 hsizes.2 k
  obtain ⟨hresult, hdirectory⟩ := Directory.perform_of_serve h d owner (.replace k identifier document) hserve
  rw [hresult, hdirectory, Directory.answer]
  cases decides_replaced h d.store owner hidentifier hobject hplain htexts with
  | refused hfirst hstatus hreplaced =>
    rw [hfirst, hreplaced]
    exact ⟨rfl, hstatus, rfl⟩
  | @done p hfirst hreplaced hp =>
    obtain ⟨r, hr, huuid, hrow, hstore⟩ := hp
    rw [hfirst, hreplaced]
    rw [hrow] at hstore
    refine ⟨r, hr, huuid, p.2, hstore, ?_, rfl⟩
    rw [← hrow]
    rfl

/-- Gives the group another name and members; the group is to be archived. -/
private def renamed (uuids : List String) : Json := .obj [
  ("displayName", .str "Team"),
  ("email", .str "team@acme.example"),
  ("active", .int 0),
  ("members", Members.ofTexts uuids)]

/-- Gives a user another name and the address of Ada. -/
private def renamedUser (givenName : String) : Json := .obj [
  ("name", .obj [("givenName", .str givenName), ("familyName", .str "King")]),
  ("emails", .arr [.obj [("value", .str "ADA@acme.example")]])]

theorem replaces_or_refuses_sample :
    (∃ s', Sample.store.IsReplaced 5 Sample.acme Sample.staff
        ⟨1, "g1", .integer 1, .group "Team" "team@acme.example", some 5, 0, 5⟩ [.str "u2", .str "u1"] s' ∧
      (Sample.directory.perform ⟨Sample.config true, 5⟩ Sample.acme
        (.replace .group (.str "g1") (renamed ["u2", "u1", "u2"]))).directory =
        { Sample.directory with store := s' }) ∧
    (Sample.directory.perform ⟨Sample.config true, 5⟩ Sample.acme
      (.replace .user (.str "u2") (renamedUser "Bob"))).result =
        .error (.refused (.conflict "User" "email" (.str "ADA@acme.example"))) := by
  have hgroup := replaces_or_refuses (Sample.build_config true) rfl Settings.hasPageSizes_default Sample.directory 5
    Sample.acme .group (.str "g1") (renamed ["u2", "u1", "u2"]) rfl rfl (by decide +kernel) (by decide +kernel)
  have huser := replaces_or_refuses (Sample.build_config true) rfl Settings.hasPageSizes_default Sample.directory 5
    Sample.acme .user (.str "u2") (renamedUser "Bob") rfl rfl (by decide +kernel) (by decide +kernel)
  have hnone : firstReason (Sample.directory.store.reasons Sample.acme .group (.str "g1")
      (renamed ["u2", "u1", "u2"])) = none := by decide +kernel
  have hconflict : firstReason (Sample.directory.store.reasons Sample.acme .user (.str "u2") (renamedUser "Bob")) =
      some (409, .refused (.conflict "User" "email" (.str "ADA@acme.example"))) := by decide +kernel
  rw [hnone] at hgroup
  rw [hconflict] at huser
  obtain ⟨r, hr, -, s', hstore, -, hdirectory⟩ := hgroup
  obtain rfl : r = Sample.staff := List.mem_singleton.1 hr
  exact ⟨⟨s', hstore, hdirectory⟩, huser.1⟩

private theorem attributes_renamed (uuids : List String) : (renamed uuids).attributes .group =
    [(.displayName, .str "Team"), (.email, .str "team@acme.example")] := rfl

/-- More members than one statement looks for are too many, whoever they are. -/
private theorem firstReason_crowd : firstReason (Sample.directory.store.reasons Sample.acme .group (.str "g1")
    (renamed Sample.crowd)) = some (500, .fault .store) := by
  have hfound : Sample.directory.store.resource? Sample.acme .group (.str "g1") = some Sample.staff := by
    decide +kernel
  have hlisted : (renamed Sample.crowd).unlisted? .group = none := by
    have hvalues : Members.values? ((renamed Sample.crowd).fieldOrNull "members") = _ :=
      Members.values?_ofTexts Sample.crowd
    rw [Json.unlisted?, hvalues]
    rfl
  have hexcess : excess? ((renamed Sample.crowd).members .group) = some (.fault .store) := by
    apply excess?_of_many
    rw [Json.members_of_ofTexts Sample.nodup_crowd rfl, List.length_map, Sample.length_crowd]
  rw [Store.reasons, Store.absent?, hfound, Option.map_some, Option.getD_some, Store.objections, hlisted, hexcess]
  rfl

private theorem texts_renamed (uuids : List String) :
    ∀ p ∈ (renamed uuids).attributes .group, p.2 = .null ∨ p.2.isText = true := by
  rw [attributes_renamed]
  decide

private theorem isPlain_renamed_crowd : (renamed Sample.crowd).IsPlain .group := by
  refine .of_ofTexts Sample.nodup_crowd rfl ?_
  rw [attributes_renamed]
  decide

/-- A group is not replaced by one with more members than one statement looks for. -/
private theorem perform_replace_crowd : (Sample.directory.perform ⟨Sample.config true, 5⟩ Sample.acme
    (.replace .group (.str "g1") (renamed Sample.crowd))).result = .error (.fault .store) := by
  have h : (Context.mk (Sample.config true) 5).config.IsStandard :=
    Config.isStandard_of_build (Sample.build_config true) rfl
  obtain ⟨pager, hserve⟩ := Config.exists_serve (Sample.build_config true) Settings.hasPageSizes_default.1
    Settings.hasPageSizes_default.2 .group
  have hidentifier : (Json.str "g1").isTorn = false := rfl
  obtain ⟨hreplaced, -⟩ := (decides_replaced h Sample.directory.store Sample.acme hidentifier rfl isPlain_renamed_crowd
    (texts_renamed Sample.crowd)).eq_error firstReason_crowd
  rw [(Directory.perform_of_serve h Sample.directory Sample.acme
    (.replace .group (.str "g1") (renamed Sample.crowd)) hserve).1, Directory.answer]
  exact congrArg (fun x => (Directory.changed Sample.directory x).1) hreplaced

/-- Two conditions cannot be left out. Under a negative page size a resource is not replaced although there is no reason
to refuse it. And if services can be opened, a request for a group can fail for more than what is wrong about it: when
it lists more members than one statement of the store looks for. -/
theorem not_replaces_or_refuses :
    (¬∀ {s : Settings} {c : Config}, Config.build s = .ok c → s.customUserAttributes = [] →
      ∀ (d : Directory) (clock : Nat) (owner : Company) (k : Kind) (identifier document : Json),
        identifier.isTorn = false → document.isObject = true → document.IsPlain k →
        (∀ p ∈ document.attributes k, p.2 = .null ∨ p.2.isText = true) →
        (∀ reason ∈ d.store.reasons owner k identifier document, reason.2 = none) →
        ∃ body, (d.perform ⟨c, clock⟩ owner (.replace k identifier document)).result = .ok body) ∧
    ¬∀ {s : Settings} {c : Config}, Config.build s = .ok c → s.customUserAttributes = [] → s.HasPageSizes →
      ∀ (d : Directory) (clock : Nat) (owner : Company) (k : Kind) (identifier document : Json),
        identifier.isTorn = false → document.isObject = true → document.IsPlain k →
        (∀ p ∈ document.attributes k, p.2 = .null ∨ p.2.isText = true) →
        ∀ failure, (d.perform ⟨c, clock⟩ owner (.replace k identifier document)).result = .error failure →
          (Answer.failure failure).status ≠ 500 := by
  constructor
  · intro hreplaced
    have hbuild : Config.build { defaultPageSize := -1 } = .ok (Sample.built { defaultPageSize := -1 }) := rfl
    obtain ⟨body, hbody⟩ := hreplaced hbuild rfl Sample.directory 5 Sample.acme .user (.str "u1")
      (renamedUser "Ann") rfl rfl (by decide +kernel) (by decide +kernel) (by decide +kernel)
    have hrefused : (Sample.directory.perform ⟨Sample.built { defaultPageSize := -1 }, 5⟩ Sample.acme
        (.replace .user (.str "u1") (renamedUser "Ann"))).result =
          .error (.refused (.configuration .pageSize)) := by decide +kernel
    cases hrefused.symm.trans hbody
  · intro hdesigned
    exact hdesigned (Sample.build_config true) rfl Settings.hasPageSizes_default Sample.directory 5 Sample.acme .group
      (.str "g1") (renamed Sample.crowd) rfl rfl isPlain_renamed_crowd (texts_renamed Sample.crowd) _
      perform_replace_crowd rfl

end Roster
