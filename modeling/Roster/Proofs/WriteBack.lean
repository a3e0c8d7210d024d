import Roster.Proofs.Edits
import Roster.Proofs.MembershipInvariant
import Roster.Proofs.NamedMembers
import Roster.Proofs.NaturalKeys
import Roster.Proofs.Renumbering
import Roster.Proofs.Sample
import Roster.Proofs.Upsert

/-!
Writing back what is shown.

The document that shows a resource says of all that a client writes what the row says, and of a group which users
are its members, in their order. When the document is sent back, every value counts as the same as the one that is
there, and the key is found to be in use by the resource itself. Where a group is replaced, its members are taken out
and put in again, so that its memberships begin anew.
-/

set_option autoImplicit false

namespace Roster

variable {k : Kind}

/-! ## Attributes -/

/-- What a client writes of a resource, in the order of the schema. -/
def Profile.attributes : {k : Kind} → Profile k → Schema.Values
  | .user, .user firstName lastName email _ =>
    [("first_name", .str firstName), ("last_name", .str lastName), ("email", .str email)]
  | .group, .group displayName email => [("display_name", .str displayName), ("email", .str email)]

def Row.attributes (r : Row k) : Schema.Values := r.profile.attributes

namespace Store

open Step

variable (s : Store) (r : Row k)

theorem extract_document : (Schema.writable k).extract (s.document k r) = r.attributes := by
  obtain ⟨id, uuid, company, profile, archived, created, updated⟩ := r
  cases profile <;> rfl

theorem extractPresent_document : (Schema.writable k).extractPresent (s.document k r) = r.attributes := by
  obtain ⟨id, uuid, company, profile, archived, created, updated⟩ := r
  cases profile <;> rfl

theorem isObject_document : (s.document k r).isObject = true := by
  cases k <;> rfl

/-- A document gives the status that the row has, or none. -/
theorem exists_status_document :
    ∃ status, parseActive ((s.document k r).fieldOrNull "active") = .ok status ∧
      ∀ (t : Store) (clock : Nat), t.settled clock r status = .ok (r, t) := by
  cases k with
  | user => exact ⟨some r.isActive, rfl, fun _ _ => if_pos rfl⟩
  | group => exact ⟨none, rfl, fun _ _ => rfl⟩

variable {r}

private theorem columns_attributes (r : Row k) :
    ∃ values, columns k r.attributes = .ok values ∧ ∀ v ∈ values, unchanged r v.1 v.2 = true := by
  have hsame (text : String) : Json.same (.str text) (.str text) = true := beq_self_eq_true text
  obtain ⟨id, uuid, company, profile, archived, created, updated⟩ := r
  cases profile with
  | user firstName lastName email alternate =>
    refine ⟨[(.firstName, .str firstName), (.lastName, .str lastName), (.email, .str email)], rfl, ?_⟩
    simp only [List.forall_mem_cons]
    exact ⟨hsame firstName, hsame lastName, hsame email, fun _ hv => absurd hv List.not_mem_nil⟩
  | group displayName email =>
    refine ⟨[(.displayName, .str displayName), (.email, .str email)], rfl, ?_⟩
    simp only [List.forall_mem_cons]
    exact ⟨hsame displayName, hsame email, fun _ hv => absurd hv List.not_mem_nil⟩

theorem update_attributes (clock : Nat) (r : Row k) : s.update clock r r.attributes = .ok (r, s) := by
  obtain ⟨values, hvalues, hunchanged⟩ := columns_attributes r
  exact update_of_unchanged hvalues hunchanged clock

theorem lookup_attributes (r : Row k) {name : String} (hname : name ∈ (Schema.writable k).fields) :
    ∃ text, r.attributes.lookup name = some (.str text) ∧ r.field? name = some (.str text) := by
  obtain ⟨id, uuid, company, profile, archived, created, updated⟩ := r
  cases profile with
  | user firstName lastName email alternate =>
    have hnames : (Schema.writable .user).fields = ["first_name", "last_name", "email"] := by decide +kernel
    rw [hnames] at hname
    simp only [List.mem_cons, List.not_mem_nil, or_false] at hname
    rcases hname with rfl | rfl | rfl
    · exact ⟨firstName, rfl, rfl⟩
    · exact ⟨lastName, rfl, rfl⟩
    · exact ⟨email, rfl, rfl⟩
  | group displayName email =>
    have hnames : (Schema.writable .group).fields = ["display_name", "email"] := by decide +kernel
    rw [hnames] at hname
    simp only [List.mem_cons, List.not_mem_nil, or_false] at hname
    rcases hname with rfl | rfl
    · exact ⟨displayName, rfl, rfl⟩
    · exact ⟨email, rfl, rfl⟩

theorem lookup_key_attributes (r : Row k) : r.attributes.lookup (Column.key k).name = some (.str r.key) := by
  obtain ⟨id, uuid, company, profile, archived, created, updated⟩ := r
  cases profile <;> rfl

/-- The addresses of the users of a company are texts of ASCII characters, and no two are the same in any case. -/
structure DistinctAddresses (s : Store) (owner : Company) : Prop where
  ascii : ∀ u ∈ s.owned .user owner, Text.isAscii u.key.toList = true
  distinct : s.AddressesDiffer owner

section Standard

variable {c : Config} (h : c.IsStandard) {s} {owner : Company}

include h

/-- The only user with the address of a user is this user. -/
theorem checkKey_attributes (hr : r ∈ s.owned k owner) (haddresses : k = .user → s.DistinctAddresses owner) :
    s.checkKey c owner r r.attributes = .ok () := by
  cases k with
  | group => exact s.checkKey_group h owner r r.attributes
  | user =>
    obtain ⟨hascii, hdistinct⟩ := haddresses rfl
    have hlookup : r.attributes.lookup "email" = some (.str r.key) := lookup_key_attributes r
    refine (s.checkKey_user_eq_ok h owner r r.attributes).2 fun value hvalue _ => ?_
    rw [hlookup] at hvalue
    cases hvalue
    refine ⟨rfl, fun x hx => ?_⟩
    have hrecognised := List.find?_some hx
    change recognises .user x.key r.key = true at hrecognised
    rw [recognises, lower_of_ascii (hascii r hr), beq_iff_eq] at hrecognised
    rw [hdistinct x (List.mem_of_find?_eq_some hx) r hr hrecognised]

omit h in
private theorem eq_empty_of_isMissing {text : String} (h : isMissing (some (.str text)) = true) : text = "" := by
  by_contra hne
  unfold isMissing at h
  split at h
  next hmissing => cases hmissing
  next hmissing => cases hmissing
  next hmissing =>
    cases hmissing
    exact hne rfl
  next => cases h

/-- The document of a resource is complete unless a required attribute is empty. -/
theorem complete_document (s : Store) (hrequired : ∀ name ∈ (c.resource k).required, r.field? name ≠ some (.str "")) :
    (c.resource k).complete (s.document k r) = .ok r.attributes := by
  have hmissing : (c.resource k).required.filter (fun name => isMissing (r.attributes.lookup name)) = [] := by
    refine List.filter_eq_nil_iff.2 fun name hname => ?_
    have hnonempty := hrequired name hname
    rw [h.required, List.mem_eraseDups] at hname
    obtain ⟨text, hlookup, hfield⟩ := lookup_attributes r hname
    rw [hlookup]
    intro hmissing
    rw [hfield, eq_empty_of_isMissing hmissing] at hnonempty
    exact hnonempty rfl
  rw [ResourceConfig.complete, isObject_document, if_pos rfl, h.mutableSchema, extract_document]
  dsimp only
  rw [hmissing]

end Standard

/-! ## Members -/

/-- The users whom the document of a resource lists. -/
def shownMembers (s : Store) : {k : Kind} → Row k → List (Row .user)
  | .user, _ => []
  | .group, group => s.membersOf group

/-- The store with the memberships of a group made anew: they have begun at a reading of the clock, and come behind
those of all other groups in the order in which they were. -/
def rejoined (s : Store) (clock : Nat) : {k : Kind} → Row k → Store
  | .user, _ => s
  | .group, group =>
    { s with
      memberships := (s.memberships.filter fun m => m.group != group.id) ++
        (s.memberships.filter fun m => m.group == group.id).map fun m => { m with created := clock } }

/-- A group with memberships made anew shows the same. -/
theorem document_rejoined (s : Store) (clock : Nat) (r : Row k) :
    (s.rejoined clock r).document k r = s.document k r := by
  cases k with
  | user => rfl
  | group =>
    have hothers : (s.memberships.filter fun m => m.group != r.id).filter (fun m => m.group == r.id) = [] := by
      refine List.filter_eq_nil_iff.2 fun m hm => ?_
      simpa using (List.mem_filter.1 hm).2
    have hown : ((s.memberships.filter fun m => m.group == r.id).map fun m => { m with created := clock }).filter
        (fun m => m.group == r.id) =
          (s.memberships.filter fun m => m.group == r.id).map fun m => { m with created := clock } :=
      List.filter_eq_self.2 fun m hm => by
        obtain ⟨m', hm', rfl⟩ := List.mem_map.1 hm
        exact (List.mem_filter.1 hm').2
    have hmembers : (s.rejoined clock r).membersOf r = s.membersOf r := by
      rw [membersOf, rejoined]
      dsimp only
      rw [List.filter_append, hothers, hown, List.nil_append, List.filterMap_map, membersOf]
      rfl
    exact congrArg r.groupDocument hmembers

section Members

variable {s} (hs : s.Sound) {owner : Company} {group : Row .group}

include hs

/-- Every membership of a group is that of one of its members. -/
theorem map_membersOf (group : Row .group) : (s.membersOf group).map Row.id = s.memberNumbers group := by
  have hfind : ∀ id ∈ s.memberNumbers group, (s.users.find? id).map Row.id = some id := by
    intro id hid
    obtain ⟨m, hm, -, rfl⟩ := mem_memberNumbers.1 hid
    obtain ⟨-, -, u, hu, -, huser, -⟩ := hs.joins m hm
    rw [Table.find?_eq_some_iff.2 ⟨hu, huser⟩, Option.map_some, huser]
  rw [membersOf_eq, List.map_filterMap, List.filterMap_congr hfind, List.filterMap_some]

theorem nodup_memberNumbers (group : Row .group) : (s.memberNumbers group).Nodup := by
  have hlinks : ((s.memberships.filter fun m => m.group == group.id).map fun m => (m.group, m.user)).Nodup :=
    hs.nodup.sublist (List.filter_sublist.map _)
  have hnumbers : (s.memberNumbers group).map (fun id => (group.id, id)) =
      (s.memberships.filter fun m => m.group == group.id).map fun m => (m.group, m.user) := by
    rw [memberNumbers, List.map_map]
    refine List.map_congr_left fun m hm => ?_
    rw [Function.comp_apply, beq_iff_eq.1 (List.mem_filter.1 hm).2]
  rw [← hnumbers] at hlinks
  exact hlinks.of_map _

theorem nodup_memberUuids (group : Row .group) : (s.memberUuids group).Nodup := by
  have hmembers : (s.membersOf group).Nodup := by
    have hnumbers := nodup_memberNumbers hs group
    rw [← map_membersOf hs] at hnumbers
    exact hnumbers.of_map _
  refine hmembers.map_on ?_
  intro u hu v hv huuid
  exact Table.eq_of_uuid (mem_of_mem_membersOf hu) (mem_of_mem_membersOf hv) huuid

/-- The list of members in the document of a group names its members, if they are not too many to be looked for. -/
theorem listed_memberDocuments {c : Config} (h : c.IsStandard) (hgroup : group ∈ s.owned .group owner)
    (expected : String) :
    s.listed c owner (.arr ((s.membersOf group).map Row.memberDocument)) expected =
      if (s.membersOf group).length < maxVariables then .ok (s.membersOf group) else .error (.fault .store) := by
  have htexts : Members.texts? (.arr ((s.membersOf group).map Row.memberDocument)) = some (s.memberUuids group) := by
    rw [memberUuids, Members.texts?, List.mapM_map]
    exact List.mapM_pure
  have hplain : Members.AreTexts (.arr ((s.membersOf group).map Row.memberDocument)) := by
    rintro items ⟨⟩ m hm j hj
    obtain ⟨u, -, rfl⟩ := List.mem_map.1 hm
    cases hj
    exact ⟨u.uuid, rfl⟩
  have hidentifiers : Members.identifiers? (.arr ((s.membersOf group).map Row.memberDocument)) =
      some ((s.memberUuids group).map Json.str) := by
    rw [identifiers?_eq hplain, htexts, Option.map_some, eraseDups_of_nodup (nodup_memberUuids hs group)]
  have htorn : ∀ j ∈ (s.memberUuids group).map Json.str, j.isTorn = false := by
    intro j hj
    obtain ⟨uuid, -, rfl⟩ := List.mem_map.1 hj
    rfl
  have hnamed : ((s.memberUuids group).map Json.str).mapM (named (s.owned .user owner)) = .ok (s.membersOf group) := by
    rw [mapM_eq_ok, memberUuids, List.map_map, List.forall₂_map_left_iff]
    refine List.forall₂_same.2 fun u hu => ?_
    have howned := hs.tenantLocal.mem_owned_of_mem_membersOf hgroup hu
    exact (named_eq_ok fun _ => mem_rows_of_owned).2 ⟨howned, rfl⟩
  have hlength : ((s.memberUuids group).map Json.str).length = (s.membersOf group).length := by
    rw [List.length_map, memberUuids, List.length_map]
  rw [listed, Members.identifiers, hidentifiers, ← hlength]
  dsimp only [Except.mapError]
  rw [ok_bind]
  split
  next hfew => rw [s.resolve_eq h owner hfew htorn, hnamed]
  next hmany => exact s.resolve_many h owner (Nat.not_lt.1 hmany)

/-- Taking out the members of a group and putting them in again makes their memberships anew. -/
theorem withMembers_membersOf (clock : Nat) (group : Row .group) :
    s.withMembers clock (s.membersOf group) .group group = s.rejoined clock group := by
  have hnumbers : ((s.membersOf group).map Row.id).eraseDups = s.memberNumbers group := by
    rw [map_membersOf hs, eraseDups_of_nodup (nodup_memberNumbers hs group)]
  have hanew : (s.memberNumbers group).map (fun id => (⟨group.id, id, clock⟩ : Membership)) =
      (s.memberships.filter fun m => m.group == group.id).map fun m => { m with created := clock } := by
    rw [memberNumbers, List.map_map]
    refine List.map_congr_left fun m hm => ?_
    rw [Function.comp_apply, ← beq_iff_eq.1 (List.mem_filter.1 hm).2]
  rw [withMembers, addMembers_eq, memberships_clearMembers_addMembers, hnumbers, hanew]
  rfl

end Members

/-! ## Requests -/

section Requests

variable {s} {ctx : Context} (h : ctx.config.IsStandard) {owner : Company} (hr : r ∈ s.owned k owner)
  (haddresses : k = .user → s.DistinctAddresses owner)

include h hr haddresses

/-- An operation that replaces the attributes of a resource by its document changes nothing. -/
theorem effect_replaceAttributes_document {o : PatchOperation} (hpath : o.path = none)
    (hvalue : o.value = some (s.document k r)) : effect (replaceAttributes ctx owner r o) s = .ok (r, s) := by
  have hdocument (room : Nat) (schema : Schema) : o.document room schema = .ok (s.document k r) := by
    rw [PatchOperation.document, hpath, PatchOperation.valueOrNull, hvalue]
    rfl
  obtain ⟨status, hstatus, hsettled⟩ := exists_status_document s r
  have hwritten : s.written ctx owner r r.attributes = .ok (r, s) := by
    rw [written, checkKey_attributes h hr haddresses, ok_bind, update_attributes, ite_self]
  rw [effect_replaceAttributes, hdocument]
  change (if (s.document k r).isObject = true then _ else _ : Except Failure (Row k × Store)) = _
  rw [if_pos (isObject_document s r), PatchOperation.status, hstatus, h.mutableSchema, extractPresent_document]
  dsimp only [Except.bind]
  rw [hwritten]
  exact hsettled s ctx.clock

theorem effect_applyOperation_document {o : PatchOperation} (hname : o.name = "replace") (hpath : o.path = none)
    (hvalue : o.value = some (s.document k r)) : effect (applyOperation ctx owner k r o) s = .ok (r, s) := by
  have hreplaced := effect_replaceAttributes_document h hr haddresses hpath hvalue
  cases k with
  | user =>
    rw [applyOperation, if_pos hname]
    exact hreplaced
  | group =>
    have hmembers : ¬(o.path == some "members") = true := by
      rw [hpath]
      decide
    rw [applyOperation, if_pos hname, effect_replaceInGroup, if_neg hmembers]
    exact hreplaced

omit haddresses in
/-- The users who are to be the members of a group that is replaced by its document are those who are. -/
theorem replacedUsers_document (hs : s.Sound) :
    s.replacedUsers ctx.config owner k (s.document k r) =
      if (s.shownMembers r).length < maxVariables then .ok (s.shownMembers r) else .error (.fault .store) := by
  cases k with
  | user => rfl
  | group => exact listed_memberDocuments hs h hr Members.putExpectation

/-- Replacing a resource by its document leaves its row as it is and makes the memberships of a group anew. -/
theorem rewritten_document (hs : s.Sound) (hrequired : ∀ name ∈ (ctx.config.resource k).required,
    r.field? name ≠ some (.str "")) (hfew : (s.shownMembers r).length < maxVariables) :
    s.rewritten ctx owner r (s.document k r) = .ok (r, s.rejoined ctx.clock r) := by
  obtain ⟨status, hstatus, hsettled⟩ := exists_status_document s r
  have husers := replacedUsers_document h hr hs
  rw [if_pos hfew] at husers
  have hmembers : s.withMembers ctx.clock (s.shownMembers r) k r = s.rejoined ctx.clock r := by
    cases k with
    | user => rfl
    | group => exact withMembers_membersOf hs ctx.clock r
  rw [rewritten_eq husers hstatus (complete_document h s hrequired), checkKey_attributes h hr haddresses,
    update_attributes]
  dsimp only [Except.bind]
  rw [completed, hsettled, ← hmembers]
  rfl

omit haddresses in
/-- A group with too many members is not replaced by its document. -/
theorem rewritten_document_of_many (hs : s.Sound) (hmany : maxVariables ≤ (s.shownMembers r).length) :
    s.rewritten ctx owner r (s.document k r) = .error (.fault .store) := by
  rw [rewritten, replacedUsers_document h hr hs, if_neg (Nat.not_lt.2 hmany)]
  rfl

end Requests

end Store

/-- Whatever is shown of a resource is accepted as the value of an operation that replaces its attributes; then the
answer shows the same, and the store is as it was. Unless a required attribute is empty, it is also accepted as what the
resource is replaced by, and the answer shows the same: a user is as it was, and of a group nothing has changed but that
its memberships have been made anew. Only a group with more members than one statement looks for is not replaced. -/
theorem written_back_unchanged {s : Settings} {c : Config} (hb : Config.build s = .ok c)
    (hs : s.customUserAttributes = []) (d : Directory) (hd : d.store.Sound) (owner : Company) {k : Kind} {r : Row k}
    (hr : r ∈ d.store.owned k owner) (haddresses : k = .user → d.store.DistinctAddresses owner) (clock clock' : Nat)
    {body : Json} (hshown : (d.perform ⟨c, clock⟩ owner (.show k (.str r.uuid))).result = .ok body) :
    (∀ o : PatchOperation, o.name = "replace" → o.path = none → o.value = some body →
      (d.perform ⟨c, clock'⟩ owner (.patch k (.str r.uuid) [o])).result = .ok body ∧
        (d.perform ⟨c, clock'⟩ owner (.patch k (.str r.uuid) [o])).directory = d) ∧
    ((∀ name ∈ (c.resource k).required, r.field? name ≠ some (.str "")) →
      (d.store.shownMembers r).length < Store.maxVariables →
        (d.perform ⟨c, clock'⟩ owner (.replace k (.str r.uuid) body)).result = .ok body ∧
          (d.perform ⟨c, clock'⟩ owner (.replace k (.str r.uuid) body)).directory =
            { d with store := d.store.rejoined clock' r }) ∧
    (Store.maxVariables ≤ (d.store.shownMembers r).length →
      (d.perform ⟨c, clock'⟩ owner (.replace k (.str r.uuid) body)).result = .error (.fault .store) ∧
        (d.perform ⟨c, clock'⟩ owner (.replace k (.str r.uuid) body)).directory = d) := by
  have h : (Context.mk c clock').config.IsStandard := Config.isStandard_of_build hb hs
  have hstandard : (Context.mk c clock).config.IsStandard := h
  obtain ⟨x, hfound, rfl⟩ := Directory.exists_of_result_show hstandard hshown
  have hx : x = r := by
    obtain ⟨-, hmem, huuid⟩ := (d.store.get_eq_ok h owner).1 (Store.found_eq_ok.1 hfound).2
    exact Table.eq_of_uuid (Store.mem_rows_of_owned hmem) (Store.mem_rows_of_owned hr) huuid
  rw [hx] at hfound ⊢
  have hput : (d.perform ⟨c, clock'⟩ owner (.replace k (.str r.uuid) (d.store.document k r))).result = _ ∧
      (d.perform ⟨c, clock'⟩ owner (.replace k (.str r.uuid) (d.store.document k r))).directory = _ :=
    Directory.perform_edit_of_ok h hfound (.replace (d.store.document k r))
  refine ⟨fun o hname hpath hvalue => ?_, fun hrequired hfew => ?_, fun hmany => ?_⟩
  · have heffect := Store.effect_applyOperation_document h hr haddresses hname hpath hvalue
    have hedited : d.store.edited ⟨c, clock'⟩ owner r (.patch [o]) = (.ok r, d.store) :=
      Store.edited_patch_eq_ok.2 heffect
    obtain ⟨hresult, hdirectory⟩ := Directory.perform_edit_of_ok h hfound (.patch [o])
    rw [hedited] at hresult hdirectory
    exact ⟨hresult, hdirectory⟩
  · have hrewritten := Store.rewritten_document h hr haddresses hd hrequired hfew
    rw [Store.edited_replace_eq_ok.2 hrewritten] at hput
    rw [hput.1, hput.2]
    exact ⟨congrArg Except.ok (d.store.document_rejoined clock' r), rfl⟩
  · have hrewritten := Store.rewritten_document_of_many h hr hd hmany
    rw [Store.edited, hrewritten] at hput
    exact hput

private theorem distinctAddresses_sample : Sample.store.DistinctAddresses Sample.acme where
  ascii := by decide +kernel
  distinct := by
    unfold Store.AddressesDiffer
    decide +kernel

/-- In the sample a resource is shown. -/
private theorem result_show_sample {k : Kind} {r : Row k} (hr : r ∈ Sample.store.owned k Sample.acme) (clock : Nat) :
    (Sample.directory.perform ⟨Sample.config true, clock⟩ Sample.acme (.show k (.str r.uuid))).result =
      .ok (Sample.store.document k r) := by
  have h : (Context.mk (Sample.config true) clock).config.IsStandard :=
    Config.isStandard_of_build (Sample.build_config true) rfl
  have hserve : (Sample.config true).serve k = .ok ⟨100, some 1000⟩ := by cases k <;> rfl
  have hget : Sample.store.get (Sample.config true) k Sample.acme (.str r.uuid) = .ok r :=
    (Sample.store.get_eq_ok h Sample.acme).2 ⟨rfl, hr, rfl⟩
  exact Directory.result_show h (Store.found_eq_ok.2 ⟨⟨_, hserve⟩, hget⟩)

private theorem staff_owned_sample : Sample.staff ∈ Sample.store.owned .group Sample.acme := by decide +kernel

/-- A user is patched by what is shown of it, and a group with a member is replaced by what is shown of it. -/
theorem written_back_unchanged_sample :
    ((Sample.directory.perform ⟨Sample.config true, 9⟩ Sample.acme
          (.patch .user (.str "u1") [⟨"Replace", none, some Sample.ada.userDocument⟩])).result =
          .ok Sample.ada.userDocument ∧
        (Sample.directory.perform ⟨Sample.config true, 9⟩ Sample.acme
          (.patch .user (.str "u1") [⟨"Replace", none, some Sample.ada.userDocument⟩])).directory = Sample.directory) ∧
      (Sample.directory.perform ⟨Sample.config true, 9⟩ Sample.acme
        (.replace .group (.str "g1") (Sample.staff.groupDocument [Sample.ada]))).directory.store =
          { Sample.store with memberships := [⟨1, 1, 9⟩] } := by
  have hada : Sample.ada ∈ Sample.store.owned .user Sample.acme := by decide +kernel
  have hpatched := (written_back_unchanged (Sample.build_config true) rfl Sample.directory sound_sample Sample.acme
    hada (fun _ => distinctAddresses_sample) 8 9 (result_show_sample hada 8)).1
  have hreplaced := (written_back_unchanged (Sample.build_config true) rfl Sample.directory sound_sample Sample.acme
    staff_owned_sample (fun hk => nomatch hk) 8 9 (result_show_sample staff_owned_sample 8)).2.1
  refine ⟨hpatched _ (by decide +kernel) rfl rfl, ?_⟩
  exact congrArg Directory.store (hreplaced (by decide +kernel) (by decide +kernel)).2

/-- When a group is replaced by what is shown of it, its memberships begin anew; and under a negative page size nothing
is written back. -/
theorem not_written_back_unchanged :
    (¬∀ {s : Settings} {c : Config}, Config.build s = .ok c → s.customUserAttributes = [] →
      ∀ (d : Directory), d.store.Sound → ∀ (owner : Company) (k : Kind), ∀ r ∈ d.store.owned k owner,
        (k = .user → d.store.DistinctAddresses owner) → ∀ (clock clock' : Nat) (body : Json),
          (d.perform ⟨c, clock⟩ owner (.show k (.str r.uuid))).result = .ok body →
            (∀ name ∈ (c.resource k).required, r.field? name ≠ some (.str "")) →
              (d.perform ⟨c, clock'⟩ owner (.replace k (.str r.uuid) body)).directory.store = d.store) ∧
    ¬∀ {s : Settings} {c : Config}, Config.build s = .ok c → s.customUserAttributes = [] →
      ∀ (d : Directory), d.store.Sound → ∀ (owner : Company) (k : Kind), ∀ r ∈ d.store.owned k owner,
        (k = .user → d.store.DistinctAddresses owner) → ∀ (clock : Nat) (o : PatchOperation), o.name = "replace" →
          o.path = none → o.value = some (d.store.document k r) →
            (d.perform ⟨c, clock⟩ owner (.patch k (.str r.uuid) [o])).result = .ok (d.store.document k r) := by
  constructor
  · intro hall
    have hsame := hall (Sample.build_config true) rfl Sample.directory sound_sample Sample.acme .group Sample.staff
      staff_owned_sample nofun 8 9 _ (result_show_sample staff_owned_sample 8) (by decide +kernel)
    exact absurd (congrArg Store.memberships hsame) (by decide +kernel)
  · intro hall
    have hbuild : Config.build { defaultPageSize := -1 } = .ok (Sample.built { defaultPageSize := -1 }) := rfl
    have hpatched := hall hbuild rfl Sample.directory sound_sample Sample.acme .group Sample.staff staff_owned_sample
      nofun 9 ⟨"replace", none, some (Sample.store.document .group Sample.staff)⟩ (by decide) rfl rfl
    exact absurd hpatched (by decide +kernel)

end Roster
