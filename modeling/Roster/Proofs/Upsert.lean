import Roster.Proofs.MemberLists
import Roster.Proofs.NaturalKeys
import Roster.Proofs.Requests
import Roster.Proofs.Runs
import Roster.Proofs.Sample

/-!
Creating a resource twice.

Where creating overwrites, a request to create a resource that is sent again finds what it has written before, and
then changes nothing: not the row, not its times, not its members. It finds it by the natural key. A group is
always found; a user is found as long as both ways to fold case make the same of its address.
-/

set_option autoImplicit false

namespace Roster

variable {k : Kind} {s s' : Store} {owner : Company} {r r' : Row k}

/-- Everything that a client writes of a resource is a text. -/
def Schema.GivesTexts (schema : Schema) (payload : Json) : Prop :=
  ∀ f ∈ schema.extract payload, ∃ text, f.2 = .str text

namespace Store

/-- A row is as a creation asks for it. -/
structure Fulfils (s : Store) (owner : Company) (p : Creation k) (r : Row k) : Prop where
  mem : r ∈ s.owned k owner
  texts : ∀ (c : Column k) (text : String), c.isProfile = true → p.attributes.lookup c.name = some (.str text) →
    r.get c = .text text
  status : ∀ clock, s.settled clock r p.status = .ok (r, s)
  members : ∀ clock, s.withNewMembers clock p.users k r = s

private theorem withNewMembers_again (s : Store) (clock later : Nat) (users : List (Row .user)) (r : Row k) :
    (s.withNewMembers clock users k r).withNewMembers later users k r = s.withNewMembers clock users k r := by
  cases k with
  | user => rfl
  | group => exact s.addMembers_again clock later r users

section Creation

variable {p : Creation k} (hprofile : ProfileOnly k p.attributes) (hnodup : (p.attributes.map Prod.fst).Nodup)

include hprofile hnodup

/-- What a creation writes is as it asks for. -/
theorem fulfils_of_carriedOut (hexisting : ∀ found, p.existing = some found → found ∈ s.owned k owner) {clock : Nat}
    {uuid : String} (hc : s.carriedOut clock owner uuid p = .ok (r, s')) : s'.Fulfils owner p r := by
  obtain ⟨⟨r₁, s₁⟩, hupserted, hc⟩ := bind_eq_ok.1 hc
  obtain ⟨⟨r₂, s₂⟩, hsettled, e⟩ := map_eq_ok.1 hc
  cases e
  have hmem := (writes_of_upserted hprofile hexisting hupserted).mem
  have hw : s₁.Rewrites r₁ r₂ s₂ := .of_settled (mem_rows_of_owned hmem) hsettled
  constructor
  · rw [owned_withNewMembers]
    exact hw.mem_owned hmem
  · intro c text hc htext
    rw [get_of_settled hsettled hc, get_of_upserted_str hnodup hupserted hc htext]
  · intro clock'
    exact settled_again hsettled _ clock'
  · intro later
    exact withNewMembers_again s₂ clock later p.users r₂

/-- A creation that finds a row as it asks for it changes nothing. -/
theorem carriedOut_of_fulfils (htexts : ∀ f ∈ p.attributes, ∃ text, f.2 = .str text) (h : s.Fulfils owner p r)
    (hexisting : p.existing = some r) (clock : Nat) (uuid : String) :
    s.carriedOut clock owner uuid p = .ok (r, s) := by
  obtain ⟨values, hvalues, hall⟩ := exists_columns_eq_ok hprofile
  have hunchanged : ∀ v ∈ values, unchanged r v.1 v.2 = true := by
    intro v hv
    have hvalue : p.attributes.lookup v.1.name = some v.2 := by
      rw [← lookup_columns hvalues]
      exact lookup_eq_some_of_mem (nodup_columns hvalues hnodup) hv
    obtain ⟨text, htext⟩ := htexts _ (mem_of_lookup hvalue)
    dsimp only at htext
    rw [htext] at hvalue ⊢
    rw [unchanged, h.texts v.1 text (hall v hv) hvalue]
    change (text == text) = true
    exact beq_self_eq_true text
  have hupdate : s.update clock r p.attributes = .ok (r, s) := update_of_unchanged hvalues hunchanged clock
  rw [carriedOut, upserted.eq_def, hexisting]
  dsimp only
  rw [hupdate, ok_bind]
  dsimp only
  rw [completed, h.status clock]
  change Except.ok (r, s.withNewMembers clock p.users k r) = _
  rw [h.members clock]

end Creation

/-! ## Finding a row again -/

/-- A row that comes first comes first again when it is written. -/
theorem find?_of_rewrites (hw : s.Rewrites r r' s') {P : Row k → Bool} (hfind : (s.owned k owner).find? P = some r)
    (hP : P r' = true) : (s'.owned k owner).find? P = some r' := by
  have hr := List.mem_of_find?_eq_some hfind
  obtain ⟨-, before, after, hrows, hbefore⟩ := List.find?_eq_some_iff_append.1 hfind
  have hordered := s.pairwise_owned k owner
  rw [hrows] at hordered
  rw [hw.owned_eq hr, hrows, Table.map_overwrite_append hordered hw.id]
  exact List.find?_eq_some_iff_append.2 ⟨hP, before, after, rfl, hbefore⟩

theorem find?_of_unique {rows : List (Row k)} {P : Row k → Bool} (hr : r ∈ rows) (hP : P r = true)
    (hunique : ∀ x ∈ rows, P x = true → x = r) : rows.find? P = some r := by
  cases hfind : rows.find? P with
  | none => exact absurd hP (List.find?_eq_none.1 hfind r hr)
  | some x => rw [hunique x (List.mem_of_find?_eq_some hfind) (List.find?_some hfind)]

/-- A creation finds what it has written, if it finds a row of this sort at all. -/
theorem find?_of_carriedOut {p : Creation k} (hprofile : ProfileOnly k p.attributes) {P : Row k → Bool}
    (hexisting : p.existing = (s.owned k owner).find? P) {clock : Nat} {uuid : String}
    (hc : s.carriedOut clock owner uuid p = .ok (r, s')) (hP : P r = true) :
    (s'.owned k owner).find? P = some r := by
  obtain ⟨⟨r₁, s₁⟩, hupserted, hc⟩ := bind_eq_ok.1 hc
  obtain ⟨⟨r₂, s₂⟩, hsettled, e⟩ := map_eq_ok.1 hc
  cases e
  rw [owned_withNewMembers]
  rcases upserted_cases hprofile hupserted with ⟨found, hfound, hupdate⟩ | ⟨hnone, profile, t, rfl, ht, rfl⟩
  · rw [hfound] at hexisting
    have hmem := List.mem_of_find?_eq_some hexisting.symm
    have hw : s.Rewrites found r₁ s₁ := .of_update (mem_rows_of_owned hmem) hprofile hupdate
    have hw' : s₁.Rewrites r₁ r₂ s₂ := .of_settled hw.mem_new hsettled
    exact find?_of_rewrites (hw.trans hw') hexisting.symm hP
  · rw [hnone] at hexisting
    have hwrites : s.Writes owner _ (s.withTable k t) := .of_insert ht rfl
    have hmem := hwrites.mem
    have hw : (s.withTable k t).Rewrites _ r₂ s₂ := .of_settled (mem_rows_of_owned hmem) hsettled
    apply find?_of_unique (hw.mem_owned hmem) hP
    intro x hx hPx
    obtain ⟨hx, hxcompany⟩ := mem_owned.1 hx
    rw [hw.rows, table_withTable] at hx
    rcases Table.mem_overwritten hx with rfl | ⟨hx, hne⟩
    · rfl
    · rw [(Table.rows_of_insert? ht).2] at hx
      rcases Table.mem_placed hx with rfl | hx
      · exact absurd hw.id.symm hne
      · exact absurd hPx (List.find?_eq_none.1 hexisting.symm x (mem_owned.2 ⟨hx, hxcompany⟩))

/-! ## Requests -/

theorem listed_congr (h : s'.users = s.users) (c : Config) (owner : Company) (members : Json) (expected : String) :
    s'.listed c owner members expected = s.listed c owner members expected := by
  obtain ⟨companies, users, groups, memberships⟩ := s
  obtain ⟨companies', users', groups', memberships'⟩ := s'
  cases h
  rfl

private theorem users_of_carriedOut {p : Creation .group} (hprofile : ProfileOnly .group p.attributes)
    (hexisting : ∀ found, p.existing = some found → found ∈ s.owned .group owner) {clock : Nat} {uuid : String}
    {g : Row .group} (hc : s.carriedOut clock owner uuid p = .ok (g, s')) : s'.users = s.users := by
  obtain ⟨⟨r₁, s₁⟩, hupserted, hc⟩ := bind_eq_ok.1 hc
  obtain ⟨⟨r₂, s₂⟩, hsettled, e⟩ := map_eq_ok.1 hc
  cases e
  have hw : s.Writes owner r₁ s₁ := writes_of_upserted hprofile hexisting hupserted
  have hw' : s.Writes owner r₂ s₂ := hw.rewrites (.of_settled (mem_rows_of_owned hw.mem) hsettled)
  have husers : s₂.users = s.users := hw'.others .user (by decide)
  change (s₂.addMembers clock r₂ p.users).users = s.users
  rw [addMembers_eq]
  exact husers

private theorem newUsers_of_carriedOut {c : Config} {p : Creation k} (hprofile : ProfileOnly k p.attributes)
    (hexisting : ∀ found, p.existing = some found → found ∈ s.owned k owner) {clock : Nat} {uuid : String}
    (hc : s.carriedOut clock owner uuid p = .ok (r, s')) (payload : Json) :
    s'.newUsers c owner k payload = s.newUsers c owner k payload := by
  cases k with
  | user => rfl
  | group =>
    have hlisted := listed_congr (users_of_carriedOut hprofile hexisting hc) c owner
      (payload.fieldOrNull "members") Members.postExpectation
    rw [newUsers.eq_def, newUsers.eq_def]
    generalize payload.fieldOrNull "members" = members at hlisted ⊢
    cases members
    case null => rfl
    all_goals exact hlisted

section Standard

variable {c : Config} (h : c.IsStandard) {payload : Json}

include h

private theorem exists_recognised {p : Creation k} (hp : s.creation c owner k payload = .ok p)
    {key : String} (hkey : p.attributes.lookup (Column.key k).name = some (.str key)) :
    p.existing = (s.owned k owner).find? fun x => recognises k x.key key := by
  obtain ⟨-, -, -, -, value, hvalue, hexisting⟩ := creation_eq_ok.1 hp
  rw [h.naturalKey, hkey] at hvalue
  cases hvalue
  rw [findBy_key h] at hexisting
  exact (Except.ok.inj hexisting).symm

/-- What is known of a creation that has been prepared. -/
private structure Prepared (s : Store) (owner : Company) (payload : Json) (p : Creation k) : Prop where
  profile : ProfileOnly k p.attributes
  nodup : (p.attributes.map Prod.fst).Nodup
  attributes : p.attributes = (Schema.writable k).extract payload
  existing : ∀ found, p.existing = some found → found ∈ s.owned k owner

private theorem prepared_of_creation {p : Creation k} (hp : s.creation c owner k payload = .ok p) :
    Prepared s owner payload p := by
  obtain ⟨hcomplete, -, -, -, key, -, hexisting⟩ := creation_eq_ok.1 hp
  obtain ⟨-, hattributes⟩ := ResourceConfig.eq_extract_of_complete hcomplete
  rw [h.mutableSchema] at hattributes
  refine ⟨h.profileOnly_complete hcomplete, ?_, hattributes, ?_⟩
  · rw [hattributes]
    exact (Schema.writable k).nodup_extract payload
  · intro found hfound
    rw [hfound] at hexisting
    exact mem_owned_of_findBy hexisting

/-- A creation that recognises what it has written is prepared for the same row again. -/
private theorem creation_again {p : Creation k} (hp : s.creation c owner k payload = .ok p)
    (hprevent : (c.resource k).preventUpdate = false) {key : String}
    (hkey : p.attributes.lookup (Column.key k).name = some (.str key)) (hself : recognises k key key = true)
    {clock : Nat} {uuid : String} (hc : s.carriedOut clock owner uuid p = .ok (r, s')) :
    s'.creation c owner k payload = .ok { p with existing := some r } := by
  obtain ⟨hprofile, hnodup, -, hexisting⟩ := prepared_of_creation h hp
  have hfind := exists_recognised h hp hkey
  have hfulfils := fulfils_of_carriedOut hprofile hnodup hexisting hc
  have hrkey : r.key = key := key_eq_of_get (hfulfils.texts _ key (isProfile_key k) hkey)
  have hagain : (s'.owned k owner).find? (fun x => recognises k x.key key) = some r :=
    find?_of_carriedOut hprofile hfind hc (by rw [hrkey, hself])
  obtain ⟨hcomplete, hstatus, husers, -, -, -, -⟩ := creation_eq_ok.1 hp
  refine creation_eq_ok.2 ⟨hcomplete, hstatus, ?_, ?_, .str key, ?_, ?_⟩
  · rw [newUsers_of_carriedOut hprofile hexisting hc]
    exact husers
  · rw [hprevent, Bool.and_false]
  · rw [h.naturalKey]
    exact hkey
  · rw [findBy_key h, hagain]

/-- What a creation has written is all that the same creation asks for. -/
theorem created_again {ctx : Context} (hctx : ctx.config = c) {uuid : String}
    (hc : s.created ctx owner k uuid payload = .ok (r, s')) (hprevent : (c.resource k).preventUpdate = false)
    (htexts : (Schema.writable k).GivesTexts payload) {key : String}
    (hkey : ((Schema.writable k).extract payload).lookup (Column.key k).name = some (.str key))
    (hself : recognises k key key = true) (clock' : Nat) (uuid' : String) :
    s'.created ⟨c, clock'⟩ owner k uuid' payload = .ok (r, s') ∧ s'.drawnFor c owner k payload = 0 := by
  subst hctx
  obtain ⟨p, hp, hcarried⟩ := bind_eq_ok.1 hc
  obtain ⟨hprofile, hnodup, hattributes, hexisting⟩ := prepared_of_creation h hp
  rw [← hattributes] at hkey
  rw [Schema.GivesTexts, ← hattributes] at htexts
  have hagain := creation_again h hp hprevent hkey hself hcarried
  have hfulfils := fulfils_of_carriedOut hprofile hnodup hexisting hcarried
  have hfulfils' : s'.Fulfils owner { p with existing := some r } r :=
    ⟨hfulfils.mem, hfulfils.texts, hfulfils.status, hfulfils.members⟩
  constructor
  · rw [created]
    dsimp only
    rw [hagain, ok_bind]
    exact carriedOut_of_fulfils (p := ⟨p.attributes, p.status, p.users, some r⟩) hprofile hnodup htexts hfulfils' rfl
      clock' uuid'
  · rw [drawnFor, hagain]
    rfl

/-- A creation that finds and changes nothing recognises the key that it gives. -/
theorem recognises_of_created_again {ctx : Context} (hctx : ctx.config = c) {uuid : String}
    (hc : s.created ctx owner k uuid payload = .ok (r, s)) (hdrawn : s.drawnFor c owner k payload = 0) {key : String}
    (hkey : ((Schema.writable k).extract payload).lookup (Column.key k).name = some (.str key)) :
    recognises k key key = true := by
  subst hctx
  obtain ⟨p, hp, hcarried⟩ := bind_eq_ok.1 hc
  obtain ⟨hprofile, hnodup, hattributes, hexisting⟩ := prepared_of_creation h hp
  rw [← hattributes] at hkey
  have hfind := exists_recognised h hp hkey
  rw [drawnFor, hp] at hdrawn
  change p.existing.isNone.toNat = 0 at hdrawn
  obtain ⟨found, hfound⟩ : ∃ found, p.existing = some found := by
    cases hnone : p.existing with
    | some found => exact ⟨found, rfl⟩
    | none =>
      rw [hnone] at hdrawn
      cases hdrawn
  rw [hfound] at hfind
  have hmem := hexisting found hfound
  have hfulfils := fulfils_of_carriedOut hprofile hnodup hexisting hcarried
  -- The row that has been found is the one that has been written, so that it has the key already.
  have hsame : r = found := by
    have hid : r.id = found.id := by
      obtain ⟨⟨r₁, s₁⟩, hupserted, hc⟩ := bind_eq_ok.1 hcarried
      obtain ⟨⟨r₂, s₂⟩, hsettled, e⟩ := map_eq_ok.1 hc
      obtain ⟨rfl, -⟩ := Prod.mk.inj e
      rw [hfound] at hupserted
      have hw : s.Rewrites found r₁ s₁ := .of_update (mem_rows_of_owned hmem) hprofile hupserted
      have hw' : s₁.Rewrites r₁ r₂ s₂ := .of_settled hw.mem_new hsettled
      exact hw'.id.trans hw.id
    exact Table.eq_of_id (mem_rows_of_owned hfulfils.mem) (mem_rows_of_owned hmem) hid
  have hrkey : r.key = key := key_eq_of_get (hfulfils.texts _ key (isProfile_key k) hkey)
  have hrecognised : recognises k found.key key = true := by simpa using List.find?_some hfind.symm
  rw [← hsame, hrkey] at hrecognised
  exact hrecognised

end Standard

end Store

private theorem recognises_self_iff {key : String} :
    recognises k key key = true ↔ (k = .user → Text.lower key.toList = Text.lowerPlain key.toList) := by
  cases k with
  | user =>
    rw [recognises, beq_iff_eq]
    constructor
    · exact fun h _ => h.symm
    · exact fun h => (h rfl).symm
  | group =>
    constructor
    · intro _ hk
      cases hk
    · intro _
      exact beq_self_eq_true key

private theorem perform_create {ctx : Context} (h : ctx.config.IsStandard) {pager : Pager}
    (hserve : ctx.config.serve k = .ok pager) (d : Directory) (owner : Company) (payload : Json) :
    (d.perform ctx owner (.create k payload)).result =
        (d.store.created ctx owner k (Uuid.numbered (d.drawn + 1)) payload).map (fun p => p.2.document k p.1) ∧
      (d.perform ctx owner (.create k payload)).directory =
        ⟨d.store.leftBy (d.store.created ctx owner k (Uuid.numbered (d.drawn + 1)) payload),
          d.drawn + d.store.drawnFor ctx.config owner k payload, d.kept⟩ :=
  Directory.perform_of_serve h d owner (.create k payload) hserve

/-- Where creating overwrites, and texts are given for all that a client writes, a request to create a resource
that has succeeded answers the same and changes nothing when it is sent again: exactly if it is for a group, or
the address of the user comes to the same in the lower case of the store and in that of all alphabets. -/
theorem create_replays_iff {s : Settings} {c : Config} (hb : Config.build s = .ok c)
    (hs : s.customUserAttributes = []) {k : Kind} (hprevent : (c.resource k).preventUpdate = false) (d : Directory)
    (owner : Company) {payload : Json} (htexts : (Schema.writable k).GivesTexts payload) {key : String}
    (hkey : ((Schema.writable k).extract payload).lookup (Column.key k).name = some (.str key)) (clock clock' : Nat)
    {answer : Json} (hanswer : (d.perform ⟨c, clock⟩ owner (.create k payload)).result = .ok answer) :
    (((d.afterCall c ⟨clock, owner, .create k payload⟩).perform ⟨c, clock'⟩ owner (.create k payload)).result =
          .ok answer ∧
        (d.afterCall c ⟨clock, owner, .create k payload⟩).afterCall c ⟨clock', owner, .create k payload⟩ =
          d.afterCall c ⟨clock, owner, .create k payload⟩) ↔
      (k = .user → Text.lower key.toList = Text.lowerPlain key.toList) := by
  have h : (Context.mk c clock).config.IsStandard := Config.isStandard_of_build hb hs
  have h' : (Context.mk c clock').config.IsStandard := h
  rw [← recognises_self_iff]
  rcases Directory.perform_cases h d owner (.create k payload) with ⟨e, -, hresult, -⟩ | ⟨pager, hserve, -, -⟩
  · rw [hresult] at hanswer
    cases hanswer
  have hserve : c.serve k = .ok pager := hserve
  have hserve' : (Context.mk c clock').config.serve k = .ok pager := hserve
  obtain ⟨hresult, hdirectory⟩ := perform_create h hserve d owner payload
  rw [hresult] at hanswer
  obtain ⟨⟨r, s₁⟩, hcreated, rfl⟩ := map_eq_ok.1 hanswer
  have hfirst : (d.perform ⟨c, clock⟩ owner (.create k payload)).directory =
      ⟨s₁, d.drawn + d.store.drawnFor c owner k payload, d.kept⟩ := by
    rw [hdirectory, hcreated]
    rfl
  rw [Directory.afterCall, Directory.afterCall]
  dsimp only
  rw [hfirst]
  generalize d.drawn + d.store.drawnFor c owner k payload = drawn
  obtain ⟨hagain, hsecond⟩ := perform_create h' hserve' ⟨s₁, drawn, d.kept⟩ owner payload
  rw [hagain, hsecond]
  dsimp only
  constructor
  · rintro ⟨hok, hsame⟩
    obtain ⟨⟨r', s₂⟩, hc, -⟩ := map_eq_ok.1 hok
    rw [hc] at hsame
    obtain ⟨hstore, hdrawn, -⟩ := Directory.mk.inj hsame
    change s₂ = s₁ at hstore
    change drawn + s₁.drawnFor c owner k payload = drawn at hdrawn
    have hzero : s₁.drawnFor c owner k payload = 0 := by omega
    rw [hstore] at hc
    exact Store.recognises_of_created_again h' rfl hc hzero hkey
  · intro hself
    obtain ⟨hc, hdrawn⟩ := Store.created_again h rfl hcreated hprevent htexts hkey hself clock'
      (Uuid.numbered (drawn + 1))
    rw [hc, hdrawn]
    exact ⟨rfl, rfl⟩

private def newcomer (email : String) : Json := .obj [
  ("name", .obj [("givenName", .str "Élodie"), ("familyName", .str "Roy")]),
  ("emails", .arr [.obj [("value", .str email)]]),
  ("active", .bool false)]

private theorem givesTexts_newcomer {email : String} : (Schema.writable .user).GivesTexts (newcomer email) := by
  have hextract : (Schema.writable .user).extract (newcomer email) =
      [("first_name", .str "Élodie"), ("last_name", .str "Roy"), ("email", .str email)] := rfl
  intro f hf
  rw [hextract] at hf
  simp only [List.mem_cons, List.not_mem_nil, or_false] at hf
  rcases hf with rfl | rfl | rfl
  · exact ⟨_, rfl⟩
  · exact ⟨_, rfl⟩
  · exact ⟨_, rfl⟩

/-- An archived user with an address in capital letters is created once, whenever the request is sent again. -/
theorem create_replays_iff_sample :
    (Sample.directory.afterCall (Sample.config true)
        ⟨5, Sample.acme, .create .user (newcomer "ELODIE@acme.example")⟩).store.users.rows.length = 4 ∧
      (Sample.directory.afterCall (Sample.config true)
          ⟨5, Sample.acme, .create .user (newcomer "ELODIE@acme.example")⟩).afterCall (Sample.config true)
            ⟨9, Sample.acme, .create .user (newcomer "ELODIE@acme.example")⟩ =
        Sample.directory.afterCall (Sample.config true)
          ⟨5, Sample.acme, .create .user (newcomer "ELODIE@acme.example")⟩ := by
  refine ⟨by decide +kernel, ?_⟩
  have hok : (Sample.directory.perform ⟨Sample.config true, 5⟩ Sample.acme
      (.create .user (newcomer "ELODIE@acme.example"))).result.isOk = true := by decide +kernel
  cases hanswer : (Sample.directory.perform ⟨Sample.config true, 5⟩ Sample.acme
      (.create .user (newcomer "ELODIE@acme.example"))).result with
  | error e =>
    rw [hanswer] at hok
    cases hok
  | ok answer =>
    have hkey : ((Schema.writable .user).extract (newcomer "ELODIE@acme.example")).lookup
        (Column.key .user).name = some (.str "ELODIE@acme.example") := rfl
    have hreplays := create_replays_iff (Sample.build_config true) rfl rfl Sample.directory Sample.acme
      givesTexts_newcomer hkey 5 9 hanswer
    exact (hreplays.2 fun _ => by decide +kernel).2

/-- The condition on the address cannot be left out: the second request does not find the user whose address
begins with a capital letter of another alphabet, and inserts another one. -/
theorem not_create_replays :
    ¬∀ {s : Settings} {c : Config}, Config.build s = .ok c → s.customUserAttributes = [] → ∀ {k : Kind},
      (c.resource k).preventUpdate = false → ∀ (d : Directory) (owner : Company) {payload : Json},
      (Schema.writable k).GivesTexts payload → ∀ (clock clock' : Nat) {answer : Json},
      (d.perform ⟨c, clock⟩ owner (.create k payload)).result = .ok answer →
        ((d.afterCall c ⟨clock, owner, .create k payload⟩).perform ⟨c, clock'⟩ owner (.create k payload)).result =
            .ok answer ∧
          (d.afterCall c ⟨clock, owner, .create k payload⟩).afterCall c ⟨clock', owner, .create k payload⟩ =
            d.afterCall c ⟨clock, owner, .create k payload⟩ := by
  intro hreplays
  have hok : (Sample.directory.perform ⟨Sample.config true, 5⟩ Sample.acme
      (.create .user (newcomer "Élodie@acme.example"))).result.isOk = true := by decide +kernel
  cases hanswer : (Sample.directory.perform ⟨Sample.config true, 5⟩ Sample.acme
      (.create .user (newcomer "Élodie@acme.example"))).result with
  | error e =>
    rw [hanswer] at hok
    cases hok
  | ok answer =>
    have hsame := (hreplays (Sample.build_config true) rfl rfl Sample.directory Sample.acme givesTexts_newcomer
      5 9 hanswer).2
    have hrows := congrArg (fun d : Directory => d.store.users.rows.length) hsame
    exact absurd hrows (by decide +kernel)

end Roster
