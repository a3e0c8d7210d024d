import Roster.Proofs.Commutation
import Roster.Proofs.Contracts
import Roster.Proofs.StoredAnswers
import Roster.Proofs.Values

/-!
Attributes that the settings fix.

Settings may fix attributes of users, under the name of any column. They are written when a user is created, on a
new row as well as on the one that is found by its natural key; no other request knows of them. A row keeps its
number, its identifier and its company through every request, unless it is found in this way and the settings fix
one of the three.
-/

set_option autoImplicit false

namespace Roster

open Step

variable {k : Kind}

/-! ## Configurations without fixed attributes -/

namespace Config

/-- The configuration without the attributes that the settings fix. -/
def plain (c : Config) : Config :=
  { c with users := { c.users with customAttributes := [] } }

theorem isStandard_plain {s : Settings} {c : Config} (h : build s = .ok c) : c.plain.IsStandard := by
  obtain ⟨users, groups, rfl⟩ := eq_of_build h
  exact ⟨⟨{ s with customUserAttributes := [] }, users, rfl, rfl⟩, ⟨s, groups, rfl⟩, rfl⟩

end Config

section Plain

variable (c : Config) (clock : Nat) (owner : Company)

private theorem applyOperations_plain (r : Row k) (operations : List PatchOperation) :
    applyOperations ⟨c.plain, clock⟩ owner r operations = applyOperations ⟨c, clock⟩ owner r operations := by
  induction operations generalizing r with
  | nil => rfl
  | cons o rest ih =>
    have hfirst : applyOperation ⟨c.plain, clock⟩ owner k r o = applyOperation ⟨c, clock⟩ owner k r o := by
      cases k <;> rfl
    rw [applyOperations, applyOperations, hfirst]
    simp only [ih]
    rfl

/-- Only requests to create a user know of fixed attributes. -/
theorem Directory.perform_plain (d : Directory) {request : Request}
    (hrequest : ∀ payload, request ≠ .create .user payload) :
    d.perform ⟨c.plain, clock⟩ owner request = d.perform ⟨c, clock⟩ owner request := by
  have hsteps : Request.steps ⟨c.plain, clock⟩ owner request = Request.steps ⟨c, clock⟩ owner request := by
    cases request with
    | list k filter start count => cases k <;> rfl
    | «show» k identifier => cases k <;> rfl
    | create k payload =>
      cases k with
      | user => exact absurd rfl (hrequest payload)
      | group => rfl
    | replace k identifier payload => cases k <;> rfl
    | patch k identifier operations =>
      unfold Request.steps Request.runPatch
      simp only [applyOperations_plain]
      cases k <;> rfl
    | delete k identifier => cases k <;> rfl
  rw [perform, hsteps, perform]

end Plain

/-! ## Names of attributes -/

theorem name_of_setField {name x : String} {value : Json} {fields : List (String × Json)}
    (hx : x ∈ (setField name value fields).map Prod.fst) : x = name ∨ x ∈ fields.map Prod.fst := by
  induction fields with
  | nil => exact .inl (by simpa [setField] using hx)
  | cons f rest ih =>
    rw [setField] at hx
    split at hx
    next hf =>
      rw [List.map_cons, List.mem_cons] at hx ⊢
      exact .inr (hx.imp_left fun e => by simpa using e)
    next hf =>
      rw [List.map_cons, List.mem_cons] at hx ⊢
      rcases hx with e | hx
      · exact .inr (.inl e)
      · exact (ih hx).imp_right .inr

/-- Merging adds no names. -/
theorem name_of_mergeFields {x : String} {base later : List (String × Json)}
    (hx : x ∈ (mergeFields base later).map Prod.fst) : x ∈ base.map Prod.fst ∨ x ∈ later.map Prod.fst := by
  induction later generalizing base with
  | nil => exact .inl hx
  | cons f rest ih =>
    change x ∈ (mergeFields (setField f.1 f.2 base) rest).map Prod.fst at hx
    rcases ih hx with hx | hx
    · rcases name_of_setField hx with rfl | hx
      · exact .inr List.mem_cons_self
      · exact .inl hx
    · exact .inr (List.mem_cons_of_mem f.1 hx)

/-! ## The identity of rows -/

/-- Attributes of the profile are no part of the identity. -/
theorem ProfileOnly.name_ne {attributes : List (String × Json)} (h : ProfileOnly k attributes) {f : String × Json}
    (hf : f ∈ attributes) : f.1 ≠ "id" ∧ f.1 ≠ "uuid" ∧ f.1 ≠ "company_id" := by
  obtain ⟨c, hname, hc⟩ := h f hf
  rw [← Column.name_of_ofName? hname]
  cases c <;> first | (cases hc; done) | simp [Column.name]

/-- The number, the identifier and the company of a row are those of another one. -/
structure Row.SameIdentity (r r' : Row k) : Prop where
  id : r'.id = r.id
  uuid : r'.uuid = r.uuid
  company : r'.company = r.company

theorem Row.SameIdentity.trans {r r' r'' : Row k} (h : r.SameIdentity r') (h' : r'.SameIdentity r'') :
    r.SameIdentity r'' :=
  ⟨h'.id.trans h.id, h'.uuid.trans h.uuid, h'.company.trans h.company⟩

/-- The settings fix the number, the identifier or the company of new resources. -/
def Config.FixesIdentity (c : Config) (k : Kind) : Prop :=
  ∃ f ∈ (c.resource k).customAttributes, f.1 = "id" ∨ f.1 = "uuid" ∨ f.1 = "company_id"

namespace Store

/-- A request creates a resource, and a row is found by its natural key. -/
def Recreates (s : Store) (c : Config) (owner : Company) (request : Request) (r : Row k) : Prop :=
  ∃ payload attributes key, request = .create k payload ∧ (c.resource k).complete payload = .ok attributes ∧
    attributes.lookup (c.resource k).naturalKey = some key ∧
    s.findBy k owner (c.resource k).naturalKey key (c.resource k).ignoreCase = .ok (some r)

/-- The rows with a property are still there, under their numbers and identifiers and with their companies. -/
def Retains (s : Store) (P : (k : Kind) → Row k → Prop) (s' : Store) : Prop :=
  ∀ k, ∀ r ∈ (s.table k).rows, P k r → ∃ r' ∈ (s'.table k).rows, r.SameIdentity r'

variable {s s' s'' : Store} {P : (k : Kind) → Row k → Prop} {r r' : Row k}

namespace Retains

theorem refl (s : Store) (P : (k : Kind) → Row k → Prop) : s.Retains P s :=
  fun _ r hr _ => ⟨r, hr, rfl, rfl, rfl⟩

theorem trans (h : s.Retains P s') (h' : s'.Retains (fun _ _ => True) s'') : s.Retains P s'' := by
  intro k x hx hP
  obtain ⟨y, hy, hxy⟩ := h k x hx hP
  obtain ⟨z, hz, hyz⟩ := h' k y hy trivial
  exact ⟨z, hz, hxy.trans hyz⟩

/-- An edit keeps every row. -/
theorem of_revises (h : s.Revises r r' s') : s.Retains P s' := by
  intro k' x hx _
  have hbare : x.bare ∈ (s'.table k').rows.map Row.bare := by
    rw [h.bare k']
    exact List.mem_map_of_mem hx
  obtain ⟨y, hy, e⟩ := List.mem_map.1 hbare
  have hid : y.bare.id = x.bare.id := congrArg Row.id e
  have huuid : y.bare.uuid = x.bare.uuid := congrArg Row.uuid e
  have hcompany : y.bare.company = x.bare.company := congrArg Row.company e
  exact ⟨y, hy, hid, huuid, hcompany⟩

theorem of_tables (h : ∀ k, s'.table k = s.table k) : s.Retains P s' := by
  intro k x hx _
  exact ⟨x, by rw [h k]; exact hx, rfl, rfl, rfl⟩

/-- A row that is inserted puts no other one out. -/
theorem of_insert {t : Table k} (ht : (s.table k).insert? r = some t) : s.Retains P (s.withTable k t) := by
  intro k' x hx _
  by_cases hk : k' = k
  · subst hk
    rw [← Table.filter_of_insert? ht] at hx
    exact ⟨x, by rw [table_withTable]; exact (List.mem_filter.1 hx).1, rfl, rfl, rfl⟩
  · exact ⟨x, by rw [s.table_withTable_of_ne t hk]; exact hx, rfl, rfl, rfl⟩

/-- A row that is put in the place of another one puts no third one out. -/
theorem of_put (hP : P k r → r.SameIdentity r') (hr : r ∈ (s.table k).rows) (h : s.put r r' = .ok s') :
    s.Retains P s' ∧ r' ∈ (s'.table k).rows := by
  rw [put] at h
  split at h
  next t ht =>
    cases h
    rw [Table.replace?] at ht
    have hnew : r' ∈ t.rows := by
      rw [(Table.rows_of_insert? ht).2]
      simp [Table.placed]
    refine ⟨?_, by rw [table_withTable]; exact hnew⟩
    intro k' x hx hPx
    by_cases hk : k' = k
    · subst hk
      rw [table_withTable]
      by_cases hid : x.id = r.id
      · obtain rfl := Table.eq_of_id hx hr hid
        exact ⟨r', hnew, hP hPx⟩
      · have hother : x ∈ ((s.table k').erase r.id).rows := List.mem_filter.2 ⟨hx, bne_iff_ne.2 hid⟩
        rw [← Table.filter_of_insert? ht] at hother
        exact ⟨x, (List.mem_filter.1 hother).1, rfl, rfl, rfl⟩
    · exact ⟨x, by rw [s.table_withTable_of_ne t hk]; exact hx, rfl, rfl, rfl⟩
  next => cases h

end Retains

/-- Attributes that do not name it leave the identity of a row. -/
theorem sameIdentity_of_update {clock : Nat} {attributes : Schema.Values}
    (hnames : ∀ name ∈ attributes.map Prod.fst, name ≠ "id" ∧ name ≠ "uuid" ∧ name ≠ "company_id")
    (h : s.update clock r attributes = .ok (r', s')) : r.SameIdentity r' := by
  have hget {c : Column k} (hc : c ≠ .updated) (hname : c.name ∉ attributes.map Prod.fst) : r'.get c = r.get c := by
    refine get_of_update_of_none h hc (List.lookup_eq_none_iff.2 fun f hf => bne_iff_ne.2 fun e => hname ?_)
    rw [e]
    exact List.mem_map_of_mem hf
  have hid : r'.get .id = r.get .id := hget nofun fun hmem => (hnames _ hmem).1 rfl
  have huuid : r'.get .uuid = r.get .uuid := hget nofun fun hmem => (hnames _ hmem).2.1 rfl
  have hcompany : r'.get .company = r.get .company := hget nofun fun hmem => (hnames _ hmem).2.2 rfl
  exact ⟨Cell.integer.inj hid, Cell.text.inj huuid, hcompany⟩

/-- A row that is inserted is in the table. -/
theorem exists_insert?_of_insert {clock : Nat} {owner : Company} {uuid : String} {values : List (Column k × Json)}
    (h : s.insert clock owner uuid values = .ok (r, s')) :
    ∃ t, (s.table k).insert? r = some t ∧ s' = s.withTable k t := by
  rw [insert] at h
  split at h
  · cases h
  · dsimp only at h
    split at h
    next made hmade =>
      cases h
      obtain ⟨new, -, hinsert⟩ := Option.bind_eq_some_iff.1 hmade
      obtain ⟨t, ht, e⟩ := Option.map_eq_some_iff.1 hinsert
      cases e
      exact ⟨t, ht, rfl⟩
    · cases h

end Store

/-! ## Creating -/

section Create

variable {old : Store} {ctx : Context} {owner : Company} {P : (k : Kind) → Row k → Prop}

private theorem ensures_overwriteResource_retains {I : Store → Prop} {found : Row k}
    (hfound : found ∈ (old.table k).rows) {values : Schema.Values}
    (hnames : P k found → ∀ name ∈ values.map Prod.fst, name ≠ "id" ∧ name ≠ "uuid" ∧ name ≠ "company_id") :
    Ensures I (· = old) (Request.overwriteResource ctx found values)
      fun p s => old.Retains P s ∧ p.1 ∈ (s.table k).rows := by
  refine (local_overwriteResource ctx found values).ensures.mono ?_
  rintro p s ⟨s₀, rfl, he⟩
  rw [Request.overwriteResource, effect_bind _ (local_change _) fun _ => local_pure _, effect_change] at he
  obtain ⟨⟨r', s'⟩, hupdate, e⟩ := bind_eq_ok.1 he
  cases e
  obtain ⟨-, -, ⟨-, rfl, rfl⟩ | ⟨-, -, -, hput⟩⟩ := Store.exists_of_update hupdate
  · exact ⟨.refl _ P, hfound⟩
  · exact Store.Retains.of_put (fun hP => Store.sameIdentity_of_update (hnames hP) hupdate) hfound hput

private theorem ensures_insertResource_retains {I : Store → Prop} (values : Schema.Values) :
    Ensures I (· = old) (Request.insertResource ctx owner k values)
      fun p s => old.Retains P s ∧ p.1 ∈ (s.table k).rows := by
  unfold Request.insertResource
  refine (ensures_attempt _).bind fun draft => Ensures.of_fact fun _ => ?_
  have hrest (uuid : String) : Ensures I (· = old) (do
      let r ← change fun s => s.insert ctx.clock owner uuid draft.values
      return (r, draft.attached)) fun (p : Row k × List (String × Json)) s =>
        old.Retains P s ∧ p.1 ∈ (s.table k).rows := by
    have hinsert : Ensures I (· = old) (change fun s => s.insert ctx.clock owner uuid draft.values)
        fun (r : Row k) s => old.Retains P s ∧ r ∈ (s.table k).rows := by
      refine (local_change _).ensures.mono ?_
      rintro r s ⟨s₀, rfl, he⟩
      rw [effect_change] at he
      obtain ⟨t, ht, rfl⟩ := Store.exists_insert?_of_insert he
      refine ⟨.of_insert ht, ?_⟩
      rw [Store.table_withTable, (Table.rows_of_insert? ht).2]
      simp [Table.placed]
    refine hinsert.bind fun r => (ensures_pure _).mono ?_
    rintro p s ⟨rfl, hretains⟩
    exact hretains
  have hdraw : Ensures I (· = old) drawUuid fun _ s => s = old := fun σ hI hP => ⟨hI, fun _ _ => hP⟩
  split
  · exact hdraw.bind hrest
  · exact hrest ""

private theorem ensures_newMembers_eq {I : Store → Prop} (payload : Json) :
    Ensures I (· = old) (Request.newMembers ctx owner k payload) fun _ s => s = old := by
  refine (local_newMembers ctx owner payload).ensures.mono ?_
  rintro users s ⟨s₀, rfl, he⟩
  rw [effect_newMembers] at he
  obtain ⟨users', -, e⟩ := map_eq_ok.1 he
  cases e
  rfl

/-- What is done after a row has been written keeps what the writing has kept. -/
private theorem ensures_finishCreate_retains (users : List (Row .user)) (status : Option Bool)
    (p : Row k × List (String × Json)) :
    Ensures (old.Retains P) (fun s => old.Retains P s ∧ p.1 ∈ (s.table k).rows) (do
      let r ← applyStatus ctx p.1 status
      Request.addNewMembers ctx users k r
      commit
      notify (.after .created (.one r.uuid))
      Request.renderOne ctx k p.2 r) fun _ _ => True := by
  have hstatus : Ensures (old.Retains P) (fun s => old.Retains P s ∧ p.1 ∈ (s.table k).rows)
      (applyStatus ctx p.1 status) fun _ s => old.Retains P s := by
    refine (local_applyStatus ctx p.1 status).ensures.mono ?_
    rintro r s ⟨s₀, ⟨hretains, hmem⟩, he⟩
    exact hretains.trans (.of_revises (.of_rewrites (.of_applyStatus hmem he)))
  have hadd (r : Row k) : Ensures (old.Retains P) (old.Retains P) (Request.addNewMembers ctx users k r)
      fun _ s => old.Retains P s := by
    refine (local_addNewMembers ctx users r).ensures.mono ?_
    rintro u s ⟨s₀, hretains, he⟩
    rw [effect_addNewMembers] at he
    cases he
    exact hretains.trans (.of_tables (s₀.table_withNewMembers ctx.clock users r))
  refine hstatus.bind fun r => (hadd r).bind fun _ => ?_
  exact ensures_finish (fun s hs => hs) .created p.2 r

/-- The attributes that are written name none of the identity, unless fixed ones do. -/
private theorem name_ne_of_mergeFields {attributes : Schema.Values} (hprofile : ProfileOnly k attributes)
    (hfree : ¬ctx.config.FixesIdentity k) {name : String}
    (hname : name ∈ (mergeFields (ctx.config.resource k).customAttributes attributes).map Prod.fst) :
    name ≠ "id" ∧ name ≠ "uuid" ∧ name ≠ "company_id" := by
  rcases name_of_mergeFields hname with hcustom | hgiven
  · obtain ⟨f, hf, rfl⟩ := List.mem_map.1 hcustom
    rw [Config.FixesIdentity, not_exists] at hfree
    simpa [hf, not_or] using hfree f
  · obtain ⟨f, hf, rfl⟩ := List.mem_map.1 hgiven
    exact hprofile.name_ne hf

/-- Creating keeps every row that it does not find, and the one that it finds unless fixed attributes change it. -/
private theorem ensures_runCreate_retains (payload : Json)
    (hprofile : ∀ attributes, (ctx.config.resource k).complete payload = .ok attributes → ProfileOnly k attributes)
    (hfixed : ∀ r : Row k, P k r → old.Recreates ctx.config owner (.create k payload) r →
      ¬ctx.config.FixesIdentity k) :
    Ensures (old.Retains P) (· = old) (Request.runCreate ctx owner k payload) fun _ _ => True := by
  unfold Request.runCreate
  refine (ensures_notify _).bind fun _ => (ensures_check _).bind fun attributes => ?_
  refine Ensures.of_fact fun hcomplete => (ensures_check _).bind fun status => Ensures.of_fact fun _ => ?_
  refine (ensures_newMembers_eq payload).bind fun users => ?_
  split
  · exact (ensures_attempt _).mono fun _ _ _ => trivial
  next key hkey =>
    have hlook : Ensures (old.Retains P) (· = old)
        (look fun s => s.findBy k owner (ctx.config.resource k).naturalKey key (ctx.config.resource k).ignoreCase)
        fun existing s => old.findBy k owner (ctx.config.resource k).naturalKey key
          (ctx.config.resource k).ignoreCase = .ok existing ∧ s = old := by
      refine (ensures_look _).mono ?_
      rintro existing s ⟨hexisting, rfl⟩
      exact ⟨hexisting, rfl⟩
    refine hlook.bind fun existing => Ensures.of_fact fun hexisting => ?_
    dsimp only
    split
    next found =>
      split
      · exact (ensures_refuse _ _).bind (ensures_finishCreate_retains users status)
      · have hfound := Store.mem_rows_of_owned (Store.mem_owned_of_findBy hexisting)
        refine (ensures_overwriteResource_retains hfound ?_).bind (ensures_finishCreate_retains users status)
        intro hP name hname
        have hfree := hfixed found hP ⟨payload, attributes, key, rfl, hcomplete, hkey, hexisting⟩
        exact name_ne_of_mergeFields (hprofile attributes hcomplete) hfree hname
    next => exact (ensures_insertResource_retains _).bind (ensures_finishCreate_retains users status)

private theorem retains_perform_create {d : Directory} (payload : Json)
    (hprofile : ∀ attributes, (ctx.config.resource k).complete payload = .ok attributes → ProfileOnly k attributes)
    (hfixed : ∀ r : Row k, P k r → d.store.Recreates ctx.config owner (.create k payload) r →
      ¬ctx.config.FixesIdentity k) :
    d.store.Retains P (d.perform ctx owner (.create k payload)).directory.store := by
  have hsteps : Ensures (d.store.Retains P) (· = d.store) (Request.steps ctx owner (.create k payload))
      fun _ _ => True := by
    unfold Request.steps
    exact (ensures_check _).bind fun _ => Ensures.of_fact fun _ => ensures_runCreate_retains payload hprofile hfixed
  exact hsteps.run (.refl d.store P) rfl

end Create

private theorem retains_perform_edit {ctx : Context} (h : ctx.config.IsStandard) (d : Directory) (owner : Company)
    (identifier : Json) (e : Edit) (P : (k : Kind) → Row k → Prop) :
    d.store.Retains P (d.perform ctx owner (e.request k identifier)).directory.store := by
  rw [Directory.directory_edit h]
  cases hfound : d.store.found ctx.config owner k identifier with
  | error failure =>
    rw [Store.attempted_of_error hfound]
    exact .refl d.store P
  | ok found =>
    rw [Store.attempted_of_ok hfound]
    have hmem := Store.mem_rows_of_owned (Store.mem_owned_of_get h (Store.found_eq_ok.1 hfound).2)
    obtain ⟨r', hrevises⟩ := Store.exists_revises_edited h owner hmem e
    exact .of_revises hrevises

/-- Users and groups keep their numbers, their identifiers and their companies when resources are created, replaced
or patched; only a user that is created again loses them if the settings fix one of these attributes. -/
theorem identity_kept {s : Settings} {c : Config} (hb : Config.build s = .ok c) (d : Directory) (clock : Nat)
    (owner : Company) {request : Request} (hwrites : request.writes = true) {k : Kind} {r : Row k}
    (hr : r ∈ (d.store.table k).rows)
    (hfixed : d.store.Recreates c owner request r → ¬c.FixesIdentity k) :
    ∃ r' ∈ ((d.perform ⟨c, clock⟩ owner request).directory.store.table k).rows, r.SameIdentity r' := by
  have h : (Context.mk c.plain clock).config.IsStandard := Config.isStandard_plain hb
  have hedited (k' : Kind) (identifier : Json) (e : Edit) :
      ∃ r' ∈ ((d.perform ⟨c, clock⟩ owner (e.request k' identifier)).directory.store.table k).rows,
        r.SameIdentity r' := by
    have hrequest : ∀ payload, e.request k' identifier ≠ .create .user payload := by
      cases e <;> exact nofun
    rw [← Directory.perform_plain c clock owner d hrequest]
    exact retains_perform_edit h d owner identifier e (fun _ _ => True) k r hr trivial
  cases request with
  | create k' payload =>
    have hprofile : ∀ attributes, (c.resource k').complete payload = .ok attributes → ProfileOnly k' attributes := by
      intro attributes hcomplete
      apply h.profileOnly_complete
      rw [← hcomplete]
      cases k' <;> rfl
    have hretains : d.store.Retains
        (fun k x => d.store.Recreates c owner (.create k' payload) x → ¬c.FixesIdentity k)
        (d.perform ⟨c, clock⟩ owner (.create k' payload)).directory.store :=
      retains_perform_create payload hprofile fun _ hspared => hspared
    exact hretains k r hr hfixed
  | replace k' identifier payload => exact hedited k' identifier (.replace payload)
  | patch k' identifier operations => exact hedited k' identifier (.patch operations)
  | list => cases hwrites
  | «show» => cases hwrites
  | delete => cases hwrites

/-- Settings that fix an attribute of users. -/
private def fixing (name : String) (value : Json) : Settings := { customUserAttributes := [(name, value)] }

private def adaAgain : Request := .create .user (.obj [
  ("name", .obj [("givenName", .str "Ada"), ("familyName", .str "Lovelace")]),
  ("emails", .arr [.obj [("value", .str "ADA@acme.example")]])])

/-- A user who is created again where the settings fix another address is the same user. -/
theorem identity_kept_sample :
    ∃ u ∈ (Sample.directory.perform ⟨Sample.built (fixing "alternate_email" (.str "it@acme.example")), 5⟩ Sample.acme
      adaAgain).directory.store.users.rows, Sample.ada.SameIdentity u := by
  have hbuild : Config.build (fixing "alternate_email" (.str "it@acme.example")) =
      .ok (Sample.built (fixing "alternate_email" (.str "it@acme.example"))) := rfl
  refine identity_kept hbuild Sample.directory 5 Sample.acme rfl (k := .user) List.mem_cons_self fun _ hfixes => ?_
  obtain ⟨f, hf, hname⟩ := hfixes
  cases List.mem_singleton.1 hf
  exact absurd hname (by decide)

/-- The condition cannot be left out: a user who is created again passes to the company that the settings fix. -/
theorem not_identity_kept :
    ¬∀ {s : Settings} {c : Config}, Config.build s = .ok c → ∀ (d : Directory) (clock : Nat) (owner : Company)
      (request : Request), request.writes = true → ∀ {k : Kind} {r : Row k}, r ∈ (d.store.table k).rows →
        ∃ r' ∈ ((d.perform ⟨c, clock⟩ owner request).directory.store.table k).rows, r.SameIdentity r' := by
  intro hkept
  have hbuild : Config.build (fixing "company_id" (.int 2)) = .ok (Sample.built (fixing "company_id" (.int 2))) := rfl
  obtain ⟨u, hu, hsame⟩ := hkept hbuild Sample.directory 5 Sample.acme adaAgain rfl (k := .user)
    (r := Sample.ada) List.mem_cons_self
  have hcompanies : (Sample.directory.perform ⟨Sample.built (fixing "company_id" (.int 2)), 5⟩ Sample.acme
      adaAgain).directory.store.users.rows.map (fun u => (u.id, u.company)) =
        [(1, .integer 2), (2, .integer 1), (3, .integer 2)] := by decide +kernel
  have hmem : (u.id, u.company) ∈ [(1, Cell.integer 2), (2, .integer 1), (3, .integer 2)] := by
    rw [← hcompanies]
    exact List.mem_map_of_mem hu
  rw [hsame.id, hsame.company] at hmem
  exact absurd hmem (by decide)

end Roster
