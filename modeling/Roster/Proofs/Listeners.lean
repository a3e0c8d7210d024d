import Roster.Proofs.Atomicity
import Roster.Proofs.Commutation
import Roster.Proofs.ConfigurationErrors
import Roster.Proofs.Renumbering
import Roster.Proofs.StoredAnswers

/-!
What listeners are told.

Listeners are told of every request before it starts, and of one event if it succeeds: of what has been listed, shown,
written or deleted, after the store has been committed. A request that fails tells them nothing more. So along a run
the events tell how the store has come to be what it is.
-/

set_option autoImplicit false

namespace Roster

variable {k : Kind} {α β : Type} {s s' s'' : Store} {owner : Company}

/-! ## Steps -/

namespace Step

/-- The step tells listeners nothing. -/
def Silent (x : Step α) : Prop :=
  ∀ σ, (exec x σ).2.told = σ.told

namespace Silent

theorem bind {x : Step α} {f : α → Step β} (hx : Silent x) (hf : ∀ a, Silent (f a)) : Silent (x >>= f) := by
  intro σ
  have h := hx σ
  rw [exec_bind]
  generalize exec x σ = p at h ⊢
  rcases p with ⟨e | a, τ⟩
  · exact h
  · exact (hf a τ).trans h

theorem of_local {x : Step α} (hx : Local x) : Silent x := by
  intro σ
  cases h : effect x σ.current with
  | error e =>
    obtain ⟨s, hs⟩ := hx.error h
    rw [hs]
  | ok p => rw [hx.ok h]

theorem drawUuid : Silent drawUuid := fun _ => rfl

end Silent

/-- If the step succeeds it tells listeners of one event, when all is committed, and of what it names by its answer;
if it fails it tells them nothing. -/
structure Tells (event : Event) (Names : Json → Subject → Prop) (x : Step Json) : Prop where
  error : ∀ {σ : Session} {e : Failure}, (exec x σ).1 = .error e → (exec x σ).2.told = σ.told
  ok : ∀ {σ : Session} {body : Json}, (exec x σ).1 = .ok body → ∃ subject, Names body subject ∧
    (exec x σ).2.told = σ.told ++ [⟨.after event subject, (exec x σ).2.committed⟩]

namespace Tells

variable {event : Event} {Names : Json → Subject → Prop}

/-- A silent step may come first; only the results that it can have count for what follows. -/
theorem bind {x : Step α} {f : α → Step Json} (hx : Silent x)
    (hf : ∀ σ a, (exec x σ).1 = .ok a → Tells event Names (f a)) : Tells event Names (x >>= f) := by
  constructor
  · intro σ e
    have h := hx σ
    have hf := hf σ
    rw [exec_bind]
    generalize exec x σ = p at h hf ⊢
    rcases p with ⟨e' | a, τ⟩
    · exact fun _ => h
    · exact fun he => ((hf a rfl).error he).trans h
  · intro σ body
    have h := hx σ
    have hf := hf σ
    rw [exec_bind]
    generalize exec x σ = p at h hf ⊢
    rcases p with ⟨e | a, τ⟩
    · exact fun hbody => (nomatch hbody)
    · intro hbody
      dsimp only at h
      rw [← h]
      exact (hf a rfl).ok hbody

theorem of_exec {x : Step Json} (h : ∀ σ, ∃ body subject τ, exec x σ = (.ok body, τ) ∧ Names body subject ∧
    τ.told = σ.told ++ [⟨.after event subject, τ.committed⟩]) : Tells event Names x := by
  constructor
  · intro σ e he
    obtain ⟨body, subject, τ, hexec, -⟩ := h σ
    rw [hexec] at he
    cases he
  · intro σ body hbody
    obtain ⟨body', subject, τ, hexec, hnames, htold⟩ := h σ
    rw [hexec] at hbody ⊢
    cases hbody
    exact ⟨subject, hnames, htold⟩

theorem attempt_error (e : Failure) : Tells event Names (attempt (.error e)) :=
  ⟨fun _ => rfl, fun h => (nomatch h)⟩

end Tells

end Step

open Step

/-! ## Requests -/

namespace Request

/-- What a request gives to be told of: its own parameters. -/
def parameters : Request → Json
  | list _ filter start count => .obj [("filter", filter), ("startIndex", start), ("count", count)]
  | .show _ identifier | delete _ identifier => .obj [("id", identifier)]
  | create _ payload | replace _ _ payload => announced payload
  | patch _ identifier operations =>
    .obj [("id", identifier), ("Operations", .arr (operations.map PatchOperation.json))]

/-- What happens to resources by a request that succeeds. -/
def event : Request → Event
  | list _ _ _ _ | .show _ _ => .retrieved
  | create _ _ => .created
  | replace _ _ _ | patch _ _ _ => .updated
  | delete _ _ => .deleted

/-- The answer is a document of the one resource. -/
def NamesOne (body : Json) (subject : Subject) : Prop :=
  ∃ uuid, body.field? "id" = some (.str uuid) ∧ subject = .one uuid

/-- The answer has a document for each of the resources, in their order. -/
def NamesMany (body : Json) (subject : Subject) : Prop :=
  ∃ documents uuids, body.field? "Resources" = some (.arr documents) ∧
    documents.map (Json.field? "id") = uuids.map (fun uuid => some (Json.str uuid)) ∧ subject = .many uuids

/-- What a request names to listeners when it has succeeded: by its answer, or, where there is none, the resource that
it has looked for. -/
def Names (c : Config) (owner : Company) (d : Directory) (body : Json) (subject : Subject) : Request → Prop
  | list _ _ _ _ => NamesMany body subject
  | .show _ _ | create _ _ | replace _ _ _ | patch _ _ _ => NamesOne body subject
  | delete k identifier => ∃ r : Row k, d.store.get c k owner identifier = .ok r ∧ subject = .one r.uuid

end Request

section Requests

variable {c : Config} {clock : Nat} (h : c.IsStandard)

include h

/-- The end of a request that has written a resource. -/
private theorem tells_finish (event : Event) (r : Row k) :
    Tells event Request.NamesOne (do
      commit
      notify (.after event (.one r.uuid))
      Request.renderOne ⟨c, clock⟩ k [] r) := by
  refine .of_exec fun σ => ⟨_, .one r.uuid, _, (exec_bind_ok (exec_commit σ)).trans
    ((exec_bind_ok (exec_notify _ _)).trans (exec_renderOne h clock r _)), ?_, rfl⟩
  exact ⟨r.uuid, σ.current.id_document r, rfl⟩

/-- On any directory, listeners are told of the parameters first. If the step fails that is all; if it succeeds they
are told of one event, in the end. -/
def Announces (parameters : Json) (event : Event) (Names : Directory → Json → Subject → Prop) (x : Step Json) : Prop :=
  ∀ d : Directory,
    (∀ e, (exec x d.start).1 = .error e → (exec x d.start).2.told = [⟨.before parameters, d.store⟩]) ∧
    ∀ body, (exec x d.start).1 = .ok body → ∃ subject, Names d body subject ∧
      (exec x d.start).2.told =
        [⟨.before parameters, d.store⟩, ⟨.after event subject, (exec x d.start).2.committed⟩]

omit h in
private theorem announces_of_tells {parameters : Json} {event : Event} {Names : Json → Subject → Prop}
    {f : Unit → Step Json} (hf : Tells event Names (f ())) :
    Announces parameters event (fun _ => Names) (notify (.before parameters) >>= f) := by
  intro d
  rw [exec_bind_ok (exec_notify (.before parameters) d.start)]
  exact ⟨fun _ he => hf.error he, fun _ hbody => hf.ok hbody⟩

private theorem announces_runList (pager : Pager) (filter start count : Json) :
    Announces (Request.list k filter start count).parameters .retrieved (fun _ => Request.NamesMany)
      (Request.runList ⟨c, clock⟩ owner pager k filter start count) := by
  unfold Request.runList
  refine announces_of_tells (.bind (.of_local (local_attempt _)) fun _ window _ => ?_)
  refine .bind (.of_local (local_attempt _)) fun _ expression _ => .bind (.of_local (local_look _)) fun _ page _ => ?_
  have hobjects (s : Store) : (page.items.map (s.document k)).all Json.isObject = true := by
    rw [List.all_map]
    exact List.all_eq_true.2 fun r _ => (s.sendable_document r).1
  refine .of_exec fun σ => ⟨
    listAnswer page.total window.startIndex window.limit (page.items.map (σ.current.document k)),
    .many (page.items.map Row.uuid),
    { σ with told := σ.told ++ [⟨.after .retrieved (.many (page.items.map Row.uuid)), σ.committed⟩] }, ?_, ?_, rfl⟩
  · refine (exec_bind_ok (exec_notify _ _)).trans ((exec_bind_ok (exec_render h clock page.items _)).trans ?_)
    dsimp only
    rw [hobjects]
    rfl
  · refine ⟨_, _, rfl, ?_, rfl⟩
    rw [List.map_map, List.map_map]
    exact List.map_congr_left fun r _ => σ.current.id_document r

private theorem announces_runShow (identifier : Json) :
    Announces (Request.show k identifier).parameters .retrieved (fun _ => Request.NamesOne)
      (Request.runShow ⟨c, clock⟩ owner k identifier) := by
  unfold Request.runShow
  refine announces_of_tells (.bind (.of_local (local_look _)) fun _ r _ => ?_)
  refine .of_exec fun σ => ⟨_, .one r.uuid, _,
    (exec_bind_ok (exec_notify _ _)).trans (exec_renderOne h clock r _), ?_, rfl⟩
  exact ⟨r.uuid, σ.current.id_document r, rfl⟩

private theorem announces_runCreate (payload : Json) :
    Announces (Request.create k payload).parameters .created (fun _ => Request.NamesOne)
      (Request.runCreate ⟨c, clock⟩ owner k payload) := by
  have hinsert (attributes : Schema.Values) : Silent (Request.insertResource ⟨c, clock⟩ owner k attributes) := by
    unfold Request.insertResource
    refine .bind (.of_local (local_attempt _)) fun draft => ?_
    dsimp only
    split
    · exact .bind .drawUuid fun _ => .bind (.of_local (local_change _)) fun _ => .of_local (local_pure _)
    · refine .bind (.of_local (local_pure _)) fun _ => ?_
      exact .bind (.of_local (local_change _)) fun _ => .of_local (local_pure _)
  unfold Request.runCreate
  refine announces_of_tells (.bind (.of_local (local_check _)) fun σ attributes ha => ?_)
  refine .bind (.of_local (local_check _)) fun _ status _ => ?_
  refine .bind (.of_local (local_newMembers _ _ _)) fun _ members _ => ?_
  have hprofile := h.profileOnly_merged (h.profileOnly_complete (eq_ok_of_mapError ha))
  have hfinish (p : Row k × List (String × Json)) (hp : p.2 = []) : Tells .created Request.NamesOne (do
      let r ← applyStatus ⟨c, clock⟩ p.1 status
      Request.addNewMembers ⟨c, clock⟩ members k r
      commit
      notify (.after .created (.one r.uuid))
      Request.renderOne ⟨c, clock⟩ k p.2 r) := by
    rw [hp]
    refine .bind (.of_local (local_applyStatus _ _ _)) fun _ r _ => ?_
    exact .bind (.of_local (local_addNewMembers _ _ _)) fun _ _ _ => tells_finish h .created r
  split
  · exact .attempt_error _
  · refine .bind (.of_local (local_look _)) fun _ existing _ => ?_
    dsimp only
    split
    · split
      · exact .bind (.of_local (local_refuse _)) fun _ p hp => by cases hp
      · exact .bind (.of_local (local_overwriteResource _ _ _)) fun _ p hp =>
          hfinish p (attached_of_overwriteResource hp)
    · exact .bind (hinsert _) fun _ p hp => hfinish p (attached_of_insertResource hprofile hp)

private theorem announces_runReplace (identifier payload : Json) :
    Announces (Request.replace k identifier payload).parameters .updated (fun _ => Request.NamesOne)
      (Request.runReplace ⟨c, clock⟩ owner k identifier payload) := by
  unfold Request.runReplace
  refine announces_of_tells (.bind (.of_local (local_look _)) fun _ r _ => ?_)
  refine .bind (.of_local (local_replacedMembers _ _ _)) fun _ members _ => ?_
  refine .bind (.of_local (local_check _)) fun _ status _ => .bind (.of_local (local_check _)) fun _ attributes _ => ?_
  refine .bind (.of_local (local_updateAttributes _ _ _ _)) fun _ r _ => ?_
  refine .bind (.of_local (local_applyStatus _ _ _)) fun _ r _ => ?_
  exact .bind (.of_local (local_setMembers _ _ _)) fun _ _ _ => tells_finish h .updated r

private theorem announces_runPatch (atomic : c.atomicPatch = true) (identifier : Json)
    (operations : List PatchOperation) :
    Announces (Request.patch k identifier operations).parameters .updated (fun _ => Request.NamesOne)
      (Request.runPatch ⟨c, clock⟩ owner k identifier operations) := by
  unfold Request.runPatch
  refine announces_of_tells (.bind (.of_local (local_look _)) fun _ r _ => ?_)
  exact .bind (.of_local (local_applyOperations _ _ atomic _ _)) fun _ r _ => tells_finish h .updated r

omit h in
private theorem announces_runDelete (identifier : Json) :
    Announces (Request.delete k identifier).parameters .deleted
      (fun d _ subject => ∃ r : Row k, d.store.get c k owner identifier = .ok r ∧ subject = .one r.uuid)
      (Request.runDelete ⟨c, clock⟩ owner k identifier) := by
  intro d
  cases hget : d.store.get c k owner identifier with
  | error e =>
    have hexec : exec (Request.runDelete ⟨c, clock⟩ owner k identifier) d.start =
        (.error e, { d.start with told := [⟨.before (Request.delete k identifier).parameters, d.store⟩] }) := by
      unfold Request.runDelete
      rw [exec_bind_ok (exec_notify _ d.start), exec_bind, exec_look]
      dsimp only [Directory.start]
      rw [hget]
      rfl
    rw [hexec]
    refine ⟨fun _ _ => rfl, fun _ hbody => ?_⟩
    cases hbody
  | ok r =>
    have hexec : exec (Request.runDelete ⟨c, clock⟩ owner k identifier) d.start =
        (.ok .null, { d.start with
          committed := d.store.erase k r
          current := d.store.erase k r
          told := [⟨.before (Request.delete k identifier).parameters, d.store⟩,
            ⟨.after .deleted (.one r.uuid), d.store.erase k r⟩] }) := by
      unfold Request.runDelete
      rw [exec_bind_ok (exec_notify _ d.start), exec_bind, exec_look]
      dsimp only [Directory.start]
      rw [hget]
      rfl
    rw [hexec]
    refine ⟨fun _ he => ?_, fun _ _ => ⟨.one r.uuid, ⟨r, hget, rfl⟩, rfl⟩⟩
    cases he

private theorem announces_steps (atomic : c.atomicPatch = true) (request : Request) {pager : Pager}
    (hserve : c.serve request.kind = .ok pager) :
    Announces request.parameters request.event (fun d body subject => request.Names c owner d body subject)
      (request.steps ⟨c, clock⟩ owner) := by
  intro d
  have hcheck : exec (check ((c.serve request.kind).mapError .configuration)) d.start = (.ok pager, d.start) := by
    rw [hserve]
    rfl
  unfold Request.steps
  rw [exec_bind_ok hcheck]
  cases request with
  | list k filter start count => exact announces_runList h pager filter start count d
  | «show» k identifier => exact announces_runShow h identifier d
  | create k payload => exact announces_runCreate h payload d
  | replace k identifier payload => exact announces_runReplace h identifier payload d
  | patch k identifier operations => exact announces_runPatch h atomic identifier operations d
  | delete k identifier => exact announces_runDelete identifier d

end Requests

/-! ## What a request has to do with -/

/-- The resources that a request of a company has to do with: those that its answer lists or shows, the one that it
has written and answers with, or the one that it has deleted. -/
def Request.Concerns (owner : Company) (s : Store) (body : Json) (s' : Store) (subject : Subject) : Request → Prop
  | list k _ _ _ => s' = s ∧ ∃ rows : List (Row k), (∀ r ∈ rows, r ∈ s.owned k owner) ∧
      body.field? "Resources" = some (.arr (rows.map (s.document k))) ∧ subject = .many (rows.map Row.uuid)
  | .show k identifier => s' = s ∧ ∃ r ∈ s.owned k owner,
      r.uuid = identifier.text ∧ body = s.document k r ∧ subject = .one r.uuid
  | create k _ => ∃ r ∈ s'.owned k owner, body = s'.document k r ∧ s.Alters owner k r.id s' ∧ subject = .one r.uuid
  | replace k identifier _ | patch k identifier _ => ∃ r ∈ s'.owned k owner,
      r.uuid = identifier.text ∧ body = s'.document k r ∧ s.Alters owner k r.id s' ∧ subject = .one r.uuid
  | delete k identifier => ∃ r ∈ s.owned k owner,
      r.uuid = identifier.text ∧ s' = s.erase k r ∧ subject = .one r.uuid

private theorem eq_of_namesOne {body : Json} {subject : Subject} {r : Row k} (hbody : body = s.document k r)
    (hnames : Request.NamesOne body subject) : subject = .one r.uuid := by
  obtain ⟨uuid, hid, rfl⟩ := hnames
  rw [hbody, s.id_document r] at hid
  cases hid
  rfl

private theorem eq_of_namesMany {body : Json} {subject : Subject} {rows : List (Row k)}
    (hbody : body.field? "Resources" = some (.arr (rows.map (s.document k))))
    (hnames : Request.NamesMany body subject) : subject = .many (rows.map Row.uuid) := by
  obtain ⟨documents, uuids, hdocuments, hids, rfl⟩ := hnames
  rw [hbody] at hdocuments
  cases hdocuments
  have hrows : (rows.map (s.document k)).map (Json.field? "id") =
      (rows.map Row.uuid).map fun uuid => some (Json.str uuid) := by
    rw [List.map_map, List.map_map]
    exact List.map_congr_left fun r _ => s.id_document r
  have hinjective : Function.Injective fun uuid => some (Json.str uuid) := by
    intro uuid uuid' huuid
    cases huuid
    rfl
  rw [List.map_injective_iff.2 hinjective (hids.symm.trans hrows)]

section Concerns

variable {ctx : Context} (h : ctx.config.IsStandard) {d : Directory} {body : Json} {subject : Subject}

include h

omit h in
private theorem concerns_list {pager : Pager} {filter start count : Json}
    (hbody : d.store.listing ctx.config owner pager k filter start count = .ok body)
    (hnames : Request.NamesMany body subject) :
    (Request.list k filter start count).Concerns owner d.store body d.store subject := by
  obtain ⟨window, -, hbody⟩ := bind_eq_ok.1 hbody
  obtain ⟨expression, -, hbody⟩ := bind_eq_ok.1 hbody
  obtain ⟨page, hpage, hbody⟩ := bind_eq_ok.1 hbody
  cases hbody
  exact ⟨rfl, page.items, Store.mem_owned_of_query hpage, rfl, eq_of_namesMany rfl hnames⟩

private theorem concerns_patch {pager : Pager} {identifier : Json} {operations : List PatchOperation}
    (hbody : (d.answer ctx owner pager (.patch k identifier operations)).1 = .ok body)
    (hnames : Request.NamesOne body subject) :
    (Request.patch k identifier operations).Concerns owner d.store body
      (d.answer ctx owner pager (.patch k identifier operations)).2.store subject := by
  dsimp only [Directory.answer, Directory.patched] at hbody ⊢
  cases hget : d.store.get ctx.config k owner identifier with
  | error e =>
    rw [hget] at hbody
    cases hbody
  | ok r =>
    rw [hget] at hbody
    dsimp only at hbody ⊢
    obtain ⟨-, hmem, huuid⟩ := (d.store.get_eq_ok h owner).1 hget
    obtain ⟨r', hr', hdocument⟩ := map_eq_ok.1 hbody
    have hpatched : d.store.patched ctx owner r operations = (.ok r', (d.store.patched ctx owner r operations).2) :=
      Prod.ext hr' rfl
    obtain ⟨hmem', huuid'⟩ := Store.mem_owned_of_patched h hmem hpatched
    have hrevises := Store.Revises.of_patched h owner (Store.mem_rows_of_owned hmem) hpatched
    have halters := (Store.Alters.of_mem hmem).patched h hmem rfl operations
    rw [← hrevises.rewrites.id] at halters
    rw [hr']
    exact ⟨r', hmem', huuid'.trans huuid, hdocument.symm, halters, eq_of_namesOne hdocument.symm hnames⟩

/-- What a request names to listeners is what it has to do with. -/
private theorem concerns_of_names (pager : Pager) {request : Request}
    (hbody : (d.answer ctx owner pager request).1 = .ok body)
    (hnames : request.Names ctx.config owner d body subject) :
    request.Concerns owner d.store body (d.answer ctx owner pager request).2.store subject := by
  cases request with
  | list k filter start count => exact concerns_list hbody hnames
  | «show» k identifier =>
    obtain ⟨r, hget, hdocument⟩ := map_eq_ok.1 hbody
    obtain ⟨-, hmem, huuid⟩ := (d.store.get_eq_ok h owner).1 hget
    exact ⟨rfl, r, hmem, huuid, hdocument.symm, eq_of_namesOne hdocument.symm hnames⟩
  | create k payload =>
    dsimp only [Directory.answer, Directory.changed] at hbody ⊢
    obtain ⟨⟨r, s'⟩, hcreated, hdocument⟩ := map_eq_ok.1 hbody
    rw [hcreated]
    exact ⟨r, Store.mem_owned_of_created h hcreated, hdocument.symm, Store.alters_of_created h hcreated,
      eq_of_namesOne hdocument.symm hnames⟩
  | replace k identifier payload =>
    dsimp only [Directory.answer, Directory.changed] at hbody ⊢
    obtain ⟨⟨r, s'⟩, hreplaced, hdocument⟩ := map_eq_ok.1 hbody
    have hfound := (d.store.replaced_eq ctx owner k identifier payload).symm.trans hreplaced
    obtain ⟨found, hget, hrewritten⟩ := bind_eq_ok.1 hfound
    obtain ⟨-, hmem, huuid⟩ := (d.store.get_eq_ok h owner).1 hget
    obtain ⟨hmem', huuid'⟩ := Store.mem_owned_of_edited h hmem (Store.edited_replace_eq_ok.2 hrewritten)
    rw [hreplaced]
    exact ⟨r, hmem', huuid'.trans huuid, hdocument.symm, Store.alters_of_replaced h hreplaced,
      eq_of_namesOne hdocument.symm hnames⟩
  | patch k identifier operations => exact concerns_patch h hbody hnames
  | delete k identifier =>
    obtain ⟨r, hget, rfl⟩ := hnames
    obtain ⟨-, hmem, huuid⟩ := (d.store.get_eq_ok h owner).1 hget
    refine ⟨r, hmem, huuid, ?_, rfl⟩
    dsimp only [Directory.answer]
    rw [Store.deleted, hget]
    rfl

end Concerns

/-! ## What is told of a request -/

/-- Listeners are told of a request and its parameters first. If it fails that is all, and nothing has been changed; if
it succeeds they are told of one event, of its kind, and of what it has to do with, when all has been committed. -/
structure Request.IsAnnounced (owner : Company) (d : Directory) (request : Request) (o : Outcome Json) : Prop where
  failed : ∀ e, o.result = .error e →
    o.told = [⟨.before request.parameters, d.store⟩] ∧ o.directory.store = d.store
  done : ∀ body, o.result = .ok body → ∃ subject,
    request.Concerns owner d.store body o.directory.store subject ∧
      o.told = [⟨.before request.parameters, d.store⟩, ⟨.after request.event subject, o.directory.store⟩]

private theorem isAnnounced_perform {c : Config} (h : c.IsStandard) (atomic : c.atomicPatch = true)
    (hserve : ∀ k, ∃ pager, c.serve k = .ok pager) (d : Directory) (clock : Nat) (owner : Company) (request : Request) :
    request.IsAnnounced owner d (d.perform ⟨c, clock⟩ owner request) := by
  obtain ⟨pager, hpager⟩ := hserve request.kind
  have hannounces : Announces request.parameters request.event
      (fun d body subject => request.Names c owner d body subject) (request.steps ⟨c, clock⟩ owner) :=
    announces_steps h atomic request hpager
  obtain ⟨hfailed, hdone⟩ := hannounces d
  have hctx : (Context.mk c clock).config.IsStandard := h
  constructor
  · intro e he
    exact ⟨hfailed e he, store_perform h atomic d request (.inl ⟨e, he⟩)⟩
  · intro body hbody
    obtain ⟨subject, hnames, htold⟩ := hdone body hbody
    refine ⟨subject, ?_, htold⟩
    rcases Directory.perform_cases hctx d owner request with ⟨e, hrefused, -, -⟩ | ⟨pager', -, hresult, hleft⟩
    · cases hpager.symm.trans hrefused
    · rw [hresult] at hbody
      rw [hleft]
      exact concerns_of_names hctx pager' hbody hnames

/-! ## Runs -/

/-- A store comes of another by an event: a resource is created or updated and nothing else is changed, or a resource
is deleted. -/
inductive Store.Becomes (s : Store) : Event → String → Store → Prop
  | created {k : Kind} {owner : Company} {r : Row k} {s' : Store} (hr : r ∈ s'.owned k owner)
    (halters : s.Alters owner k r.id s') : Becomes s .created r.uuid s'
  | updated {k : Kind} {owner : Company} {r : Row k} {s' : Store} (hr : r ∈ s'.owned k owner)
    (halters : s.Alters owner k r.id s') : Becomes s .updated r.uuid s'
  | deleted {k : Kind} {owner : Company} {r : Row k} (hr : r ∈ s.owned k owner) :
    Becomes s .deleted r.uuid (s.erase k r)

/-- What listeners have been told is how one store has come of another: each event of a change tells of one step, and
in between the store has stayed as it was. -/
inductive History (s : Store) : List Telling → Store → Prop
  | start : History s [] s
  | before {told : List Telling} {s' : Store} {parameters : Json} (h : History s told s') :
    History s (told ++ [⟨.before parameters, s'⟩]) s'
  | retrieved {told : List Telling} {s' : Store} {subject : Subject} (h : History s told s') :
    History s (told ++ [⟨.after .retrieved subject, s'⟩]) s'
  | changed {told : List Telling} {s' s'' : Store} {event : Event} {uuid : String} (h : History s told s')
    (hbecomes : s'.Becomes event uuid s'') : History s (told ++ [⟨.after event (.one uuid), s''⟩]) s''

theorem History.append {told told' : List Telling} (h : History s told s') (h' : History s' told' s'') :
    History s (told ++ told') s'' := by
  induction h' with
  | start =>
    rw [List.append_nil]
    exact h
  | before _ ih =>
    rw [← List.append_assoc]
    exact .before ih
  | retrieved _ ih =>
    rw [← List.append_assoc]
    exact .retrieved ih
  | changed _ hbecomes ih =>
    rw [← List.append_assoc]
    exact .changed ih hbecomes

private theorem History.of_isAnnounced {d : Directory} {request : Request} {o : Outcome Json}
    (h : request.IsAnnounced owner d o) : History d.store o.told o.directory.store := by
  have hbefore : History d.store ([] ++ [⟨.before request.parameters, d.store⟩]) d.store := .before .start
  cases hresult : o.result with
  | error e =>
    obtain ⟨htold, hstore⟩ := h.failed e hresult
    rw [htold, hstore]
    exact hbefore
  | ok body =>
    obtain ⟨subject, hconcerns, htold⟩ := h.done body hresult
    rw [htold]
    cases request with
    | list k filter start count =>
      obtain ⟨hstore, -⟩ := hconcerns
      rw [hstore]
      exact hbefore.retrieved
    | «show» k identifier =>
      obtain ⟨hstore, -⟩ := hconcerns
      rw [hstore]
      exact hbefore.retrieved
    | create k payload =>
      obtain ⟨r, hr, -, halters, rfl⟩ := hconcerns
      exact hbefore.changed (.created hr halters)
    | replace k identifier payload =>
      obtain ⟨r, hr, -, -, halters, rfl⟩ := hconcerns
      exact hbefore.changed (.updated hr halters)
    | patch k identifier operations =>
      obtain ⟨r, hr, -, -, halters, rfl⟩ := hconcerns
      exact hbefore.changed (.updated hr halters)
    | delete k identifier =>
      obtain ⟨r, hr, -, hstore, rfl⟩ := hconcerns
      rw [hstore]
      exact hbefore.changed (.deleted hr)

/-- What listeners are told in the course of calls, one after the other. -/
def Directory.told (c : Config) : Directory → List Call → List Telling
  | _, [] => []
  | d, call :: rest =>
    (d.perform ⟨c, call.clock⟩ call.owner call.request).told ++ (d.afterCall c call).told c rest

/-- If services can be opened and PATCH is atomic, listeners are told of every request first. If it fails they are told
nothing more, and nothing has been changed. If it succeeds they are told once more when all has been committed: of
what has been listed, shown, written or deleted. So what they are told in a run is how the store has come to be what
it is. -/
theorem tells_of_every_request {s : Settings} {c : Config} (hb : Config.build s = .ok c)
    (hs : s.customUserAttributes = []) (hatomic : s.atomicPatch = true) (hsizes : s.HasPageSizes) :
    (∀ (d : Directory) (clock : Nat) (owner : Company) (request : Request),
      request.IsAnnounced owner d (d.perform ⟨c, clock⟩ owner request)) ∧
    ∀ (d : Directory) (calls : List Call), History d.store (d.told c calls) (d.after c calls).store := by
  have h := Config.isStandard_of_build hb hs
  have hatomic' : c.atomicPatch = true := (Config.atomicPatch_of_build hb).trans hatomic
  have hserve := Config.exists_serve hb hsizes.1 hsizes.2
  have hrequest := isAnnounced_perform h hatomic' hserve
  refine ⟨hrequest, fun d calls => ?_⟩
  induction calls generalizing d with
  | nil => exact .start
  | cons call rest ih =>
    have hcall : History d.store (d.perform ⟨c, call.clock⟩ call.owner call.request).told (d.afterCall c call).store :=
      .of_isAnnounced (hrequest d call.clock call.owner call.request)
    exact hcall.append (ih (d.afterCall c call))

/-- Deletes a user, who is not there any more when the user is to be archived. -/
private def departures : List Call := [
  ⟨5, Sample.acme, .delete .user (.str "u1")⟩,
  ⟨9, Sample.acme, .patch .user (.str "u1") [⟨"replace", some "active", some (.bool false)⟩]⟩]

theorem tells_of_every_request_sample :
    (∃ r ∈ Sample.store.owned .user Sample.acme, r.uuid = "u1" ∧
      (Sample.directory.perform ⟨Sample.config true, 5⟩ Sample.acme (.delete .user (.str "u1"))).told =
        [⟨.before (.obj [("id", .str "u1")]), Sample.store⟩,
          ⟨.after .deleted (.one r.uuid), Sample.store.erase .user r⟩]) ∧
    History Sample.store (Sample.directory.told (Sample.config true) departures)
      (Sample.directory.after (Sample.config true) departures).store := by
  obtain ⟨hrequest, hrun⟩ := tells_of_every_request (Sample.build_config true) rfl rfl Settings.hasPageSizes_default
  refine ⟨?_, hrun Sample.directory departures⟩
  have hdeleted := hrequest Sample.directory 5 Sample.acme (.delete .user (.str "u1"))
  have hok : (Sample.directory.perform ⟨Sample.config true, 5⟩ Sample.acme (.delete .user (.str "u1"))).result =
      .ok .null := by decide +kernel
  obtain ⟨subject, ⟨r, hr, huuid, hstore, rfl⟩, htold⟩ := hdeleted.done _ hok
  rw [hstore] at htold
  exact ⟨r, hr, huuid, htold⟩

/-- Under a negative page size listeners are not told of a request: it is refused before. -/
theorem not_tells_of_every_request :
    ¬∀ {s : Settings} {c : Config}, Config.build s = .ok c → s.customUserAttributes = [] → s.atomicPatch = true →
      ∀ (d : Directory) (clock : Nat) (owner : Company) (request : Request), ∃ rest,
        (d.perform ⟨c, clock⟩ owner request).told = ⟨.before request.parameters, d.store⟩ :: rest := by
  intro hannounced
  have hbuild : Config.build { defaultPageSize := -1 } = .ok (Sample.built { defaultPageSize := -1 }) := rfl
  obtain ⟨rest, hrest⟩ := hannounced hbuild rfl rfl Sample.directory 5 Sample.acme (.list .user .null .null .null)
  have hnothing : (Sample.directory.perform ⟨Sample.built { defaultPageSize := -1 }, 5⟩ Sample.acme
      (.list .user .null .null .null)).told = [] := rfl
  cases hnothing.symm.trans hrest

end Roster
