import Roster.Web.Exchange
import Roster.Proofs.Insertion
import Roster.Proofs.Locality
import Roster.Proofs.Rendering
import Roster.Proofs.Sample

/-!
Failed requests leave the store as it was.

In every request all checks and all writes come before the one commit, and after the commit nothing can fail
any more: the resource is rendered, and its answer can be sent. So whatever goes wrong, on the way or in an
answer, the directory holds what it held before.
-/

set_option autoImplicit false

namespace Roster

open Step Store

variable {k : Kind} {c : Config} {clock : Nat} {owner : Company}

/-! ## Requests that write -/

/-- The end of a request that has written a resource. -/
private theorem commitsOnly_finish (h : c.IsStandard) (event : Event) (r : Row k) :
    CommitsOnly Json.Sendable (do
      commit
      notify (.after event (.one r.uuid))
      Request.renderOne ⟨c, clock⟩ k [] r) :=
  .commit (.notify (succeeds_renderOne h clock r))

private theorem commitsOnly_runReplace (h : c.IsStandard) (identifier payload : Json) :
    CommitsOnly Json.Sendable (Request.runReplace ⟨c, clock⟩ owner k identifier payload) := by
  unfold Request.runReplace
  refine .bind (uncommitted_notify _) fun _ _ _ => .bind (uncommitted_look _) fun _ r _ => ?_
  refine .bind (local_replacedMembers _ _ _).uncommitted fun _ members _ => ?_
  refine .bind (uncommitted_check _) fun _ status _ => .bind (uncommitted_check _) fun _ attributes _ => ?_
  refine .bind (local_updateAttributes _ _ _ _).uncommitted fun _ r _ => ?_
  refine .bind (local_applyStatus _ _ _).uncommitted fun _ r _ => ?_
  exact .bind (local_setMembers _ _ _).uncommitted fun _ _ _ => commitsOnly_finish h .updated r

private theorem commitsOnly_runPatch (h : c.IsStandard) (atomic : c.atomicPatch = true) (identifier : Json)
    (operations : List PatchOperation) :
    CommitsOnly Json.Sendable (Request.runPatch ⟨c, clock⟩ owner k identifier operations) := by
  unfold Request.runPatch
  refine .bind (uncommitted_notify _) fun _ _ _ => .bind (uncommitted_look _) fun _ r _ => ?_
  refine .bind (local_applyOperations _ _ atomic _ _).uncommitted fun _ r _ => ?_
  exact commitsOnly_finish h .updated r

private theorem commitsOnly_runDelete (identifier : Json) :
    CommitsOnly (fun _ => True) (Request.runDelete ⟨c, clock⟩ owner k identifier) := by
  unfold Request.runDelete
  refine .bind (uncommitted_notify _) fun _ _ _ => .bind (uncommitted_look _) fun _ r _ => ?_
  refine .bind (local_modifyStore _).uncommitted fun _ _ _ => ?_
  exact .commit (.notify (succeeds_pure trivial))

private theorem uncommitted_insertResource (attributes : Schema.Values) :
    Uncommitted (Request.insertResource ⟨c, clock⟩ owner k attributes) := by
  unfold Request.insertResource
  refine (uncommitted_attempt _).bind fun draft => ?_
  dsimp only
  split
  · exact uncommitted_drawUuid.bind fun _ => (uncommitted_change _).bind fun _ => uncommitted_pure _
  · exact (uncommitted_pure _).bind fun _ => (uncommitted_change _).bind fun _ => uncommitted_pure _

theorem attached_of_overwriteResource {r : Row k} {attributes : Schema.Values}
    {σ : Session} {p : Row k × List (String × Json)}
    (hp : (exec (Request.overwriteResource ⟨c, clock⟩ r attributes) σ).1 = .ok p) : p.2 = [] := by
  unfold Request.overwriteResource at hp
  rw [exec_bind] at hp
  split at hp
  · cases hp
    rfl
  · cases hp

private theorem commitsOnly_runCreate (h : c.IsStandard) (payload : Json) :
    CommitsOnly Json.Sendable (Request.runCreate ⟨c, clock⟩ owner k payload) := by
  unfold Request.runCreate
  refine .bind (uncommitted_notify _) fun _ _ _ => .bind (uncommitted_check _) fun σ attributes ha => ?_
  refine .bind (uncommitted_check _) fun _ status _ => ?_
  refine .bind (local_newMembers _ _ _).uncommitted fun _ members _ => ?_
  have hcomplete : (c.resource k).complete payload = .ok attributes := by
    rw [exec_check] at ha
    cases hc : (c.resource k).complete payload with
    | error e =>
      rw [hc] at ha
      cases ha
    | ok a =>
      rw [hc] at ha
      cases ha
      rfl
  have hprofile := h.profileOnly_merged (h.profileOnly_complete hcomplete)
  have hfinish (p : Row k × List (String × Json)) (hp : p.2 = []) : CommitsOnly Json.Sendable (do
      let r ← applyStatus ⟨c, clock⟩ p.1 status
      Request.addNewMembers ⟨c, clock⟩ members k r
      commit
      notify (.after .created (.one r.uuid))
      Request.renderOne ⟨c, clock⟩ k p.2 r) := by
    rw [hp]
    refine .bind (local_applyStatus _ _ _).uncommitted fun _ r _ => ?_
    exact .bind (local_addNewMembers _ _ _).uncommitted fun _ _ _ => commitsOnly_finish h .created r
  split
  · exact (uncommitted_attempt _).commitsOnly _
  · refine .bind (uncommitted_look _) fun _ existing _ => ?_
    dsimp only
    split
    · split
      · exact .bind (uncommitted_refuse _) fun _ p hp => by cases hp
      · exact .bind (local_overwriteResource _ _ _).uncommitted fun _ p hp =>
          hfinish p (attached_of_overwriteResource hp)
    · exact .bind (uncommitted_insertResource _) fun _ p hp =>
        hfinish p (attached_of_insertResource hprofile hp)

/-! ## All requests -/

/-- An answer that can be sent is no error. -/
private theorem status_lt_of_sendable {request : Request} {v : Json} (hv : v.Sendable) :
    (request.answer (.ok v)).status < 400 := by
  have hsend : (v.isObject && v.height ≤ maxAnswerLevels + 1) = true := by
    have hle : v.height ≤ maxAnswerLevels + 1 := Nat.le_trans hv.2 (by decide)
    simp [hv.1, hle]
  have hstatus (status : Nat) : (Answer.ofResult status v).status = status := by
    rw [Answer.ofResult, if_pos hsend]
    rfl
  cases request with
  | create k payload =>
    change (Answer.ofResult 201 v).status < 400
    rw [hstatus]
    decide
  | delete k identifier =>
    change 204 < 400
    decide
  | _ =>
    change (Answer.ofResult 200 v).status < 400
    rw [hstatus]
    decide

/-- A request changes what is committed only if its answer is no error. -/
private theorem commitsOnly_steps (h : c.IsStandard) (atomic : c.atomicPatch = true) (request : Request) :
    CommitsOnly (fun v => (request.answer (.ok v)).status < 400) (request.steps ⟨c, clock⟩ owner) := by
  unfold Request.steps
  refine .bind (uncommitted_check _) fun _ pager _ => ?_
  cases request with
  | list k filter start count => exact (uncommitted_runList _ owner pager filter start count).commitsOnly _
  | «show» k identifier => exact (uncommitted_runShow _ owner identifier).commitsOnly _
  | create k payload => exact (commitsOnly_runCreate h payload).mono fun _ => status_lt_of_sendable
  | replace k identifier payload =>
    exact (commitsOnly_runReplace h identifier payload).mono fun _ => status_lt_of_sendable
  | patch k identifier operations =>
    exact (commitsOnly_runPatch h atomic identifier operations).mono fun _ => status_lt_of_sendable
  | delete k identifier =>
    exact (commitsOnly_runDelete identifier).mono fun _ _ => (by decide : 204 < 400)

private theorem store_perform_or (h : c.IsStandard) (atomic : c.atomicPatch = true) (d : Directory)
    (request : Request) :
    (d.perform ⟨c, clock⟩ owner request).directory.store = d.store ∨
      ∃ v, (d.perform ⟨c, clock⟩ owner request).result = .ok v ∧
        (request.answer (.ok v)).status < 400 :=
  commitsOnly_steps h atomic request ⟨d.store, d.store, d.drawn, d.kept, []⟩

theorem store_perform (h : c.IsStandard) (atomic : c.atomicPatch = true) (d : Directory)
    (request : Request)
    (he : (∃ e, (d.perform ⟨c, clock⟩ owner request).result = .error e) ∨
      400 ≤ (request.answer (d.perform ⟨c, clock⟩ owner request).result).status) :
    (d.perform ⟨c, clock⟩ owner request).directory.store = d.store := by
  rcases store_perform_or h atomic d request with hd | ⟨v, hv, hstatus⟩
  · exact hd
  · rw [hv] at he
    rcases he with ⟨e, he⟩ | he
    · cases he
    · omega

/-! ## Web requests -/

private theorem authenticate_ready {r : WebRequest} {storage : Storage} {d : Directory} {owner : Company}
    (h : r.authenticate storage = .ok (d, owner)) : storage = .ready d := by
  unfold WebRequest.authenticate at h
  split at h
  · cases h
  · cases h
  · split at h
    · cases h
      rfl
    · cases h
  · cases h

/-- A web request on resources is answered without the directory, or it performs a request on it. -/
private theorem serve_cases (site : Site) (storage : Storage) (r : WebRequest) (route : Route) (k : Kind)
    (method : Method) :
    (∃ answer, site.serve clock storage r route k method = ⟨answer, storage, []⟩) ∨
      ∃ d owner request, storage = .ready d ∧
        site.serve clock storage r route k method =
          ⟨request.answer (d.perform ⟨site.config, clock⟩ owner request).result,
            .ready (d.perform ⟨site.config, clock⟩ owner request).directory,
            (d.perform ⟨site.config, clock⟩ owner request).notices⟩ := by
  unfold Site.serve
  dsimp only
  split
  next answer _ => exact .inl ⟨answer, rfl⟩
  next d owner request hchecked =>
    obtain ⟨content, -, hchecked⟩ := bind_eq_ok.1 hchecked
    obtain ⟨⟨d', owner'⟩, hauth, hchecked⟩ := bind_eq_ok.1 hchecked
    have hd : d' = d := by
      dsimp only at hchecked
      split at hchecked
      · obtain ⟨_, hthrow, _⟩ := bind_eq_ok.1 hchecked
        cases hthrow
      · split at hchecked
        · cases hchecked
          rfl
        · cases hchecked
    subst hd
    exact .inr ⟨d', owner, request, authenticate_ready hauth, rfl⟩

private theorem storage_handle {site : Site} (h : site.config.IsStandard)
    (atomic : site.config.atomicPatch = true) (d : Directory) (r : WebRequest)
    (he : 400 ≤ (site.handle clock (.ready d) r).answer.status) :
    ∃ d', (site.handle clock (.ready d) r).storage = .ready d' ∧ d'.store = d.store := by
  have hserve (route : Route) (k : Kind) (method : Method)
      (he : 400 ≤ (site.serve clock (.ready d) r route k method).answer.status) :
      ∃ d', (site.serve clock (.ready d) r route k method).storage = .ready d' ∧ d'.store = d.store := by
    rcases serve_cases site (.ready d) r route k method with ⟨answer, hx⟩ | ⟨d', owner, request, hd, hx⟩
    · rw [hx]
      exact ⟨d, rfl, rfl⟩
    · cases hd
      rw [hx] at he ⊢
      exact ⟨_, rfl, store_perform h atomic d request (.inr he)⟩
  have hanswer (method : Option Method) (he : 400 ≤ (site.answer clock (.ready d) r method).answer.status) :
      ∃ d', (site.answer clock (.ready d) r method).storage = .ready d' ∧ d'.store = d.store := by
    unfold Site.answer at he ⊢
    split at he
    · exact ⟨d, rfl, rfl⟩
    · exact ⟨d, rfl, rfl⟩
    · exact ⟨d, rfl, rfl⟩
    · exact ⟨d, rfl, rfl⟩
    · split at he
      · exact hserve _ _ _ he
      · exact hserve _ _ _ he
      · exact ⟨d, rfl, rfl⟩
  unfold Site.handle at he ⊢
  dsimp only at he ⊢
  split at he
  next hhead =>
    rw [if_pos hhead]
    exact hanswer _ he
  next hhead =>
    rw [if_neg hhead]
    exact hanswer _ he

/-- A request that fails, or whose answer is an error, leaves the store as it was: every row with its times,
and every membership in its place. This holds of requests on resources and of the web requests that carry
them. -/
theorem failed_request_leaves_store {s : Settings} {c : Config} (hb : Config.build s = .ok c)
    (hs : s.customUserAttributes = []) (atomic : s.atomicPatch = true) (clock : Nat) (d : Directory) :
    (∀ (owner : Company) (request : Request),
      ((∃ e, (d.perform ⟨c, clock⟩ owner request).result = .error e) ∨
          400 ≤ (request.answer (d.perform ⟨c, clock⟩ owner request).result).status) →
        (d.perform ⟨c, clock⟩ owner request).directory.store = d.store) ∧
    ∀ (site : Site) (r : WebRequest), site.config = c →
      400 ≤ (site.handle clock (.ready d) r).answer.status →
        ∃ d', (site.handle clock (.ready d) r).storage = .ready d' ∧ d'.store = d.store := by
  have h := Config.isStandard_of_build hb hs
  have hatomic : c.atomicPatch = true := (Config.atomicPatch_of_build hb).trans atomic
  constructor
  · intro owner request
    exact store_perform h hatomic d request
  · rintro site r rfl
    exact storage_handle h hatomic d r

private def halfDone : Request :=
  .patch .group (.str "g1") [Sample.replaceMembers "u2", Sample.removeMember "u1"]

private def halfDoneOnWeb : WebRequest where
  method := "PATCH"
  path := "/Groups/g1"
  query := []
  authorization := some "Basic YWNtZTpzZWNyZXQ="
  body := some {
    text := "\x7b\"Operations\": [" ++
      "\x7b\"op\": \"replace\", \"path\": \"members\", \"value\": [\x7b\"value\": \"u2\"\x7d]\x7d, " ++
      "\x7b\"op\": \"move\"\x7d]\x7d"
    mediaType := "application/json" }

/-- The first operation of the requests has made another user the only member when the second one fails. -/
theorem failed_request_leaves_sample :
    ((Sample.directory.perform ⟨Sample.config true, 7⟩ Sample.acme halfDone).result =
        .error (.refused (.notFound (.str "u1"))) ∧
      (Sample.directory.perform ⟨Sample.config true, 7⟩ Sample.acme halfDone).directory.store =
        Sample.directory.store) ∧
    400 ≤ ((Sample.site true).handle 7 (.ready Sample.directory) halfDoneOnWeb).answer.status ∧
      ∃ d, ((Sample.site true).handle 7 (.ready Sample.directory) halfDoneOnWeb).storage = .ready d ∧
        d.store = Sample.directory.store := by
  have hresult : (Sample.directory.perform ⟨Sample.config true, 7⟩ Sample.acme halfDone).result =
      .error (.refused (.notFound (.str "u1"))) := by decide +kernel
  have hstatus : 400 ≤ ((Sample.site true).handle 7 (.ready Sample.directory) halfDoneOnWeb).answer.status := by
    decide +kernel
  have hstore := failed_request_leaves_store (Sample.build_config true) rfl rfl 7 Sample.directory
  exact ⟨⟨hresult, hstore.1 Sample.acme halfDone (.inl ⟨_, hresult⟩)⟩, hstatus,
    hstore.2 (Sample.site true) halfDoneOnWeb rfl hstatus⟩

end Roster
