import Roster.Proofs.CheckedNames
import Roster.Proofs.CustomAttributes
import Roster.Proofs.Runs

/-!
Mistakes in the configuration.

Mistakes in the names of a configuration are found when it is built; negative page sizes are not. So if no page size
is negative no request is refused for the configuration, and otherwise every request is.
-/

set_option autoImplicit false

namespace Roster

variable {k : Kind} {α β : Type} {known : Prop}

/-! ## Steps -/

namespace Step

/-- If the step fails, it is for a reason of its own, unless names are not known to be right. -/
def StaysConfigured (known : Prop) (x : Step α) : Prop :=
  ∀ σ, Configured known (exec x σ).1

namespace StaysConfigured

/-- Only the results that a step can have count for what follows. -/
theorem bind {x : Step α} {f : α → Step β} (hx : StaysConfigured known x)
    (hf : ∀ σ a, (exec x σ).1 = .ok a → StaysConfigured known (f a)) : StaysConfigured known (x >>= f) := by
  intro σ
  have h := hx σ
  have hf := hf σ
  rw [exec_bind]
  generalize exec x σ = p at h hf ⊢
  rcases p with ⟨e | a, τ⟩
  · exact h.failed rfl
  · exact hf a rfl τ

theorem attempt {result : Except Failure α} (h : Configured known result) : StaysConfigured known (attempt result) :=
  fun _ => h

theorem pure (a : α) : StaysConfigured known (Pure.pure a : Step α) :=
  fun _ => .ok a

theorem check {result : Except Error α} (h : Configured known (result.mapError .refused)) :
    StaysConfigured known (check result) :=
  fun _ => h

theorem refuse {cause : Error} (h : (Failure.refused cause).isOwn = true) :
    StaysConfigured known (refuse cause : Step α) :=
  fun _ => .error h

theorem look {f : Store → Except Failure α} (h : ∀ s, Configured known (f s)) : StaysConfigured known (look f) :=
  fun σ => h σ.current

theorem change {f : Store → Except Failure (α × Store)} (h : ∀ s, Configured known (f s)) :
    StaysConfigured known (change f) := by
  intro σ
  have h := h σ.current
  rw [exec_change]
  generalize f σ.current = p at h ⊢
  rcases p with e | ⟨a, s⟩
  · exact h.failed rfl
  · exact .ok a

theorem modifyStore (f : Store → Store) : StaysConfigured known (modifyStore f) :=
  change fun _ => .ok _

theorem commit : StaysConfigured known commit :=
  fun _ => .ok ()

theorem notify (notice : Notice) : StaysConfigured known (notify notice) :=
  fun _ => .ok ()

theorem drawUuid : StaysConfigured known drawUuid :=
  fun _ => .ok _

end StaysConfigured

end Step

open Step

/-! ## Requests under a checked configuration -/

section Requests

variable {ctx : Context} (h : known → ctx.config.IsChecked) (owner : Company)

omit h in
private theorem staysConfigured_applyStatus (r : Row k) (status : Option Bool) :
    StaysConfigured known (applyStatus ctx r status) := by
  cases status with
  | none => exact .pure r
  | some active => exact .change fun s => s.configured_setActive ctx.clock r active

omit h in
private theorem staysConfigured_update (r : Row k) {attributes : Schema.Values}
    (hnames : known → ∀ f ∈ attributes, IsColumn k f.1) :
    StaysConfigured known (change fun s => s.update ctx.clock r attributes) :=
  .change fun s => s.configured_update ctx.clock r hnames

include h

private theorem staysConfigured_updateAttributes (r : Row k) {attributes : Schema.Values}
    (hnames : known → ∀ f ∈ attributes, IsColumn k f.1) : StaysConfigured known (updateAttributes ctx owner r attributes) :=
  .change fun s => (configured_checkKey h s owner r attributes).bind fun _ _ =>
    s.configured_update ctx.clock r hnames

/-- What is taken from a document of a request is given under names of columns. -/
private theorem isColumn_of_complete {payload : Json} {attributes : Schema.Values}
    (hcomplete : (ctx.config.resource k).complete payload = .ok attributes) :
    known → ∀ f ∈ attributes, IsColumn k f.1 := by
  intro hknown f hf
  obtain ⟨-, rfl⟩ := ResourceConfig.eq_extract_of_complete hcomplete
  exact ((h hknown).resource k).mutableSchema f.1 (Schema.name_mem_of_extract hf)

/-! ### Operations -/

private theorem staysConfigured_replaceAttributes (r : Row k) (o : PatchOperation) :
    StaysConfigured known (replaceAttributes ctx owner r o) := by
  unfold replaceAttributes
  refine .bind (.attempt (configured_document _ _ o)) fun _ document _ => ?_
  have hnames : known → ∀ f ∈ (ctx.config.resource k).mutableSchema.extractPresent document, IsColumn k f.1 :=
    fun hknown f hf => ((h hknown).resource k).mutableSchema f.1 (Schema.name_mem_of_extractPresent hf)
  have hwrite : StaysConfigured known (do
      let status ← attempt (PatchOperation.status ctx.config.room document)
      let r ← if ((ctx.config.resource k).mutableSchema.extractPresent document).isEmpty then pure r
        else updateAttributes ctx owner r ((ctx.config.resource k).mutableSchema.extractPresent document)
      applyStatus ctx r status) := by
    refine .bind (.attempt (configured_status _ document)) fun _ status _ => ?_
    dsimp only
    split
    · exact .bind (.pure r) fun _ r _ => staysConfigured_applyStatus r status
    · exact .bind (staysConfigured_updateAttributes h owner r hnames) fun _ r _ =>
        staysConfigured_applyStatus r status
  dsimp only
  split
  · exact .bind (.refuse rfl) fun _ _ _ => hwrite
  · exact hwrite

private theorem staysConfigured_listedUsers (members : Json) (expected : String) :
    StaysConfigured known (listedUsers ctx owner members expected) := by
  unfold listedUsers
  refine .bind (.check (configured_identifiers members expected)) fun _ identifiers _ => ?_
  exact .look fun s => configured_resolve h s owner identifiers

private theorem staysConfigured_addListed (group : Row .group) (o : PatchOperation) :
    StaysConfigured known (addListed ctx owner group o) := by
  unfold addListed
  have hadd : StaysConfigured known (do
      let users ← listedUsers ctx owner o.addedMembers Members.patchExpectation
      modifyStore fun s => s.addMembers ctx.clock group users) :=
    .bind (staysConfigured_listedUsers h owner _ _) fun _ _ _ => .modifyStore _
  dsimp only
  split
  · exact .bind (.refuse rfl) fun _ _ _ => hadd
  · exact hadd

omit h in
private theorem staysConfigured_removeUsers (group : Row .group) (users : List (Row .user)) :
    StaysConfigured known (removeUsers group users) := by
  refine .change fun s => ?_
  rw [Store.removeMembers]
  split
  · exact .ok _
  · exact .error rfl

private theorem staysConfigured_removeListed (group : Row .group) (o : PatchOperation) :
    StaysConfigured known (removeListed ctx owner group o) := by
  unfold removeListed
  split
  · split
    · exact .modifyStore _
    · refine .bind (.check (configured_identifiers _ _)) fun _ identifiers _ => ?_
      refine .bind (.look fun s => configured_resolveMembers h s group identifiers) fun _ users _ => ?_
      exact staysConfigured_removeUsers group users
  · refine .bind (.check (configured_memberFilter _ _)) fun _ filter hfilter => ?_
    have hparsed := eq_ok_of_mapError hfilter
    refine .bind (.look fun s => configured_matchingMembers h s owner group hparsed) fun _ users _ => ?_
    exact staysConfigured_removeUsers group users

private theorem staysConfigured_replaceInGroup (group : Row .group) (o : PatchOperation) :
    StaysConfigured known (replaceInGroup ctx owner group o) := by
  unfold replaceInGroup
  split
  · refine .bind (staysConfigured_listedUsers h owner _ _) fun _ users _ => ?_
    exact .bind (.modifyStore _) fun _ _ _ => .pure group
  · exact staysConfigured_replaceAttributes h owner group o

private theorem staysConfigured_applyOperation (r : Row k) (o : PatchOperation) :
    StaysConfigured known (applyOperation ctx owner k r o) := by
  cases k with
  | user =>
    rw [applyOperation]
    split
    · exact staysConfigured_replaceAttributes h owner r o
    · exact .refuse rfl
  | group =>
    rw [applyOperation]
    split
    · exact staysConfigured_replaceInGroup h owner r o
    · split
      · exact .bind (staysConfigured_addListed h owner r o) fun _ _ _ => .pure r
      · split
        · exact .bind (staysConfigured_removeListed h owner r o) fun _ _ _ => .pure r
        · exact .refuse rfl

private theorem staysConfigured_applyOperations (r : Row k) (operations : List PatchOperation) :
    StaysConfigured known (applyOperations ctx owner r operations) := by
  induction operations generalizing r with
  | nil => exact .pure r
  | cons o rest ih =>
    rw [applyOperations]
    refine .bind (staysConfigured_applyOperation h owner r o) fun _ r _ => ?_
    dsimp only
    split
    · exact .bind .commit fun _ _ _ => ih r
    · exact ih r

/-! ### Answers -/

private theorem staysConfigured_render (attached : List (String × Json)) (rows : List (Row k)) :
    StaysConfigured known (Request.render ctx k attached rows) := by
  intro σ
  have hexec : exec (Request.render ctx k attached rows) σ = Request.render ctx k attached rows σ := rfl
  have hrender := σ.current.configured_render h σ.kept attached rows
  rw [hexec, Request.render]
  split
  · exact .ok _
  next hfailed => exact hrender.failed hfailed

private theorem staysConfigured_renderOne (attached : List (String × Json)) (r : Row k) :
    StaysConfigured known (Request.renderOne ctx k attached r) := by
  unfold Request.renderOne
  refine .bind (staysConfigured_render h attached [r]) fun _ answers _ => ?_
  split
  · exact .pure _
  · exact .attempt (.error rfl)

/-- A request that has done its work shows a resource. -/
private theorem staysConfigured_finish (event : Event) (attached : List (String × Json)) (r : Row k) :
    StaysConfigured known (do
      commit
      notify (.after event (.one r.uuid))
      Request.renderOne ctx k attached r) :=
  .bind .commit fun _ _ _ => .bind (.notify _) fun _ _ _ => staysConfigured_renderOne h attached r

private theorem staysConfigured_get (identifier : Json) :
    StaysConfigured known (look fun s => s.get ctx.config k owner identifier) :=
  .look fun s => configured_get h s owner identifier

/-! ### Requests -/

private theorem staysConfigured_runList (pager : Pager) (filter start count : Json) :
    StaysConfigured known (Request.runList ctx owner pager k filter start count) := by
  unfold Request.runList
  refine .bind (.notify _) fun _ _ _ => ?_
  refine .bind (.attempt (configured_window pager start count)) fun _ window _ => ?_
  refine .bind (.attempt (configured_filterOf _ filter)) fun _ expression hexpression => ?_
  refine .bind (.look fun s => configured_listing h s owner hexpression _ _) fun _ page _ => ?_
  refine .bind (.notify _) fun _ _ _ => .bind (staysConfigured_render h _ _) fun _ rendered _ => ?_
  dsimp only
  split
  · exact .attempt (.error rfl)
  · split
    · exact .attempt (.error rfl)
    · exact .pure _

private theorem staysConfigured_runShow (identifier : Json) :
    StaysConfigured known (Request.runShow ctx owner k identifier) := by
  unfold Request.runShow
  refine .bind (.notify _) fun _ _ _ => .bind (staysConfigured_get h owner identifier) fun _ r _ => ?_
  exact .bind (.notify _) fun _ _ _ => staysConfigured_renderOne h [] r

private theorem staysConfigured_newMembers (payload : Json) :
    StaysConfigured known (Request.newMembers ctx owner k payload) := by
  unfold Request.newMembers
  split
  · exact .pure _
  · exact .pure _
  · exact staysConfigured_listedUsers h owner _ _

omit h in
private theorem staysConfigured_insertResource (values : Schema.Values) :
    StaysConfigured known (Request.insertResource ctx owner k values) := by
  unfold Request.insertResource
  refine .bind (.attempt (Store.configured_draft _)) fun _ draft _ => ?_
  have hinsert (uuid : String) : StaysConfigured known (do
      let r ← change fun s => s.insert ctx.clock owner uuid draft.values
      return (r, draft.attached)) :=
    .bind (.change fun s => s.configured_insert owner ctx.clock uuid _) fun _ r _ => .pure (r, draft.attached)
  split
  · exact .bind .drawUuid fun _ uuid _ => hinsert uuid
  · exact hinsert ""

/-- What is done after a resource has been written. -/
private theorem staysConfigured_finishCreate (users : List (Row .user)) (status : Option Bool)
    (p : Row k × List (String × Json)) :
    StaysConfigured known (do
      let r ← applyStatus ctx p.1 status
      Request.addNewMembers ctx users k r
      commit
      notify (.after .created (.one r.uuid))
      Request.renderOne ctx k p.2 r) := by
  refine .bind (staysConfigured_applyStatus p.1 status) fun _ r _ => ?_
  have hadd : StaysConfigured known (Request.addNewMembers ctx users k r) := by
    cases k with
    | user => exact .pure ()
    | group => exact .modifyStore _
  exact .bind hadd fun _ _ _ => staysConfigured_finish h .created p.2 r

private theorem staysConfigured_runCreate (payload : Json) :
    StaysConfigured known (Request.runCreate ctx owner k payload) := by
  unfold Request.runCreate
  refine .bind (.notify _) fun _ _ _ => ?_
  refine .bind (.check (configured_complete _ payload)) fun _ attributes hcomplete => ?_
  refine .bind (.check (configured_parseActive _)) fun _ status _ => ?_
  refine .bind (staysConfigured_newMembers h owner payload) fun _ users _ => ?_
  have hnames : known → ∀ f ∈ mergeFields (ctx.config.resource k).customAttributes attributes, IsColumn k f.1 := by
    intro hknown f hf
    rcases name_of_mergeFields (List.mem_map_of_mem hf) with hcustom | hgiven
    · obtain ⟨g, hg, e⟩ := List.mem_map.1 hcustom
      exact e ▸ ((h hknown).resource k).customAttributes g hg
    · obtain ⟨g, hg, e⟩ := List.mem_map.1 hgiven
      exact e ▸ isColumn_of_complete h (eq_ok_of_mapError hcomplete) hknown g hg
  split
  · exact .attempt (.error rfl)
  next key _ =>
    have hkey : known → IsColumn k (ctx.config.resource k).naturalKey :=
      fun hknown => ((h hknown).resource k).naturalKey
    refine .bind (.look fun s => s.configured_findBy owner hkey key _) fun _ existing _ => ?_
    dsimp only
    split
    next found _ =>
      split
      · exact .bind (.refuse rfl) fun _ p _ => staysConfigured_finishCreate h users status p
      · refine .bind ?_ fun _ p _ => staysConfigured_finishCreate h users status p
        exact .bind (staysConfigured_update found hnames) fun _ r _ => .pure (r, [])
    next =>
      exact .bind (staysConfigured_insertResource owner _) fun _ p _ => staysConfigured_finishCreate h users status p

private theorem staysConfigured_runReplace (identifier payload : Json) :
    StaysConfigured known (Request.runReplace ctx owner k identifier payload) := by
  have hmembers : StaysConfigured known (Request.replacedMembers ctx owner k payload) := by
    cases k with
    | user => exact .pure _
    | group => exact staysConfigured_listedUsers h owner _ _
  unfold Request.runReplace
  refine .bind (.notify _) fun _ _ _ => .bind (staysConfigured_get h owner identifier) fun _ r _ => ?_
  refine .bind hmembers fun _ users _ => .bind (.check (configured_parseActive _)) fun _ status _ => ?_
  refine .bind (.check (configured_complete _ payload)) fun _ attributes hcomplete => ?_
  have hnames := isColumn_of_complete h (eq_ok_of_mapError hcomplete)
  refine .bind (staysConfigured_updateAttributes h owner r hnames) fun _ r _ => ?_
  refine .bind (staysConfigured_applyStatus r status) fun _ r _ => ?_
  have hset : StaysConfigured known (Request.setMembers ctx users k r) := by
    cases k with
    | user => exact .pure ()
    | group => exact .modifyStore _
  exact .bind hset fun _ _ _ => staysConfigured_finish h .updated [] r

private theorem staysConfigured_runPatch (identifier : Json) (operations : List PatchOperation) :
    StaysConfigured known (Request.runPatch ctx owner k identifier operations) := by
  unfold Request.runPatch
  refine .bind (.notify _) fun _ _ _ => .bind (staysConfigured_get h owner identifier) fun _ r _ => ?_
  refine .bind (staysConfigured_applyOperations h owner r operations) fun _ r _ => ?_
  exact staysConfigured_finish h .updated [] r

private theorem staysConfigured_runDelete (identifier : Json) :
    StaysConfigured known (Request.runDelete ctx owner k identifier) := by
  unfold Request.runDelete
  refine .bind (.notify _) fun _ _ _ => .bind (staysConfigured_get h owner identifier) fun _ r _ => ?_
  refine .bind (.modifyStore _) fun _ _ _ => .bind .commit fun _ _ _ => ?_
  exact .bind (.notify _) fun _ _ _ => .pure _

/-- A request fails for a reason of its own, unless the configuration has not been checked or services cannot be
opened. -/
theorem staysConfigured_steps (request : Request)
    (hpager : known → ∃ pager, Pager.make ctx.config.defaultPageSize ctx.config.maxPageSize = .ok pager) :
    StaysConfigured known (request.steps ctx owner) := by
  have hserve : Configured known (((ctx.config.serve request.kind).mapError .configuration).mapError .refused) := by
    cases hserve : ctx.config.serve request.kind with
    | ok pager => exact .ok pager
    | error cause =>
      refine .mistake cause fun hknown => ?_
      obtain ⟨pager, hpager⟩ := hpager hknown
      rw [(h hknown).serve_eq, hpager] at hserve
      cases hserve
  unfold Request.steps
  refine .bind (.check hserve) fun _ pager _ => ?_
  cases request with
  | list k filter start count => exact staysConfigured_runList h owner pager filter start count
  | «show» k identifier => exact staysConfigured_runShow h owner identifier
  | create k payload => exact staysConfigured_runCreate h owner payload
  | replace k identifier payload => exact staysConfigured_runReplace h owner identifier payload
  | patch k identifier operations => exact staysConfigured_runPatch h owner identifier operations
  | delete k identifier => exact staysConfigured_runDelete h owner identifier

end Requests

/-! ## Runs -/

/-- No page size is negative. -/
def Settings.HasPageSizes (s : Settings) : Prop :=
  0 ≤ s.defaultPageSize ∧ ∀ n, s.maxPageSize = some n → 0 ≤ n

theorem Settings.hasPageSizes_default : HasPageSizes {} := by
  refine ⟨by decide, ?_⟩
  rintro n ⟨⟩
  decide

variable {s : Settings} {c : Config}

private theorem make_of_not_hasPageSizes (hs : ¬s.HasPageSizes) :
    Pager.make s.defaultPageSize s.maxPageSize = .error .pageSize := by
  cases hmake : Pager.make s.defaultPageSize s.maxPageSize with
  | error e =>
    rw [Pager.make] at hmake
    split at hmake <;> cases hmake
    rfl
  | ok pager =>
    refine absurd ?_ hs
    rw [Pager.make] at hmake
    split at hmake
    · cases hmake
    next hsizes =>
      rw [Bool.or_eq_true, decide_eq_true_iff, not_or, not_lt] at hsizes
      refine ⟨hsizes.1, ?_⟩
      intro n hn
      simpa [hn] using hsizes.2

/-- Under a negative page size every request is refused, and the directory stays as it is. -/
theorem perform_of_not_hasPageSizes (hb : Config.build s = .ok c) (hs : ¬s.HasPageSizes) (d : Directory)
    (clock : Nat) (owner : Company) (request : Request) :
    d.perform ⟨c, clock⟩ owner request = ⟨.error (.refused (.configuration .pageSize)), d, []⟩ := by
  have hserve : c.serve request.kind = .error .pageSize := by
    rw [(Config.isChecked_of_build hb).serve_eq]
    obtain ⟨users, groups, rfl⟩ := Config.eq_of_build hb
    exact make_of_not_hasPageSizes hs
  have hexec : exec (request.steps ⟨c, clock⟩ owner) d.start =
      (.error (.refused (.configuration .pageSize)), d.start) := by
    unfold Request.steps
    refine exec_bind_error ?_
    rw [exec_check, hserve]
    rfl
  rw [Directory.perform, Directory.run_eq, hexec]
  rfl

private theorem configured_of_mem_results (hb : Config.build s = .ok c) (hs : s.HasPageSizes) (calls : List Call) :
    ∀ (d : Directory), ∀ x ∈ d.results c calls, ∀ e, x = .error e → e.isConfiguration = false := by
  have h := Config.isChecked_of_build hb
  have hpager : Pager.make c.defaultPageSize c.maxPageSize = .ok ⟨s.defaultPageSize, s.maxPageSize⟩ := by
    obtain ⟨users, groups, rfl⟩ := Config.eq_of_build hb
    exact Pager.make_of_nonneg hs.1 hs.2
  induction calls with
  | nil => exact fun d x hx => absurd hx List.not_mem_nil
  | cons call rest ih =>
    intro d x hx
    have hcall : StaysConfigured True (call.request.steps ⟨c, call.clock⟩ call.owner) :=
      staysConfigured_steps (fun _ => h) call.owner call.request fun _ => ⟨_, hpager⟩
    rcases List.mem_cons.1 hx with rfl | hx
    · intro e he
      rcases hcall d.start e he with hown | ⟨-, hunknown⟩
      · exact Failure.isConfiguration_of_isOwn hown
      · exact absurd trivial hunknown
    · exact ih _ x hx

/-- However requests follow each other, none is refused for a mistake in the configuration if no page size in the
settings is negative, and only then. -/
theorem always_configured_iff (hb : Config.build s = .ok c) (d : Directory) (calls : List Call) :
    (∀ cause, .error (.refused (.configuration cause)) ∉ d.results c calls) ↔ calls = [] ∨ s.HasPageSizes := by
  constructor
  · intro hnone
    cases calls with
    | nil => exact .inl rfl
    | cons call rest =>
      by_cases hs : s.HasPageSizes
      · exact .inr hs
      · refine absurd ?_ (hnone .pageSize)
        rw [Directory.results, perform_of_not_hasPageSizes hb hs]
        exact List.mem_cons_self
  · rintro (rfl | hs) cause hmem
    · cases hmem
    · cases configured_of_mem_results hb hs calls d _ hmem _ rfl

/-- Settings under which a list shows nothing unless a number of items is asked for, and which fix an address of
users. -/
private def emptyPages : Settings :=
  { defaultPageSize := 0, customUserAttributes := [("alternate_email", .str "it@acme.example")] }

private def negativePages : Settings := { defaultPageSize := -1 }

private def listUsers : Call := ⟨5, Sample.acme, .list .user .null .null .null⟩

theorem always_configured_iff_sample :
    emptyPages.HasPageSizes ∧ ∀ cause, .error (.refused (.configuration cause)) ∉
      Sample.directory.results (Sample.built emptyPages)
        [listUsers, ⟨6, Sample.acme, .delete .user (.str "u2")⟩] := by
  have hbuild : Config.build emptyPages = .ok (Sample.built emptyPages) := rfl
  have hsizes : emptyPages.HasPageSizes := by
    refine ⟨Int.le_refl 0, ?_⟩
    intro n hn
    cases hn
    decide
  exact ⟨hsizes, (always_configured_iff hbuild Sample.directory _).2 (.inr hsizes)⟩

/-- A mistake in the page sizes is not found when the configuration is built: a request for a list is refused. -/
theorem not_always_configured :
    ¬∀ {s : Settings} {c : Config}, Config.build s = .ok c → ∀ (d : Directory) (calls : List Call) cause,
      .error (.refused (.configuration cause)) ∉ d.results c calls := by
  intro hnone
  have hbuild : Config.build negativePages = .ok (Sample.built negativePages) := rfl
  refine hnone hbuild Sample.directory [listUsers] .pageSize ?_
  have hresults : Sample.directory.results (Sample.built negativePages) [listUsers] =
      [.error (.refused (.configuration .pageSize))] := rfl
  rw [hresults]
  exact List.mem_cons_self

end Roster
