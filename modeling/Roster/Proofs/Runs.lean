import Roster.Proofs.Requests

/-!
Runs of requests.

Companies send requests to one directory, each at its own time; each finds what those before it have left. What a
single call does to the store is said here once, by the kind of its request.
-/

set_option autoImplicit false

namespace Roster

/-- A request of a company at a reading of the clock. -/
structure Call where
  clock : Nat
  owner : Company
  request : Request

/-- What a call leaves of a directory. -/
def Directory.afterCall (c : Config) (d : Directory) (call : Call) : Directory :=
  (d.perform ⟨c, call.clock⟩ call.owner call.request).directory

/-- What calls leave of a directory, one after the other. -/
def Directory.after (c : Config) (d : Directory) (calls : List Call) : Directory :=
  calls.foldl (Directory.afterCall c) d

/-- The results of calls, one after the other. -/
def Directory.results (c : Config) : Directory → List Call → List (Except Failure Json)
  | _, [] => []
  | d, call :: rest => (d.perform ⟨c, call.clock⟩ call.owner call.request).result :: (d.afterCall c call).results c rest

/-- What every call keeps, a run keeps. -/
theorem Directory.after_induction {c : Config} {P : Directory → Prop}
    (hcall : ∀ d call, P d → P (d.afterCall c call)) {d : Directory} (hd : P d) (calls : List Call) :
    P (d.after c calls) := by
  induction calls generalizing d with
  | nil => exact hd
  | cons call rest ih => exact ih (hcall d call hd)

/-! ## What a call does -/

namespace Directory

/-- What a call does to the store: nothing, or what a request that writes comes to. Such a request has been answered,
or it is one of operations that are committed one by one. -/
inductive Carries (c : Config) (d : Directory) (call : Call) : Prop
  | nothing (hstore : (d.afterCall c call).store = d.store)
  | create {k : Kind} {payload : Json} {r : Row k} (hrequest : call.request = .create k payload)
      (hanswered : (d.perform ⟨c, call.clock⟩ call.owner call.request).result.isOk = true)
      (hcreated : d.store.created ⟨c, call.clock⟩ call.owner k (Uuid.numbered (d.drawn + 1)) payload =
        .ok (r, (d.afterCall c call).store))
  | replace {k : Kind} {identifier payload : Json} {r : Row k} (hrequest : call.request = .replace k identifier payload)
      (hanswered : (d.perform ⟨c, call.clock⟩ call.owner call.request).result.isOk = true)
      (hreplaced : d.store.replaced ⟨c, call.clock⟩ call.owner k identifier payload =
        .ok (r, (d.afterCall c call).store))
  | patch {k : Kind} {identifier : Json} {operations : List PatchOperation} {r : Row k} {pager : Pager}
      (hrequest : call.request = .patch k identifier operations)
      (hserve : c.serve k = .ok pager) (hget : d.store.get c k call.owner identifier = .ok r)
      (hkept : ((d.perform ⟨c, call.clock⟩ call.owner call.request).result.isOk || !c.atomicPatch) = true)
      (hpatched : (d.afterCall c call).store = (d.store.patched ⟨c, call.clock⟩ call.owner r operations).2)
  | delete {k : Kind} {identifier : Json} {r : Row k} (hrequest : call.request = .delete k identifier)
      (hdeleted : d.store.deleted c call.owner k identifier = .ok (r, (d.afterCall c call).store))

private theorem changed_cases {k : Kind} (d : Directory) (result : Except Failure (Row k × Store)) :
    (d.changed result).2.store = d.store ∨
      ∃ r, (d.changed result).1.isOk = true ∧ result = .ok (r, (d.changed result).2.store) := by
  cases result with
  | error e => exact .inl rfl
  | ok p => exact .inr ⟨p.1, rfl, rfl⟩

theorem carries {c : Config} (h : c.IsStandard) (d : Directory) (call : Call) : d.Carries c call := by
  obtain ⟨clock, owner, request⟩ := call
  have hctx : (Context.mk c clock).config.IsStandard := h
  rcases perform_cases hctx d owner request with ⟨e, -, -, hleft⟩ | ⟨pager, hserve, hresult, hleft⟩
  · exact .nothing (congrArg Directory.store hleft)
  · have hstore : (d.afterCall c ⟨clock, owner, request⟩).store =
        (d.answer ⟨c, clock⟩ owner pager request).2.store := congrArg Directory.store hleft
    cases request with
    | list k filter start count => exact .nothing hstore
    | «show» k identifier => exact .nothing hstore
    | create k payload =>
      rcases changed_cases { d with drawn := d.drawn + d.store.drawnFor c owner k payload }
        (d.store.created ⟨c, clock⟩ owner k (Uuid.numbered (d.drawn + 1)) payload) with hsame | ⟨r, hok, hcreated⟩
      · exact .nothing (hstore.trans hsame)
      · refine .create (r := r) rfl ?_ ?_
        · rw [hresult]
          exact hok
        · rw [hstore]
          exact hcreated
    | replace k identifier payload =>
      rcases d.changed_cases (d.store.replaced ⟨c, clock⟩ owner k identifier payload) with
        hsame | ⟨r, hok, hreplaced⟩
      · exact .nothing (hstore.trans hsame)
      · refine .replace (r := r) rfl ?_ ?_
        · rw [hresult]
          exact hok
        · rw [hstore]
          exact hreplaced
    | patch k identifier operations =>
      rw [answer, patched] at hresult hstore
      cases hget : d.store.get c k owner identifier with
      | error e =>
        rw [hget] at hstore
        exact .nothing hstore
      | ok r =>
        rw [hget] at hresult hstore
        dsimp only at hresult hstore
        split at hstore
        next hkept =>
          refine .patch rfl hserve hget ?_ hstore
          rw [hresult, isOk_map]
          exact hkept
        next => exact .nothing hstore
    | delete k identifier =>
      rw [answer] at hstore
      cases hdeleted : d.store.deleted c owner k identifier with
      | error e =>
        rw [hdeleted] at hstore
        exact .nothing hstore
      | ok p =>
        rw [hdeleted] at hstore
        refine .delete (r := p.1) rfl ?_
        rw [hstore]
        exact hdeleted

end Directory

end Roster
