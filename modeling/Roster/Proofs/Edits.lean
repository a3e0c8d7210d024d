import Roster.Proofs.Requests
import Roster.Proofs.Runs

/-!
Requests that edit a resource.

A resource is edited by a request to replace it or to patch it. Both look for the row of the resource first; what
they come to then is a function of this row and the store that it is in.
-/

set_option autoImplicit false

namespace Roster

variable {k : Kind}

/-- What a request that edits a resource carries: what the resource is replaced by, or operations on it. -/
inductive Edit
  | replace (payload : Json)
  | patch (operations : List PatchOperation)

/-- The request that makes an edit of the resource with an identifier. -/
def Edit.request (k : Kind) (identifier : Json) : Edit → Request
  | .replace payload => .replace k identifier payload
  | .patch operations => .patch k identifier operations

theorem Edit.kind_request (k : Kind) (identifier : Json) (e : Edit) : (e.request k identifier).kind = k := by
  cases e <;> rfl

namespace Store

/-- The row that a request on a resource finds, if it is served. -/
def found (s : Store) (c : Config) (owner : Company) (k : Kind) (identifier : Json) : Except Failure (Row k) := do
  let _ ← (c.serve k).mapError fun e => Failure.refused (.configuration e)
  s.get c k owner identifier

/-- What a request to replace a resource comes to when its row has been found. -/
def rewritten (s : Store) (ctx : Context) (owner : Company) (r : Row k) (payload : Json) :
    Except Failure (Row k × Store) := do
  let users ← s.replacedUsers ctx.config owner k payload
  let status ← (parseActive (payload.fieldOrNull "active")).mapError .refused
  let attributes ← ((ctx.config.resource k).complete payload).mapError .refused
  s.checkKey ctx.config owner r attributes
  let (r, s) ← s.update ctx.clock r attributes
  s.completed ctx.clock r status fun s => s.withMembers ctx.clock users

/-- What an edit makes of a row: the row in the end or why the edit is refused, and the store that is left. -/
def edited (s : Store) (ctx : Context) (owner : Company) (r : Row k) : Edit → Except Failure (Row k) × Store
  | .replace payload =>
    ((s.rewritten ctx owner r payload).map Prod.fst, s.leftBy (s.rewritten ctx owner r payload))
  | .patch operations =>
    ((s.patched ctx owner r operations).1,
      if (s.patched ctx owner r operations).1.isOk || !ctx.config.atomicPatch then
        (s.patched ctx owner r operations).2
      else s)

/-- What a request that edits a resource answers and leaves: the resource is not found, or it is edited and shown. -/
def attempted (s : Store) (ctx : Context) (owner : Company) (k : Kind) (identifier : Json) (e : Edit) :
    Except Failure Json × Store :=
  match s.found ctx.config owner k identifier with
  | .error failure => (.error failure, s)
  | .ok r => ((s.edited ctx owner r e).1.map ((s.edited ctx owner r e).2.document k), (s.edited ctx owner r e).2)

variable {s s' : Store} {ctx : Context} {owner : Company} {r r' : Row k}

theorem attempted_of_error {identifier : Json} {failure : Failure}
    (hfound : s.found ctx.config owner k identifier = .error failure) (e : Edit) :
    s.attempted ctx owner k identifier e = (.error failure, s) := by
  rw [attempted, hfound]

theorem attempted_of_ok {identifier : Json} (hfound : s.found ctx.config owner k identifier = .ok r) (e : Edit) :
    s.attempted ctx owner k identifier e =
      ((s.edited ctx owner r e).1.map ((s.edited ctx owner r e).2.document k), (s.edited ctx owner r e).2) := by
  rw [attempted, hfound]

theorem replaced_eq (s : Store) (ctx : Context) (owner : Company) (k : Kind) (identifier payload : Json) :
    s.replaced ctx owner k identifier payload =
      s.get ctx.config k owner identifier >>= fun r => s.rewritten ctx owner r payload := rfl

theorem found_eq_ok {c : Config} {identifier : Json} :
    s.found c owner k identifier = .ok r ↔
      (∃ pager, c.serve k = .ok pager) ∧ s.get c k owner identifier = .ok r := by
  rw [found, bind_eq_ok]
  refine ⟨?_, ?_⟩
  · rintro ⟨pager, hserve, hget⟩
    exact ⟨⟨pager, eq_ok_of_mapError hserve⟩, hget⟩
  · rintro ⟨⟨pager, hserve⟩, hget⟩
    exact ⟨pager, by rw [hserve]; rfl, hget⟩

/-- Without attributes there is nothing to check and nothing to write. -/
theorem written_eq (s : Store) (ctx : Context) (owner : Company) (r : Row k) (attributes : Schema.Values) :
    s.written ctx owner r attributes = (s.checkKey ctx.config owner r attributes).bind fun _ =>
      s.update ctx.clock r attributes := by
  rw [written]
  cases attributes <;> rfl

/-- When a payload has been read, the key is checked, the row is written and its members are set. -/
theorem rewritten_eq {payload : Json} {users : List (Row .user)} {status : Option Bool} {attributes : Schema.Values}
    (husers : s.replacedUsers ctx.config owner k payload = .ok users)
    (hstatus : parseActive (payload.fieldOrNull "active") = .ok status)
    (hattributes : (ctx.config.resource k).complete payload = .ok attributes) :
    s.rewritten ctx owner r payload = (s.checkKey ctx.config owner r attributes).bind fun _ =>
      (s.update ctx.clock r attributes).bind fun p =>
        p.2.completed ctx.clock p.1 status fun s => s.withMembers ctx.clock users := by
  rw [rewritten, husers, hstatus, hattributes]
  rfl

/-- An edit that succeeds by replacing has written the row. -/
theorem edited_replace_eq_ok {payload : Json} :
    s.edited ctx owner r (.replace payload) = (.ok r', s') ↔ s.rewritten ctx owner r payload = .ok (r', s') := by
  rw [edited]
  cases s.rewritten ctx owner r payload with
  | error e =>
    constructor
    · intro h
      cases h
    · intro h
      cases h
  | ok p =>
    obtain ⟨r₁, s₁⟩ := p
    constructor
    · intro h
      cases h
      rfl
    · intro h
      cases h
      rfl

/-- An edit that succeeds by a single operation has the effect of the operation. -/
theorem edited_patch_eq_ok {o : PatchOperation} :
    s.edited ctx owner r (.patch [o]) = (.ok r', s') ↔
      Step.effect (applyOperation ctx owner k r o) s = .ok (r', s') := by
  rw [edited, patched]
  cases Step.effect (applyOperation ctx owner k r o) s with
  | error e =>
    constructor
    · intro h
      cases h
    · intro h
      cases h
  | ok p =>
    obtain ⟨r₁, s₁⟩ := p
    constructor
    · intro h
      cases h
      rfl
    · intro h
      cases h
      rfl

section Standard

variable (h : ctx.config.IsStandard)

include h

/-- What a resource is replaced by is written into its row; then its members are set. -/
theorem rewrites_of_rewritten (hr : r ∈ (s.table k).rows) {payload : Json}
    (hrewritten : s.rewritten ctx owner r payload = .ok (r', s')) :
    ∃ users t, s.replacedUsers ctx.config owner k payload = .ok users ∧ s.Rewrites r r' t ∧
      s' = t.withMembers ctx.clock users k r' := by
  obtain ⟨users, husers, hrest⟩ := bind_eq_ok.1 hrewritten
  obtain ⟨status, -, hrest⟩ := bind_eq_ok.1 hrest
  obtain ⟨attributes, hattributes, hrest⟩ := bind_eq_ok.1 hrest
  obtain ⟨-, -, hrest⟩ := bind_eq_ok.1 hrest
  obtain ⟨⟨r₁, s₁⟩, hupdate, hrest⟩ := bind_eq_ok.1 hrest
  obtain ⟨⟨r₂, t⟩, hsettled, e⟩ := map_eq_ok.1 hrest
  cases e
  have hprofile : ProfileOnly k attributes := h.profileOnly_complete (eq_ok_of_mapError hattributes)
  have hw : s.Rewrites r r₁ s₁ := .of_update hr hprofile hupdate
  exact ⟨users, t, husers, hw.trans (.of_settled hw.mem_new hsettled), rfl⟩

/-- Operations keep a resource with its company, and its identifier. -/
theorem mem_owned_of_patched (hr : r ∈ s.owned k owner) {operations : List PatchOperation}
    (hpatched : s.patched ctx owner r operations = (.ok r', s')) : r' ∈ s'.owned k owner ∧ r'.uuid = r.uuid := by
  induction operations generalizing s r with
  | nil =>
    cases hpatched
    exact ⟨hr, rfl⟩
  | cons o rest ih =>
    rw [patched] at hpatched
    cases he : Step.effect (applyOperation ctx owner k r o) s with
    | error e =>
      rw [he] at hpatched
      cases hpatched
    | ok p =>
      rw [he] at hpatched
      have hp : s.Patches owner k r p.1 p.2 := .of_applyOperation h (mem_rows_of_owned hr) he
      obtain ⟨hmem, huuid⟩ := ih (hp.mem_owned hr) hpatched
      exact ⟨hmem, huuid.trans hp.uuid⟩

/-- A resource that has been edited still belongs to its company, and has its identifier. -/
theorem mem_owned_of_edited (hr : r ∈ s.owned k owner) {e : Edit} (hedited : s.edited ctx owner r e = (.ok r', s')) :
    r' ∈ s'.owned k owner ∧ r'.uuid = r.uuid := by
  cases e with
  | replace payload =>
    obtain ⟨users, t, -, hw, rfl⟩ := rewrites_of_rewritten h (mem_rows_of_owned hr) (edited_replace_eq_ok.1 hedited)
    rw [owned_withMembers]
    exact ⟨hw.mem_owned hr, hw.uuid⟩
  | patch operations =>
    obtain ⟨hresult, hleft⟩ := Prod.mk.inj hedited
    rw [hresult] at hleft
    exact mem_owned_of_patched h hr (Prod.ext hresult hleft)

end Standard

/-- Two stores hold the same companies, users and groups, and every group has the same memberships in the same
order in both. How the memberships of different groups come after each other is nothing that a request sees. -/
structure Equivalent (s s' : Store) : Prop where
  companies : s'.companies = s.companies
  users : s'.users = s.users
  groups : s'.groups = s.groups
  memberships : ∀ id : Int, (s'.memberships.filter fun m => m.group == id) = s.memberships.filter fun m => m.group == id

end Store

/-- The same as for stores; as many identifiers have been drawn, and the same members have been kept. -/
structure Directory.Equivalent (d d' : Directory) : Prop where
  store : d.store.Equivalent d'.store
  drawn : d'.drawn = d.drawn
  kept : d'.kept = d.kept

namespace Store.Equivalent

theorem refl (s : Store) : s.Equivalent s := ⟨rfl, rfl, rfl, fun _ => rfl⟩

theorem symm {s s' : Store} (h : s.Equivalent s') : s'.Equivalent s :=
  ⟨h.companies.symm, h.users.symm, h.groups.symm, fun id => (h.memberships id).symm⟩

end Store.Equivalent

namespace Directory

variable {ctx : Context} (h : ctx.config.IsStandard) (d : Directory) (owner : Company) (identifier : Json)

include h

/-- A request that edits a resource does to the store what it comes to, and nothing to the rest. -/
theorem perform_edit (k : Kind) (e : Edit) :
    ((d.perform ctx owner (e.request k identifier)).result,
        (d.perform ctx owner (e.request k identifier)).directory) =
      ((d.store.attempted ctx owner k identifier e).1,
        { d with store := (d.store.attempted ctx owner k identifier e).2 }) := by
  rw [perform_eq h, Edit.kind_request]
  cases hserve : ctx.config.serve k with
  | error failure =>
    have hfound : d.store.found ctx.config owner k identifier = .error (.refused (.configuration failure)) := by
      rw [Store.found, hserve]
      rfl
    rw [Store.attempted_of_error hfound]
  | ok pager =>
    have hfound : d.store.found ctx.config owner k identifier = d.store.get ctx.config k owner identifier := by
      rw [Store.found, hserve]
      rfl
    cases hget : d.store.get ctx.config k owner identifier with
    | error failure =>
      rw [Store.attempted_of_error (hfound.trans hget)]
      cases e with
      | patch operations =>
        change d.patched ctx owner k identifier operations = _
        rw [patched, hget]
      | replace payload =>
        change d.changed (d.store.replaced ctx owner k identifier payload) = _
        rw [Store.replaced_eq, hget]
        rfl
    | ok r =>
      rw [Store.attempted_of_ok (hfound.trans hget)]
      cases e with
      | patch operations =>
        change d.patched ctx owner k identifier operations = _
        rw [patched, hget, Store.edited]
        dsimp only
        generalize d.store.patched ctx owner r operations = p
        obtain ⟨result, left⟩ := p
        cases result <;> rfl
      | replace payload =>
        change d.changed (d.store.replaced ctx owner k identifier payload) = _
        rw [Store.replaced_eq, hget, ok_bind, changed, Store.edited]
        cases d.store.rewritten ctx owner r payload <;> rfl

variable {d owner identifier}

theorem result_edit (e : Edit) :
    (d.perform ctx owner (e.request k identifier)).result = (d.store.attempted ctx owner k identifier e).1 :=
  congrArg Prod.fst (perform_edit h d owner identifier k e)

theorem directory_edit (e : Edit) :
    (d.perform ctx owner (e.request k identifier)).directory =
      { d with store := (d.store.attempted ctx owner k identifier e).2 } :=
  congrArg Prod.snd (perform_edit h d owner identifier k e)

theorem result_edit_of_error {failure : Failure}
    (hfound : d.store.found ctx.config owner k identifier = .error failure) (e : Edit) :
    (d.perform ctx owner (e.request k identifier)).result = .error failure := by
  rw [result_edit h, Store.attempted_of_error hfound]

theorem perform_edit_of_ok {r : Row k} (hfound : d.store.found ctx.config owner k identifier = .ok r) (e : Edit) :
    (d.perform ctx owner (e.request k identifier)).result =
        (d.store.edited ctx owner r e).1.map ((d.store.edited ctx owner r e).2.document k) ∧
      (d.perform ctx owner (e.request k identifier)).directory =
        { d with store := (d.store.edited ctx owner r e).2 } := by
  rw [result_edit h, directory_edit h, Store.attempted_of_ok hfound]
  exact ⟨rfl, rfl⟩

/-- A resource that is found is shown. -/
theorem result_show {r : Row k} (hfound : d.store.found ctx.config owner k identifier = .ok r) :
    (d.perform ctx owner (.show k identifier)).result = .ok (d.store.document k r) := by
  obtain ⟨⟨pager, hserve⟩, hget⟩ := Store.found_eq_ok.1 hfound
  rw [(perform_of_serve h d owner (.show k identifier) hserve).1, answer, hget]
  rfl

/-- A resource that is shown is found. -/
theorem exists_of_result_show {body : Json} (hshown : (d.perform ctx owner (.show k identifier)).result = .ok body) :
    ∃ r : Row k, d.store.found ctx.config owner k identifier = .ok r ∧ body = d.store.document k r := by
  rcases perform_cases h d owner (.show k identifier) with ⟨e, -, hresult, -⟩ | ⟨pager, hserve, hresult, -⟩
  · rw [hresult] at hshown
    cases hshown
  · rw [hresult] at hshown
    obtain ⟨r, hget, rfl⟩ := map_eq_ok.1 hshown
    exact ⟨r, Store.found_eq_ok.2 ⟨⟨pager, hserve⟩, hget⟩, rfl⟩

end Directory

end Roster
