import Roster.Proofs.Patching
import Roster.Proofs.Rendering
import Roster.Proofs.Sample

/-!
A PATCH request and its operations sent one by one.

A session keeps the row of its resource from one operation to the next, and separate requests look for it
again. They find the same row, so a PATCH request comes to what its operations come to in requests of their
own, sent until one is refused. Requests that are not atomic leave what these leave; atomic ones leave it if
none is refused.
-/

set_option autoImplicit false

namespace Roster

open Step

variable {k : Kind}

/-- Sends operations to a resource in PATCH requests of their own, one after the other, until one is refused:
the answer to the last request that is sent, and the directory that it leaves. -/
def Directory.patchEach (ctx : Context) (owner : Company) (k : Kind) (identifier : Json) :
    Directory → PatchOperation → List PatchOperation → Except Failure Json × Directory
  | d, o, [] =>
    ((d.perform ctx owner (.patch k identifier [o])).result,
      (d.perform ctx owner (.patch k identifier [o])).directory)
  | d, o, next :: rest =>
    match (d.perform ctx owner (.patch k identifier [o])).result with
    | .ok _ =>
      (d.perform ctx owner (.patch k identifier [o])).directory.patchEach ctx owner k identifier next rest
    | .error e => (.error e, (d.perform ctx owner (.patch k identifier [o])).directory)

/-- What operations make of a resource, one after the other: its row in the end or the failure of the first
operation that fails, and the store that the operations before it leave. -/
def Store.patched (ctx : Context) (owner : Company) :
    Store → Row k → List PatchOperation → Except Failure (Row k) × Store
  | s, r, [] => (.ok r, s)
  | s, r, o :: rest =>
    match effect (applyOperation ctx owner k r o) s with
    | .ok (r', s') => s'.patched ctx owner r' rest
    | .error e => (.error e, s)

section Requests

variable (ctx : Context) (owner : Company)

/-- Operations of an atomic request commit nothing, and those of others are committed one by one. -/
private theorem exec_applyOperations (r : Row k) (operations : List PatchOperation) (σ : Session)
    (hclean : ctx.config.atomicPatch = false → σ.committed = σ.current) :
    ∃ u, exec (applyOperations ctx owner r operations) σ =
        ((σ.current.patched ctx owner r operations).1,
          { σ with
            committed :=
              if ctx.config.atomicPatch then σ.committed else (σ.current.patched ctx owner r operations).2
            current := u }) ∧
      ((σ.current.patched ctx owner r operations).1.isOk = true →
        u = (σ.current.patched ctx owner r operations).2) := by
  induction operations generalizing r σ with
  | nil =>
    refine ⟨σ.current, ?_, fun _ => rfl⟩
    cases hatomic : ctx.config.atomicPatch with
    | true => rfl
    | false =>
      obtain ⟨committed, current, drawn, kept, told⟩ := σ
      obtain rfl : committed = current := hclean hatomic
      rfl
  | cons o rest ih =>
    rw [applyOperations, Store.patched]
    cases he : effect (applyOperation ctx owner k r o) σ.current with
    | error e =>
      obtain ⟨u, hu⟩ := (local_applyOperation ctx owner r o).error he
      refine ⟨u, ?_, fun h => by cases h⟩
      rw [exec_bind_error hu]
      cases hatomic : ctx.config.atomicPatch with
      | true => rfl
      | false =>
        have hcommitted := hclean hatomic
        rw [if_neg Bool.false_ne_true, ← hcommitted]
    | ok p =>
      obtain ⟨r', s'⟩ := p
      rw [exec_bind_ok ((local_applyOperation ctx owner r o).ok he)]
      cases hatomic : ctx.config.atomicPatch with
      | true =>
        obtain ⟨u, hu, hsame⟩ := ih r' { σ with current := s' } fun h => by
          rw [hatomic] at h
          cases h
        rw [hatomic] at hu
        exact ⟨u, hu, hsame⟩
      | false =>
        -- The operation has been committed, so that what is committed is again what comes next.
        obtain ⟨u, hu, hsame⟩ := ih r' { σ with committed := s', current := s' } fun _ => rfl
        rw [hatomic] at hu
        exact ⟨u, hu, hsame⟩

/-- A PATCH request that is served looks for its resource and applies its operations. -/
private theorem exec_patch {pager : Pager} (hserve : ctx.config.serve k = .ok pager) (identifier : Json)
    (operations : List PatchOperation) (d : Directory) :
    ∃ told, exec (Request.steps ctx owner (.patch k identifier operations)) d.start =
      exec (do
        let r ← look fun s => s.get ctx.config k owner identifier
        let r ← applyOperations ctx owner r operations
        commit
        notify (.after .updated (.one r.uuid))
        Request.renderOne ctx k [] r) { d.start with told } := by
  have hcheck : exec (check ((ctx.config.serve k).mapError .configuration)) d.start = (.ok pager, d.start) := by
    rw [hserve]
    rfl
  refine ⟨d.start.told ++ [⟨.before (.obj
    [("id", identifier), ("Operations", .arr (operations.map PatchOperation.json))]), d.store⟩], ?_⟩
  rw [Request.steps]
  refine (exec_bind_ok hcheck).trans ?_
  exact exec_bind_ok (exec_notify _ d.start)

/-- A PATCH request is refused before its operations are looked at, or its resource is found. -/
private theorem perform_patch_cases (d : Directory) (identifier : Json) :
    (∃ e, ∀ operations, (d.perform ctx owner (.patch k identifier operations)).result = .error e ∧
      (d.perform ctx owner (.patch k identifier operations)).directory = d) ∨
    ((∃ pager, ctx.config.serve k = .ok pager) ∧
      ∃ r : Row k, d.store.get ctx.config k owner identifier = .ok r) := by
  cases hserve : ctx.config.serve k with
  | error e =>
    refine .inl ⟨.refused (.configuration e), fun operations => ?_⟩
    have hrefused (σ : Session) :
        exec (Request.steps ctx owner (.patch k identifier operations)) σ =
          (.error (.refused (.configuration e)), σ) := by
      refine exec_bind_error ?_
      rw [Request.kind, hserve]
      rfl
    rw [Directory.perform, Directory.run_eq, hrefused]
    exact ⟨rfl, rfl⟩
  | ok pager =>
    cases hget : d.store.get ctx.config k owner identifier with
    | ok r => exact .inr ⟨⟨pager, rfl⟩, r, rfl⟩
    | error e =>
      refine .inl ⟨e, fun operations => ?_⟩
      obtain ⟨told, hpatch⟩ := exec_patch ctx owner hserve identifier operations d
      have hlook : exec (look fun s => s.get ctx.config k owner identifier) { d.start with told } =
          (.error e, { d.start with told }) := by
        rw [exec_look, ← hget]
        rfl
      rw [Directory.perform, Directory.run_eq, hpatch, exec_bind_error hlook]
      exact ⟨rfl, rfl⟩

/-- What a PATCH request on a resource that is found answers and leaves. -/
theorem perform_patch (h : ctx.config.IsStandard) (d : Directory) {identifier : Json} {pager : Pager}
    (hserve : ctx.config.serve k = .ok pager) {r : Row k}
    (hget : d.store.get ctx.config k owner identifier = .ok r) (operations : List PatchOperation) :
    (d.perform ctx owner (.patch k identifier operations)).result =
        (d.store.patched ctx owner r operations).1.map
          ((d.store.patched ctx owner r operations).2.document k) ∧
      (d.perform ctx owner (.patch k identifier operations)).directory =
        { d with
          store :=
            if (d.store.patched ctx owner r operations).1.isOk || !ctx.config.atomicPatch then
              (d.store.patched ctx owner r operations).2
            else d.store } := by
  obtain ⟨told, hpatch⟩ := exec_patch ctx owner hserve identifier operations d
  have hlook : exec (look fun s => s.get ctx.config k owner identifier) { d.start with told } =
      (.ok r, { d.start with told }) := by
    rw [exec_look, ← hget]
    rfl
  obtain ⟨u, hu, hsame⟩ := exec_applyOperations ctx owner r operations { d.start with told } fun _ => rfl
  change _ = ((d.store.patched ctx owner r operations).1, { d.start with
    committed := if ctx.config.atomicPatch then d.store else (d.store.patched ctx owner r operations).2
    current := u
    told }) at hu
  change (d.store.patched ctx owner r operations).1.isOk = true →
    u = (d.store.patched ctx owner r operations).2 at hsame
  rw [Directory.perform, Directory.run_eq, hpatch, exec_bind_ok hlook]
  generalize d.store.patched ctx owner r operations = p at hu hsame ⊢
  obtain ⟨result, s⟩ := p
  cases result with
  | error e =>
    rw [exec_bind_error hu]
    refine ⟨rfl, ?_⟩
    cases hatomic : ctx.config.atomicPatch <;> rfl
  | ok r' =>
    obtain rfl := hsame rfl
    rw [exec_bind_ok hu, exec_bind_ok (exec_commit _), exec_bind_ok (exec_notify _ _)]
    obtain ⟨config, clock⟩ := ctx
    rw [exec_renderOne h]
    exact ⟨rfl, rfl⟩

private theorem patchEach_refused (d : Directory) (identifier : Json) {e : Failure}
    (hrefused : ∀ operations, (d.perform ctx owner (.patch k identifier operations)).result = .error e ∧
      (d.perform ctx owner (.patch k identifier operations)).directory = d) (o : PatchOperation)
    (rest : List PatchOperation) :
    d.patchEach ctx owner k identifier o rest = (.error e, d) := by
  obtain ⟨hresult, hdirectory⟩ := hrefused [o]
  cases rest with
  | nil => rw [Directory.patchEach, hresult, hdirectory]
  | cons next rest => rw [Directory.patchEach, hresult, hdirectory]

theorem perform_single_error (h : ctx.config.IsStandard) (d : Directory) {identifier : Json}
    {pager : Pager} (hserve : ctx.config.serve k = .ok pager) {r : Row k}
    (hget : d.store.get ctx.config k owner identifier = .ok r) {o : PatchOperation} {e : Failure}
    (he : effect (applyOperation ctx owner k r o) d.store = .error e) :
    (d.perform ctx owner (.patch k identifier [o])).result = .error e ∧
      (d.perform ctx owner (.patch k identifier [o])).directory = d := by
  obtain ⟨hresult, hdirectory⟩ := perform_patch ctx owner h d hserve hget [o]
  rw [hresult, hdirectory, Store.patched, he]
  refine ⟨rfl, ?_⟩
  dsimp only
  rw [ite_self]

theorem perform_single_ok (h : ctx.config.IsStandard) (d : Directory) {identifier : Json}
    {pager : Pager} (hserve : ctx.config.serve k = .ok pager) {r : Row k}
    (hget : d.store.get ctx.config k owner identifier = .ok r) {o : PatchOperation} {r' : Row k} {s' : Store}
    (he : effect (applyOperation ctx owner k r o) d.store = .ok (r', s')) :
    (d.perform ctx owner (.patch k identifier [o])).result = .ok (s'.document k r') ∧
      (d.perform ctx owner (.patch k identifier [o])).directory = { d with store := s' } := by
  obtain ⟨hresult, hdirectory⟩ := perform_patch ctx owner h d hserve hget [o]
  rw [hresult, hdirectory, Store.patched, he]
  exact ⟨rfl, rfl⟩

/-- An operation leaves its resource where the next request finds it. -/
private theorem get_of_applyOperation (h : ctx.config.IsStandard) {s s' : Store} {identifier : Json}
    {r r' : Row k} (hget : s.get ctx.config k owner identifier = .ok r) {o : PatchOperation}
    (he : effect (applyOperation ctx owner k r o) s = .ok (r', s')) :
    s'.get ctx.config k owner identifier = .ok r' := by
  obtain ⟨hplain, howned, huuid⟩ := (s.get_eq_ok h owner).1 hget
  have hpatches : s.Patches owner k r r' s' := .of_applyOperation h (Store.mem_rows_of_owned howned) he
  exact (s'.get_eq_ok h owner).2 ⟨hplain, hpatches.mem_owned howned, hpatches.uuid.trans huuid⟩

/-- Requests of their own find the row that a session would have kept. -/
private theorem patchEach_eq (h : ctx.config.IsStandard) {identifier : Json} {pager : Pager}
    (hserve : ctx.config.serve k = .ok pager) (d : Directory) {r : Row k}
    (hget : d.store.get ctx.config k owner identifier = .ok r) (o : PatchOperation)
    (rest : List PatchOperation) :
    d.patchEach ctx owner k identifier o rest =
      ((d.store.patched ctx owner r (o :: rest)).1.map
          ((d.store.patched ctx owner r (o :: rest)).2.document k),
        { d with store := (d.store.patched ctx owner r (o :: rest)).2 }) := by
  induction rest generalizing d r o with
  | nil =>
    rw [Directory.patchEach, Store.patched]
    cases he : effect (applyOperation ctx owner k r o) d.store with
    | error e =>
      obtain ⟨hresult, hdirectory⟩ := perform_single_error ctx owner h d hserve hget he
      rw [hresult, hdirectory]
      rfl
    | ok p =>
      obtain ⟨hresult, hdirectory⟩ := perform_single_ok ctx owner h d hserve hget he
      rw [hresult, hdirectory]
      rfl
  | cons next rest ih =>
    rw [Directory.patchEach, Store.patched]
    cases he : effect (applyOperation ctx owner k r o) d.store with
    | error e =>
      obtain ⟨hresult, hdirectory⟩ := perform_single_error ctx owner h d hserve hget he
      rw [hresult, hdirectory]
      rfl
    | ok p =>
      obtain ⟨hresult, hdirectory⟩ := perform_single_ok ctx owner h d hserve hget he
      have hget' := get_of_applyOperation ctx owner h hget he
      rw [hresult, hdirectory]
      exact ih { d with store := p.2 } hget' next

end Requests

/-- A PATCH request of several operations answers as the last request does of those that carry them one by
one until one is refused. Unless requests are atomic it leaves the same directory; an atomic request succeeds
when all of them do, and then leaves the same directory. -/
theorem patch_eq_patchEach {s : Settings} {c : Config} (hb : Config.build s = .ok c)
    (hs : s.customUserAttributes = []) (clock : Nat) (d : Directory) (owner : Company) (k : Kind)
    (identifier : Json) (o : PatchOperation) (rest : List PatchOperation) :
    (s.atomicPatch = false →
      (d.perform ⟨c, clock⟩ owner (.patch k identifier (o :: rest))).result =
          (d.patchEach ⟨c, clock⟩ owner k identifier o rest).1 ∧
        (d.perform ⟨c, clock⟩ owner (.patch k identifier (o :: rest))).directory =
          (d.patchEach ⟨c, clock⟩ owner k identifier o rest).2) ∧
    (s.atomicPatch = true →
      ((d.perform ⟨c, clock⟩ owner (.patch k identifier (o :: rest))).result.isOk = true ↔
          (d.patchEach ⟨c, clock⟩ owner k identifier o rest).1.isOk = true) ∧
        ∀ answer, (d.perform ⟨c, clock⟩ owner (.patch k identifier (o :: rest))).result = .ok answer →
          d.patchEach ⟨c, clock⟩ owner k identifier o rest =
            (.ok answer, (d.perform ⟨c, clock⟩ owner (.patch k identifier (o :: rest))).directory)) := by
  have h := Config.isStandard_of_build hb hs
  have hatomic : c.atomicPatch = s.atomicPatch := Config.atomicPatch_of_build hb
  rcases perform_patch_cases (k := k) ⟨c, clock⟩ owner d identifier with ⟨e, hrefused⟩ | ⟨⟨pager, hserve⟩, r, hget⟩
  · obtain ⟨hresult, hdirectory⟩ := hrefused (o :: rest)
    have hsequence := patchEach_refused ⟨c, clock⟩ owner d identifier hrefused o rest
    rw [hresult, hdirectory, hsequence]
    refine ⟨fun _ => ⟨rfl, rfl⟩, fun _ => ⟨Iff.rfl, ?_⟩⟩
    intro answer hanswer
    cases hanswer
  · obtain ⟨hresult, hdirectory⟩ := perform_patch ⟨c, clock⟩ owner h d hserve hget (o :: rest)
    have hsequence := patchEach_eq ⟨c, clock⟩ owner h hserve d hget o rest
    rw [hresult, hdirectory, hsequence]
    generalize d.store.patched ⟨c, clock⟩ owner r (o :: rest) = p
    obtain ⟨result, left⟩ := p
    constructor
    · intro hs
      have hc : c.atomicPatch = false := hatomic.trans hs
      refine ⟨rfl, ?_⟩
      dsimp only
      rw [hc, Bool.not_false, Bool.or_true, if_pos rfl]
    · intro _
      refine ⟨Iff.rfl, ?_⟩
      intro answer hanswer
      cases result with
      | error e => cases hanswer
      | ok r' =>
        rw [← hanswer]
        rfl

/-- The operation that fails comes after one that is kept; in an atomic request with another operation in its
place nothing fails. -/
theorem patch_eq_patchEach_sample :
    ((Sample.directory.patchEach ⟨Sample.config false, 7⟩ Sample.acme .group (.str "g1")
          (Sample.replaceMembers "u2") [Sample.removeMember "u1"]).1 = .error (.refused (.notFound (.str "u1"))) ∧
      (Sample.directory.patchEach ⟨Sample.config false, 7⟩ Sample.acme .group (.str "g1")
          (Sample.replaceMembers "u2") [Sample.removeMember "u1"]).2.store.memberships = [⟨1, 2, 7⟩]) ∧
    (Sample.directory.patchEach ⟨Sample.config true, 7⟩ Sample.acme .group (.str "g1")
      (Sample.replaceMembers "u2") [Sample.removeMember "u2"]).1.isOk = true := by
  constructor
  · have hloose := (patch_eq_patchEach (Sample.build_config false) rfl 7 Sample.directory Sample.acme .group
      (.str "g1") (Sample.replaceMembers "u2") [Sample.removeMember "u1"]).1 rfl
    rw [← hloose.1, ← hloose.2]
    exact ⟨by decide +kernel, by decide +kernel⟩
  · have hatomic := (patch_eq_patchEach (Sample.build_config true) rfl 7 Sample.directory Sample.acme .group
      (.str "g1") (Sample.replaceMembers "u2") [Sample.removeMember "u2"]).2 rfl
    rw [← hatomic.1]
    decide +kernel

end Roster
