import Roster.Proofs.Insertion
import Roster.Proofs.PatchSequence

/-!
What requests come to.

Every request is a function of the store that it finds: it is refused and changes nothing, or it answers with
a resource of the store that it leaves. The functions are stated here without the session in which a request
is carried out, one for each kind of request; what is proved of all requests is proved of them.
-/

set_option autoImplicit false

namespace Roster

open Step

variable {k : Kind}

namespace Store

/-- The store after a change; a change that fails is none. -/
def leftBy {α : Type} (s : Store) : Except Failure (α × Store) → Store
  | .ok p => p.2
  | .error _ => s

/-- The users that a request to create a resource lists. -/
def newUsers (s : Store) (config : Config) (owner : Company) (k : Kind) (payload : Json) :
    Except Failure (List (Row .user)) :=
  match k, payload.fieldOrNull "members" with
  | .user, _ | .group, .null => .ok []
  | .group, members => s.listed config owner members Members.postExpectation

/-- The users that a request to replace a resource lists. -/
def replacedUsers (s : Store) (config : Config) (owner : Company) (k : Kind) (payload : Json) :
    Except Failure (List (Row .user)) :=
  match k with
  | .user => .ok []
  | .group => s.listed config owner (payload.fieldOrNull "members") Members.putExpectation

def withNewMembers (s : Store) (clock : Nat) (users : List (Row .user)) : (k : Kind) → Row k → Store
  | .user, _ => s
  | .group, r => s.addMembers clock r users

def withMembers (s : Store) (clock : Nat) (users : List (Row .user)) : (k : Kind) → Row k → Store
  | .user, _ => s
  | .group, r => (s.clearMembers r).addMembers clock r users

end Store

/-- What a request to create a resource comes to before anything is written: its attributes, its status, the
users that it lists, and the resource that has its natural key. -/
structure Creation (k : Kind) where
  attributes : Schema.Values
  status : Option Bool
  users : List (Row .user)
  existing : Option (Row k)

namespace Store

def creation (s : Store) (c : Config) (owner : Company) (k : Kind) (payload : Json) :
    Except Failure (Creation k) := do
  let attributes ← ((c.resource k).complete payload).mapError .refused
  let status ← (parseActive (payload.fieldOrNull "active")).mapError .refused
  let users ← s.newUsers c owner k payload
  match attributes.lookup (c.resource k).naturalKey with
  | none => .error (.fault .internal)
  | some key =>
    let existing ← s.findBy k owner (c.resource k).naturalKey key (c.resource k).ignoreCase
    if existing.isSome && (c.resource k).preventUpdate then
      .error (.refused (.conflict (c.resource k).name (c.resource k).naturalKey key))
    else return ⟨attributes, status, users, existing⟩

/-- Writes attributes over those of a row that exists, or inserts a row with them. -/
def upserted (s : Store) (clock : Nat) (owner : Company) (uuid : String) (existing : Option (Row k))
    (attributes : Schema.Values) : Except Failure (Row k × Store) :=
  match existing with
  | some r => s.update clock r attributes
  | none => do s.insert clock owner uuid (← columns k attributes)

/-- Gives a row that has been written its status and its members. -/
def completed (s : Store) (clock : Nat) (r : Row k) (status : Option Bool)
    (members : Store → (k : Kind) → Row k → Store) : Except Failure (Row k × Store) :=
  (s.settled clock r status).map fun p => (p.1, members p.2 k p.1)

def carriedOut (s : Store) (clock : Nat) (owner : Company) (uuid : String) (p : Creation k) :
    Except Failure (Row k × Store) := do
  let (r, s) ← s.upserted clock owner uuid p.existing p.attributes
  s.completed clock r p.status fun s => s.withNewMembers clock p.users

/-- What a request to create a resource comes to. -/
def created (s : Store) (ctx : Context) (owner : Company) (k : Kind) (uuid : String) (payload : Json) :
    Except Failure (Row k × Store) := do
  s.carriedOut ctx.clock owner uuid (← s.creation ctx.config owner k payload)

/-- How many identifiers a request to create a resource draws: one, if it gets as far as to insert it. -/
def drawnFor (s : Store) (c : Config) (owner : Company) (k : Kind) (payload : Json) : Nat :=
  match s.creation c owner k payload with
  | .ok p => p.existing.isNone.toNat
  | .error _ => 0

/-- What a request to replace a resource comes to. -/
def replaced (s : Store) (ctx : Context) (owner : Company) (k : Kind) (identifier payload : Json) :
    Except Failure (Row k × Store) := do
  let r ← s.get ctx.config k owner identifier
  let users ← s.replacedUsers ctx.config owner k payload
  let status ← (parseActive (payload.fieldOrNull "active")).mapError .refused
  let attributes ← ((ctx.config.resource k).complete payload).mapError .refused
  s.checkKey ctx.config owner r attributes
  let (r, s) ← s.update ctx.clock r attributes
  s.completed ctx.clock r status fun s => s.withMembers ctx.clock users

/-- What a request to delete a resource comes to. -/
def deleted (s : Store) (c : Config) (owner : Company) (k : Kind) (identifier : Json) :
    Except Failure (Row k × Store) :=
  (s.get c k owner identifier).map fun r => (r, s.erase k r)

/-- The answer to a request to list resources. -/
def listing (s : Store) (c : Config) (owner : Company) (pager : Pager) (k : Kind) (filter start count : Json) :
    Except Failure Json := do
  let window ← pager.window start count
  let expression ← Request.filterOf (c.resource k).queryable filter
  let page ← s.query k owner expression (c.resource k).listOrder window.offset (some window.limit)
  return listAnswer page.total window.startIndex window.limit (page.items.map (s.document k))

theorem owned_memberships (s : Store) (memberships : List Membership) (k : Kind) (owner : Company) :
    ({ s with memberships } : Store).owned k owner = s.owned k owner := by
  cases k <;> rfl

theorem owned_addMembers (s : Store) (clock : Nat) (g : Row .group) (users : List (Row .user)) (k : Kind)
    (owner : Company) :
    (s.addMembers clock g users).owned k owner = s.owned k owner := by
  rw [addMembers_eq, owned_memberships]

theorem table_addMembers (s : Store) (clock : Nat) (g : Row .group) (users : List (Row .user)) (k : Kind) :
    (s.addMembers clock g users).table k = s.table k := by
  rw [addMembers_eq]
  cases k <;> rfl

theorem table_withNewMembers (s : Store) (clock : Nat) (users : List (Row .user)) (r : Row k) (k' : Kind) :
    (s.withNewMembers clock users k r).table k' = s.table k' := by
  cases k with
  | user => rfl
  | group => exact s.table_addMembers clock r users k'

theorem table_withMembers (s : Store) (clock : Nat) (users : List (Row .user)) (r : Row k) (k' : Kind) :
    (s.withMembers clock users k r).table k' = s.table k' := by
  cases k with
  | user => rfl
  | group =>
    refine ((s.clearMembers r).table_addMembers clock r users k').trans ?_
    cases k' <;> rfl

theorem companies_withNewMembers (s : Store) (clock : Nat) (users : List (Row .user)) (r : Row k) :
    (s.withNewMembers clock users k r).companies = s.companies := by
  cases k with
  | user => rfl
  | group =>
    rw [withNewMembers, addMembers_eq]

theorem companies_withMembers (s : Store) (clock : Nat) (users : List (Row .user)) (r : Row k) :
    (s.withMembers clock users k r).companies = s.companies := by
  cases k with
  | user => rfl
  | group =>
    rw [withMembers, addMembers_eq]
    rfl

theorem owned_withNewMembers (s : Store) (clock : Nat) (users : List (Row .user)) (r : Row k) (k' : Kind)
    (owner : Company) :
    (s.withNewMembers clock users k r).owned k' owner = s.owned k' owner := by
  cases k with
  | user => rfl
  | group => exact s.owned_addMembers clock r users k' owner

theorem owned_withMembers (s : Store) (clock : Nat) (users : List (Row .user)) (r : Row k) (k' : Kind)
    (owner : Company) :
    (s.withMembers clock users k r).owned k' owner = s.owned k' owner := by
  cases k with
  | user => rfl
  | group => exact ((s.clearMembers r).owned_addMembers clock r users k' owner).trans (s.owned_memberships _ k' owner)

/-- A row that exists is written, or a new one is inserted. -/
theorem upserted_cases {s s' : Store} {clock : Nat} {owner : Company} {uuid : String} {existing : Option (Row k)}
    {attributes : Schema.Values} (hprofile : ProfileOnly k attributes) {r : Row k}
    (h : s.upserted clock owner uuid existing attributes = .ok (r, s')) :
    (∃ found, existing = some found ∧ s.update clock found attributes = .ok (r, s')) ∨
      existing = none ∧ ∃ profile t,
        r = ⟨(s.table k).nextId, uuid, .integer owner.id, profile, none, clock, clock⟩ ∧
        (s.table k).insert? r = some t ∧ s' = s.withTable k t := by
  cases existing with
  | some found => exact .inl ⟨found, rfl, h⟩
  | none =>
    obtain ⟨values, hvalues, hinsert⟩ := bind_eq_ok.1 h
    obtain ⟨values', hvalues', hall⟩ := exists_columns_eq_ok hprofile
    rw [hvalues] at hvalues'
    cases hvalues'
    obtain ⟨profile, hr, t, ht, hs'⟩ := exists_of_insert hall hinsert
    exact .inr ⟨rfl, profile, t, hr, ht, hs'⟩

/-- What a creation has been prepared from. -/
theorem creation_eq_ok {s : Store} {c : Config} {owner : Company} {payload : Json} {p : Creation k} :
    s.creation c owner k payload = .ok p ↔
      (c.resource k).complete payload = .ok p.attributes ∧
      parseActive (payload.fieldOrNull "active") = .ok p.status ∧
      s.newUsers c owner k payload = .ok p.users ∧
      (p.existing.isSome && (c.resource k).preventUpdate) = false ∧
      ∃ key, p.attributes.lookup (c.resource k).naturalKey = some key ∧
        s.findBy k owner (c.resource k).naturalKey key (c.resource k).ignoreCase = .ok p.existing := by
  constructor
  · intro h
    obtain ⟨attributes, hattributes, h⟩ := bind_eq_ok.1 h
    obtain ⟨status, hstatus, h⟩ := bind_eq_ok.1 h
    obtain ⟨users, husers, h⟩ := bind_eq_ok.1 h
    split at h
    · cases h
    next key hkey =>
      obtain ⟨existing, hexisting, h⟩ := bind_eq_ok.1 h
      split at h
      · cases h
      next hallowed =>
        cases h
        exact ⟨eq_ok_of_mapError hattributes, eq_ok_of_mapError hstatus, husers,
          Bool.eq_false_iff.2 hallowed, key, hkey, hexisting⟩
  · obtain ⟨attributes, status, users, existing⟩ := p
    rintro ⟨hattributes, hstatus, husers, hallowed, key, hkey, hexisting⟩
    dsimp only at hattributes hstatus husers hallowed hkey hexisting
    rw [creation, hattributes, hstatus, husers]
    simp only [Except.mapError, ok_bind, hkey, hexisting, hallowed, Bool.false_eq_true, if_false]
    rfl

end Store

/-! ## Steps without the copy that they work on -/

namespace Step

variable {α β : Type}

/-- The result of a step and what is left of the directory. -/
def left (x : Step α) (σ : Session) : Except Failure α × Directory :=
  ((exec x σ).1, ⟨(exec x σ).2.committed, (exec x σ).2.drawn, (exec x σ).2.kept⟩)

theorem left_bind {x : Step α} (hx : Local x) (f : α → Step β) (σ : Session) :
    left (x >>= f) σ =
      match effect x σ.current with
      | .ok p => left (f p.1) { σ with current := p.2 }
      | .error e => (.error e, ⟨σ.committed, σ.drawn, σ.kept⟩) := by
  cases h : effect x σ.current with
  | error e =>
    obtain ⟨s, hs⟩ := hx.error h
    rw [left, exec_bind_error hs]
  | ok p =>
    rw [left, exec_bind_ok (hx.ok h)]
    rfl

theorem left_attempt_bind (result : Except Failure α) (f : α → Step β) (σ : Session) :
    left (attempt result >>= f) σ =
      match result with
      | .ok a => left (f a) σ
      | .error e => (.error e, ⟨σ.committed, σ.drawn, σ.kept⟩) := by
  cases result <;> rfl

theorem left_check_bind (result : Except Error α) (f : α → Step β) (σ : Session) :
    left (check result >>= f) σ =
      match result.mapError Failure.refused with
      | .ok a => left (f a) σ
      | .error e => (.error e, ⟨σ.committed, σ.drawn, σ.kept⟩) :=
  left_attempt_bind (result.mapError .refused) f σ

theorem left_look_bind (g : Store → Except Failure α) (f : α → Step β) (σ : Session) :
    left (look g >>= f) σ =
      match g σ.current with
      | .ok a => left (f a) σ
      | .error e => (.error e, ⟨σ.committed, σ.drawn, σ.kept⟩) := by
  rw [left_bind (local_look g), effect_look]
  cases g σ.current <;> rfl

theorem left_notify_bind (notice : Notice) (f : Unit → Step β) (σ : Session) :
    left (notify notice >>= f) σ = left (f ()) { σ with told := σ.told ++ [⟨notice, σ.committed⟩] } := by
  rw [left, exec_bind_ok (exec_notify notice σ), left]

end Step

/-! ## What requests answer and leave -/

section Requests

variable {ctx : Context} (h : ctx.config.IsStandard) (owner : Company)

theorem effect_newMembers (payload : Json) (s : Store) :
    effect (Request.newMembers ctx owner k payload) s =
      (s.newUsers ctx.config owner k payload).map fun users => (users, s) := by
  cases k with
  | user => rfl
  | group =>
    rw [Request.newMembers.eq_def, Store.newUsers.eq_def]
    generalize payload.fieldOrNull "members" = members
    cases members
    case null => rfl
    all_goals exact effect_listedUsers ctx owner s _ _

private theorem effect_replacedMembers (payload : Json) (s : Store) :
    effect (Request.replacedMembers ctx owner k payload) s =
      (s.replacedUsers ctx.config owner k payload).map fun users => (users, s) := by
  cases k with
  | user => rfl
  | group => exact effect_listedUsers ctx owner s _ _

theorem effect_addNewMembers (users : List (Row .user)) (r : Row k) (s : Store) :
    effect (Request.addNewMembers ctx users k r) s = .ok ((), s.withNewMembers ctx.clock users k r) := by
  cases k <;> rfl

private theorem effect_setMembers (users : List (Row .user)) (r : Row k) (s : Store) :
    effect (Request.setMembers ctx users k r) s = .ok ((), s.withMembers ctx.clock users k r) := by
  cases k <;> rfl

/-- What a request leaves of a directory that changes its store. -/
def Directory.changed (d : Directory) (result : Except Failure (Row k × Store)) : Except Failure Json × Directory :=
  (result.map fun p => p.2.document k p.1, { d with store := d.store.leftBy result })

/-- Writes a resource whose creation has been prepared. -/
private def carryOut (ctx : Context) (owner : Company) (p : Creation k) : Step Json := do
  let q ← match p.existing with
    | some found => Request.overwriteResource ctx found p.attributes
    | none => Request.insertResource ctx owner k p.attributes
  let r ← applyStatus ctx q.1 p.status
  Request.addNewMembers ctx p.users k r
  commit
  notify (.after .created (.one r.uuid))
  Request.renderOne ctx k q.2 r

include h

private theorem merged_eq {payload : Json} {attributes : Schema.Values}
    (hcomplete : (ctx.config.resource k).complete payload = .ok attributes) :
    mergeFields (ctx.config.resource k).customAttributes attributes = attributes := by
  obtain ⟨-, rfl⟩ := ResourceConfig.eq_extract_of_complete hcomplete
  rw [h.customAttributes]
  exact mergeFields_eq_append (Schema.nodup_extract _ payload)

private theorem left_runCreate (payload : Json) (d : Directory) :
    ∃ told, left (Request.runCreate ctx owner k payload) d.start =
      match d.store.creation ctx.config owner k payload with
      | .ok p => left (carryOut ctx owner p) { d.start with told }
      | .error e => (.error e, d) := by
  refine ⟨d.start.told ++ [⟨.before (Request.announced payload), d.store⟩], ?_⟩
  unfold Request.runCreate
  rw [left_notify_bind, left_check_bind, Store.creation]
  cases hcomplete : (ctx.config.resource k).complete payload with
  | error e => rfl
  | ok attributes =>
    dsimp only [Except.mapError]
    rw [left_check_bind, ok_bind]
    cases parseActive (payload.fieldOrNull "active") with
    | error e => rfl
    | ok status =>
      dsimp only [Except.mapError]
      rw [left_bind (local_newMembers ctx owner payload), effect_newMembers, ok_bind]
      dsimp only [Directory.start]
      cases d.store.newUsers ctx.config owner k payload with
      | error e => rfl
      | ok users =>
        dsimp only [Except.map]
        rw [ok_bind]
        cases attributes.lookup (ctx.config.resource k).naturalKey with
        | none => rfl
        | some key =>
          dsimp only
          rw [left_look_bind]
          dsimp only
          cases d.store.findBy k owner (ctx.config.resource k).naturalKey key
            (ctx.config.resource k).ignoreCase with
          | error e => rfl
          | ok existing =>
            dsimp only
            rw [ok_bind, merged_eq h hcomplete]
            cases existing with
            | none => rfl
            | some found =>
              cases (ctx.config.resource k).preventUpdate <;> rfl

/-- The end of a request that has written a resource. -/
private theorem left_complete (event : Event) (members : Store → (k : Kind) → Row k → Store)
    {add : (k : Kind) → Row k → Step Unit} (hlocal : ∀ r : Row k, Local (add k r))
    (hadd : ∀ (r : Row k) s, effect (add k r) s = .ok ((), members s k r)) (r : Row k) (status : Option Bool)
    (σ : Session) :
    left (do
        let r ← applyStatus ctx r status
        add k r
        commit
        notify (.after event (.one r.uuid))
        Request.renderOne ctx k [] r) σ =
      Directory.changed ⟨σ.committed, σ.drawn, σ.kept⟩ (σ.current.completed ctx.clock r status members) := by
  rw [left_bind (local_applyStatus ctx r status), effect_applyStatus, Store.completed]
  cases σ.current.settled ctx.clock r status with
  | error e => rfl
  | ok p =>
    obtain ⟨config, clock⟩ := ctx
    dsimp only
    rw [left_bind (hlocal p.1), hadd]
    dsimp only
    rw [left, exec_bind_ok (exec_commit _), exec_bind_ok (exec_notify _ _), exec_renderOne h]
    rfl

private theorem left_carryOut {p : Creation k} (hp : ProfileOnly k p.attributes) (σ : Session) :
    left (carryOut ctx owner p) σ =
      Directory.changed ⟨σ.committed, σ.drawn + p.existing.isNone.toNat, σ.kept⟩
        (σ.current.carriedOut ctx.clock owner (Uuid.numbered (σ.drawn + 1)) p) := by
  obtain ⟨attributes, status, users, existing⟩ := p
  have hrest (r : Row k) (σ : Session) := left_complete h .created (fun s => s.withNewMembers ctx.clock users)
    (local_addNewMembers ctx users) (effect_addNewMembers users) r status σ
  cases existing with
  | some found =>
    have hlocal := local_overwriteResource ctx found attributes
    have heffect : effect (Request.overwriteResource ctx found attributes) σ.current =
        (σ.current.update ctx.clock found attributes).map fun q => ((q.1, []), q.2) := by
      rw [Request.overwriteResource, effect_bind _ (local_change _) fun _ => local_pure _, effect_change]
      cases σ.current.update ctx.clock found attributes <;> rfl
    rw [carryOut, left_bind hlocal, heffect, Store.carriedOut, Store.upserted]
    cases σ.current.update ctx.clock found attributes with
    | error e => rfl
    | ok q => exact hrest q.1 { σ with current := q.2 }
  | none =>
    obtain ⟨values, hvalues, -⟩ := exists_columns_eq_ok hp
    have hexec := exec_insertResource ctx owner hp hvalues σ
    rw [carryOut, left, Store.carriedOut, Store.upserted, hvalues, ok_bind]
    dsimp only at hexec ⊢
    rw [exec_bind, hexec]
    cases σ.current.insert ctx.clock owner (Uuid.numbered (σ.drawn + 1)) values with
    | error e => rfl
    | ok q => exact hrest q.1 { σ with current := q.2, drawn := σ.drawn + 1 }

private theorem left_runReplace (identifier payload : Json) (d : Directory) :
    left (Request.runReplace ctx owner k identifier payload) d.start =
      d.changed (d.store.replaced ctx owner k identifier payload) := by
  unfold Request.runReplace
  rw [left_notify_bind, left_look_bind, Store.replaced]
  dsimp only [Directory.start]
  cases d.store.get ctx.config k owner identifier with
  | error e => rfl
  | ok r =>
    dsimp only
    rw [ok_bind, left_bind (local_replacedMembers ctx owner payload), effect_replacedMembers]
    cases d.store.replacedUsers ctx.config owner k payload with
    | error e => rfl
    | ok users =>
      dsimp only [Except.map]
      rw [ok_bind, left_check_bind]
      cases parseActive (payload.fieldOrNull "active") with
      | error e => rfl
      | ok status =>
        dsimp only [Except.mapError]
        rw [ok_bind, left_check_bind]
        cases (ctx.config.resource k).complete payload with
        | error e => rfl
        | ok attributes =>
          dsimp only [Except.mapError]
          rw [ok_bind, left_bind (local_updateAttributes ctx owner r attributes), updateAttributes, effect_change]
          dsimp only
          cases d.store.checkKey ctx.config owner r attributes with
          | error e => rfl
          | ok u =>
            rw [ok_bind, ok_bind]
            cases d.store.update ctx.clock r attributes with
            | error e => rfl
            | ok q =>
              exact left_complete h .updated (fun s => s.withMembers ctx.clock users) (local_setMembers ctx users)
                (effect_setMembers users) q.1 status _

omit h in
private theorem left_runDelete (identifier : Json) (d : Directory) :
    left (Request.runDelete ctx owner k identifier) d.start =
      ((d.store.deleted ctx.config owner k identifier).map fun _ => .null,
        { d with store := d.store.leftBy (d.store.deleted ctx.config owner k identifier) }) := by
  unfold Request.runDelete
  rw [left_notify_bind, left_look_bind, Store.deleted]
  dsimp only [Directory.start]
  cases d.store.get ctx.config k owner identifier <;> rfl

private theorem left_runShow (identifier : Json) (d : Directory) :
    left (Request.runShow ctx owner k identifier) d.start =
      ((d.store.get ctx.config k owner identifier).map (d.store.document k), d) := by
  unfold Request.runShow
  rw [left_notify_bind, left_look_bind]
  dsimp only [Directory.start]
  cases d.store.get ctx.config k owner identifier with
  | error e => rfl
  | ok r =>
    obtain ⟨config, clock⟩ := ctx
    dsimp only
    rw [left_notify_bind, left, exec_renderOne h]
    rfl

private theorem left_runList (pager : Pager) (filter start count : Json) (d : Directory) :
    left (Request.runList ctx owner pager k filter start count) d.start =
      (d.store.listing ctx.config owner pager k filter start count, d) := by
  unfold Request.runList
  rw [left_notify_bind, left_attempt_bind, Store.listing]
  dsimp only [Directory.start]
  cases pager.window start count with
  | error e => rfl
  | ok window =>
    dsimp only
    rw [ok_bind, left_attempt_bind]
    cases Request.filterOf (ctx.config.resource k).queryable filter with
    | error e => rfl
    | ok expression =>
      dsimp only
      rw [ok_bind, left_look_bind]
      cases d.store.query k owner expression (ctx.config.resource k).listOrder window.offset
        (some window.limit) with
      | error e => rfl
      | ok page =>
        obtain ⟨config, clock⟩ := ctx
        have hobjects (s : Store) : (page.items.map (s.document k)).all Json.isObject = true := by
          rw [List.all_map]
          exact List.all_eq_true.2 fun r _ => (s.sendable_document r).1
        dsimp only
        rw [left_notify_bind, left, exec_bind_ok (exec_render h clock page.items _)]
        dsimp only
        rw [hobjects]
        rfl

omit h in
private theorem left_runPatch_error {identifier : Json} {d : Directory} {e : Failure}
    (he : d.store.get ctx.config k owner identifier = .error e) (operations : List PatchOperation) :
    left (Request.runPatch ctx owner k identifier operations) d.start = (.error e, d) := by
  unfold Request.runPatch
  rw [left_notify_bind, left_look_bind]
  dsimp only [Directory.start]
  rw [he]

end Requests

namespace Directory

/-- What a PATCH request makes of a directory. -/
def patched (d : Directory) (ctx : Context) (owner : Company) (k : Kind) (identifier : Json)
    (operations : List PatchOperation) : Except Failure Json × Directory :=
  match d.store.get ctx.config k owner identifier with
  | .error e => (.error e, d)
  | .ok r =>
    ((d.store.patched ctx owner r operations).1.map ((d.store.patched ctx owner r operations).2.document k),
      { d with
        store :=
          if (d.store.patched ctx owner r operations).1.isOk || !ctx.config.atomicPatch then
            (d.store.patched ctx owner r operations).2
          else d.store })

/-- What a request of a company makes of a directory when it is served: its result and the directory that it
leaves. -/
def answer (d : Directory) (ctx : Context) (owner : Company) (pager : Pager) :
    Request → Except Failure Json × Directory
  | .list k filter start count => (d.store.listing ctx.config owner pager k filter start count, d)
  | .show k identifier => ((d.store.get ctx.config k owner identifier).map (d.store.document k), d)
  | .create k payload =>
    Directory.changed { d with drawn := d.drawn + d.store.drawnFor ctx.config owner k payload }
      (d.store.created ctx owner k (Uuid.numbered (d.drawn + 1)) payload)
  | .replace k identifier payload => d.changed (d.store.replaced ctx owner k identifier payload)
  | .patch k identifier operations => d.patched ctx owner k identifier operations
  | .delete k identifier =>
    ((d.store.deleted ctx.config owner k identifier).map fun _ => .null,
      { d with store := d.store.leftBy (d.store.deleted ctx.config owner k identifier) })

/-- Under a standard configuration a request is a function of the directory that it finds. -/
theorem perform_eq {ctx : Context} (h : ctx.config.IsStandard) (d : Directory) (owner : Company)
    (request : Request) :
    ((d.perform ctx owner request).result, (d.perform ctx owner request).directory) =
      match ctx.config.serve request.kind with
      | .ok pager => d.answer ctx owner pager request
      | .error e => (.error (.refused (.configuration e)), d) := by
  change left (Request.steps ctx owner request) d.start = _
  unfold Request.steps
  rw [left_check_bind]
  cases hserve : ctx.config.serve request.kind with
  | error e => rfl
  | ok pager =>
    cases request with
    | list k filter start count => exact left_runList h owner pager filter start count d
    | «show» k identifier => exact left_runShow h owner identifier d
    | create k payload =>
      obtain ⟨told, hcreate⟩ := left_runCreate h owner payload d
      refine hcreate.trans ?_
      dsimp only [answer]
      rw [Store.drawnFor, Store.created]
      cases hp : d.store.creation ctx.config owner k payload with
      | error e => rfl
      | ok p =>
        have hprofile : ProfileOnly k p.attributes := h.profileOnly_complete (Store.creation_eq_ok.1 hp).1
        exact left_carryOut h owner hprofile { d.start with told }
    | replace k identifier payload => exact left_runReplace h owner identifier payload d
    | patch k identifier operations =>
      dsimp only [answer]
      rw [patched]
      cases hget : d.store.get ctx.config k owner identifier with
      | error e => exact left_runPatch_error owner hget operations
      | ok r =>
        obtain ⟨hresult, hdirectory⟩ := perform_patch ctx owner h d hserve hget operations
        have hleft : left (Request.steps ctx owner (.patch k identifier operations)) d.start =
            left (Request.runPatch ctx owner k identifier operations) d.start := by
          unfold Request.steps
          rw [left_check_bind, hserve]
          rfl
        exact hleft.symm.trans (Prod.ext hresult hdirectory)
    | delete k identifier => exact left_runDelete owner identifier d

theorem perform_of_serve {ctx : Context} (h : ctx.config.IsStandard) (d : Directory) (owner : Company)
    (request : Request) {pager : Pager} (hserve : ctx.config.serve request.kind = .ok pager) :
    (d.perform ctx owner request).result = (d.answer ctx owner pager request).1 ∧
      (d.perform ctx owner request).directory = (d.answer ctx owner pager request).2 := by
  have hperform := perform_eq h d owner request
  rw [hserve] at hperform
  exact ⟨congrArg Prod.fst hperform, congrArg Prod.snd hperform⟩

/-- A request is refused because no service can be opened, or it is served. -/
theorem perform_cases {ctx : Context} (h : ctx.config.IsStandard) (d : Directory) (owner : Company)
    (request : Request) :
    (∃ e, ctx.config.serve request.kind = .error e ∧
      (d.perform ctx owner request).result = .error (.refused (.configuration e)) ∧
      (d.perform ctx owner request).directory = d) ∨
    ∃ pager, ctx.config.serve request.kind = .ok pager ∧
      (d.perform ctx owner request).result = (d.answer ctx owner pager request).1 ∧
      (d.perform ctx owner request).directory = (d.answer ctx owner pager request).2 := by
  cases hserve : ctx.config.serve request.kind with
  | error e =>
    have hperform := perform_eq h d owner request
    rw [hserve] at hperform
    obtain ⟨hresult, hdirectory⟩ := Prod.mk.inj hperform
    exact .inl ⟨e, rfl, hresult, hdirectory⟩
  | ok pager => exact .inr ⟨pager, rfl, perform_of_serve h d owner request hserve⟩

end Directory

end Roster
