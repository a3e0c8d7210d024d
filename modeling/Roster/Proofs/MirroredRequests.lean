import Roster.Proofs.Mirroring

/-!
Requests to directories that agree on a company.

Two directories that agree on a company and are about to draw the same identifiers answer every request of the
company alike, and agree on it afterwards: what is looked for is found in both or in neither, and what is written
is written into both.
-/

set_option autoImplicit false

namespace Roster

open Step

variable {k : Kind} {s s' : Store} {owner : Company} {f : Renumbering} {drawn n : Nat}

namespace Store

theorem Twins.document {p p' : Row k × Store} (h : Twins f owner drawn n p p') :
    p'.2.document k p'.1 = p.2.document k p.1 := by
  rw [h.row]
  exact h.stores.document h.stores.left.tenantLocal h.mem

/-! ## Creating and replacing -/

theorem Twins.withNewMembers {p p' : Row k × Store} (h : Twins f owner drawn n p p') {users : List (Row .user)}
    (husers : k = .group → ∀ u ∈ users, u ∈ p.2.owned .user owner) (clock : Nat) :
    Twins f owner drawn n (p.1, p.2.withNewMembers clock users k p.1)
      (p'.1, p'.2.withNewMembers clock (users.map (Row.renumber f)) k p'.1) := by
  obtain ⟨hstores, hmem, hrow⟩ := h
  refine ⟨?_, ?_, hrow⟩
  · rw [hrow]
    cases k with
    | user => exact hstores
    | group => exact hstores.addMembers hmem (husers rfl) clock
  · rw [owned_withNewMembers]
    exact hmem

theorem Twins.withMembers {p p' : Row k × Store} (h : Twins f owner drawn n p p') {users : List (Row .user)}
    (husers : k = .group → ∀ u ∈ users, u ∈ p.2.owned .user owner) (clock : Nat) :
    Twins f owner drawn n (p.1, p.2.withMembers clock users k p.1)
      (p'.1, p'.2.withMembers clock (users.map (Row.renumber f)) k p'.1) := by
  obtain ⟨hstores, hmem, hrow⟩ := h
  refine ⟨?_, ?_, hrow⟩
  · rw [hrow]
    cases k with
    | user => exact hstores
    | group =>
      have hcleared (k' : Kind) : (p.2.clearMembers p.1).owned k' owner = p.2.owned k' owner :=
        owned_memberships _ _ _ _
      apply (hstores.clearMembers hmem).addMembers
      · rw [hcleared]
        exact hmem
      · rw [hcleared]
        exact husers rfl
  · rw [owned_withMembers]
    exact hmem

/-- Rows that are written are completed alike. -/
theorem Twins.completed {p p' : Row k × Store} (h : Twins f owner drawn n p p') (users : List (Row .user))
    (husers : k = .group → ∀ u ∈ users, u ∈ p.2.owned .user owner) (status : Option Bool) (clock : Nat)
    {members members' : Store → (k : Kind) → Row k → Store}
    (hmembers : ∀ {q q' : Row k × Store}, Twins f owner drawn n q q' →
      (k = .group → ∀ u ∈ users, u ∈ q.2.owned .user owner) →
      Twins f owner drawn n (q.1, members q.2 k q.1) (q'.1, members' q'.2 k q'.1)) :
    Alike (Twins f owner drawn n) (p.2.completed clock p.1 status members)
      (p'.2.completed clock p'.1 status members') := by
  obtain ⟨hstores, hmem, hrow⟩ := h
  rw [Store.completed, Store.completed, hrow]
  refine (hstores.settled hmem status clock).map fun q q' hq htwins => hmembers htwins fun hk => ?_
  have hw : p.2.Rewrites p.1 q.1 q.2 := .of_settled (mem_rows_of_owned hmem) hq
  subst hk
  rw [(hw.writes hmem).owned_other (by decide : Kind.user ≠ .group)]
  exact husers rfl

theorem mem_owned_of_newUsers {c : Config} (hc : c.IsStandard) {payload : Json} {users : List (Row .user)}
    (husers : s.newUsers c owner k payload = .ok users) : ∀ u ∈ users, u ∈ s.owned .user owner := by
  cases k with
  | user =>
    cases husers
    exact fun _ hu => absurd hu List.not_mem_nil
  | group =>
    rw [Store.newUsers.eq_def] at husers
    generalize payload.fieldOrNull "members" = members at husers
    cases members
    case null =>
      cases husers
      exact fun _ hu => absurd hu List.not_mem_nil
    all_goals exact mem_owned_of_listed hc husers

theorem mem_owned_of_replacedUsers {c : Config} (hc : c.IsStandard) {payload : Json} {users : List (Row .user)}
    (husers : s.replacedUsers c owner k payload = .ok users) : ∀ u ∈ users, u ∈ s.owned .user owner := by
  cases k with
  | user =>
    cases husers
    exact fun _ hu => absurd hu List.not_mem_nil
  | group => exact mem_owned_of_listed hc husers

namespace Mirrors

/-- A row is overwritten or inserted in both stores. A new row may have another number in each of them, those of
other rows are not touched. -/
theorem upserted (h : Mirrors f owner drawn (n + 1) s s') {attributes : Schema.Values}
    (hprofile : ProfileOnly k attributes) {existing : Option (Row k)}
    (hexisting : ∀ found, existing = some found → found ∈ s.owned k owner) (clock : Nat) :
    ∃ f', (∀ u ∈ s.owned .user owner, u.renumber f' = u.renumber f) ∧
      Alike (Twins f' owner (drawn + existing.isNone.toNat) n)
        (s.upserted clock owner (Uuid.numbered (drawn + 1)) existing attributes)
        (s'.upserted clock owner (Uuid.numbered (drawn + 1)) (existing.map (Row.renumber f)) attributes) := by
  cases existing with
  | some found =>
    have hfewer : Mirrors f owner drawn n s s' := h.mono (Nat.le_refl _) (Nat.le_succ n)
    exact ⟨f, fun _ _ => rfl, hfewer.update (hexisting found rfl) hprofile clock⟩
  | none =>
    obtain ⟨values, hvalues, hall⟩ := exists_columns_eq_ok hprofile
    refine ⟨extended f k (s.table k).nextId (s'.table k).nextId, fun u hu => ?_, ?_⟩
    · have hlt := (h.left.nextId_eq k).1
      rw [Row.renumber, Row.renumber, extended_of_ne]
      rintro rfl
      exact Int.ne_of_lt (hlt u (mem_rows_of_owned hu))
    · rw [Option.map_none, Store.upserted, Store.upserted, hvalues, ok_bind]
      exact h.insert hall clock

section Standard

variable {ctx : Context} (hc : ctx.config.IsStandard)

include hc

theorem created (h : Mirrors f owner drawn (n + 1) s s') (k : Kind) (payload : Json) :
    ∃ f', Alike (Twins f' owner (drawn + s.drawnFor ctx.config owner k payload) n)
      (s.created ctx owner k (Uuid.numbered (drawn + 1)) payload)
      (s'.created ctx owner k (Uuid.numbered (drawn + 1)) payload) := by
  rw [Store.created, Store.created, h.creation hc, drawnFor]
  cases hcreation : s.creation ctx.config owner k payload with
  | error e => exact ⟨f, .error e⟩
  | ok p =>
    obtain ⟨hcomplete, -, hnew, -, key, -, hfind⟩ := creation_eq_ok.1 hcreation
    have hprofile := hc.profileOnly_complete hcomplete
    have hexisting : ∀ found, p.existing = some found → found ∈ s.owned k owner := by
      intro found hfound
      rw [hfound] at hfind
      exact mem_owned_of_findBy hfind
    have husers := mem_owned_of_newUsers hc hnew
    obtain ⟨f', hsame, hupserted⟩ := h.upserted hprofile hexisting ctx.clock
    have hrenumbered : p.users.map (Row.renumber f) = p.users.map (Row.renumber f') :=
      List.map_congr_left fun u hu => (hsame u (husers u hu)).symm
    refine ⟨f', hupserted.bind fun q q' hq htwins => ?_⟩
    rw [Creation.renumber, hrenumbered]
    apply htwins.completed p.users _ p.status ctx.clock fun htwins husers =>
      htwins.withNewMembers husers ctx.clock
    rintro rfl
    rw [(writes_of_upserted hprofile hexisting hq).owned_other (by decide : Kind.user ≠ .group)]
    exact husers

theorem replaced (h : Mirrors f owner drawn n s s') (k : Kind) (identifier payload : Json) :
    Alike (Twins f owner drawn n) (s.replaced ctx owner k identifier payload)
      (s'.replaced ctx owner k identifier payload) := by
  rw [Store.replaced, Store.replaced, h.get hc]
  cases hget : s.get ctx.config k owner identifier with
  | error e => exact .error e
  | ok r =>
    have hr := mem_owned_of_get hc hget
    simp only [Except.map, ok_bind]
    rw [h.replacedUsers hc]
    cases husers : s.replacedUsers ctx.config owner k payload with
    | error e => exact .error e
    | ok users =>
      simp only [Except.map, ok_bind]
      cases (parseActive (payload.fieldOrNull "active")).mapError Failure.refused with
      | error e => exact .error e
      | ok status =>
        rw [ok_bind, ok_bind]
        cases hcomplete : (ctx.config.resource k).complete payload with
        | error e => exact .error _
        | ok attributes =>
          have hprofile := hc.profileOnly_complete hcomplete
          simp only [Except.mapError, ok_bind]
          rw [h.checkKey hc hr]
          cases s.checkKey ctx.config owner r attributes with
          | error e => exact .error e
          | ok u =>
            rw [ok_bind, ok_bind]
            refine (h.update hr hprofile ctx.clock).bind fun q q' hq htwins => ?_
            apply htwins.completed users _ status ctx.clock fun htwins husers =>
              htwins.withMembers husers ctx.clock
            rintro rfl
            have hw : s.Rewrites r q.1 q.2 := .of_update (mem_rows_of_owned hr) hprofile hq
            rw [(hw.writes hr).owned_other (by decide : Kind.user ≠ .group)]
            exact mem_owned_of_replacedUsers hc husers

/-! ## Operations of PATCH requests -/

theorem written (h : Mirrors f owner drawn n s s') {r : Row k} (hr : r ∈ s.owned k owner)
    {attributes : Schema.Values} (ha : ProfileOnly k attributes) :
    Alike (Twins f owner drawn n) (s.written ctx owner r attributes)
      (s'.written ctx owner (r.renumber f) attributes) := by
  rw [Store.written, Store.written]
  split
  · exact .ok ⟨h, hr, rfl⟩
  · rw [h.checkKey hc hr]
    cases s.checkKey ctx.config owner r attributes with
    | error e => exact .error e
    | ok u => exact h.update hr ha ctx.clock

theorem replaceAttributes (h : Mirrors f owner drawn n s s') {r : Row k} (hr : r ∈ s.owned k owner)
    (o : PatchOperation) :
    Alike (Twins f owner drawn n) (effect (replaceAttributes ctx owner r o) s)
      (effect (replaceAttributes ctx owner (r.renumber f) o) s') := by
  rw [effect_replaceAttributes, effect_replaceAttributes, hc.mutableSchema]
  cases o.document ctx.config.room (Schema.writable k) with
  | error e => exact .error e
  | ok document =>
    dsimp only [Except.bind]
    split
    · cases PatchOperation.status ctx.config.room document with
      | error e => exact .error e
      | ok status =>
        refine (h.written hc hr (profileOnly_extractPresent k document)).bind fun p p' _ htwins => ?_
        obtain ⟨hstores, hmem, hrow⟩ := htwins
        rw [hrow]
        exact hstores.settled hmem status ctx.clock
    · exact .error _

private theorem addListed (h : Mirrors f owner drawn n s s') {g : Row .group} (hg : g ∈ s.owned .group owner)
    (o : PatchOperation) :
    Alike (fun p p' => Twins f owner drawn n (g, p.2) (g.renumber f, p'.2)) (effect (addListed ctx owner g o) s)
      (effect (addListed ctx owner (g.renumber f) o) s') := by
  rw [effect_addListed, effect_addListed]
  split
  · exact .error _
  · rw [h.listed hc]
    cases husers : s.listed ctx.config owner o.addedMembers Members.patchExpectation with
    | error e => exact .error e
    | ok users =>
      refine .ok ⟨h.addMembers hg (mem_owned_of_listed hc husers) ctx.clock, ?_, rfl⟩
      rw [owned_addMembers]
      exact hg

private theorem removeListed (h : Mirrors f owner drawn n s s') {g : Row .group} (hg : g ∈ s.owned .group owner)
    (o : PatchOperation) :
    Alike (fun p p' => Twins f owner drawn n (g, p.2) (g.renumber f, p'.2)) (effect (removeListed ctx owner g o) s)
      (effect (removeListed ctx owner (g.renumber f) o) s') := by
  have hs := h.left.tenantLocal
  have hremove {users : List (Row .user)} (husers : ∀ u ∈ users, u ∈ s.owned .user owner) :
      Alike (fun p p' : Unit × Store => Twins f owner drawn n (g, p.2) (g.renumber f, p'.2))
        ((s.removeMembers g users).map fun s => ((), s))
        ((s'.removeMembers (g.renumber f) (users.map (Row.renumber f))).map fun s => ((), s)) := by
    rw [removeMembers, removeMembers, List.length_map]
    split
    · exact .ok ⟨h.withoutMembers hg husers, (s.owned_memberships _ .group owner).symm ▸ hg, rfl⟩
    · exact .error _
  rw [effect_removeListed, effect_removeListed]
  split
  · cases o.value with
    | none => exact .ok ⟨h.clearMembers hg, (s.owned_memberships _ .group owner).symm ▸ hg, rfl⟩
    | some members =>
      dsimp only
      cases (Members.identifiers members Members.patchExpectation).mapError Failure.refused with
      | error e => exact .error e
      | ok identifiers =>
        dsimp only [Except.bind]
        rw [h.resolveMembers hc hs hg]
        cases husers : s.resolveMembers ctx.config g identifiers with
        | error e => exact .error e
        | ok users =>
          refine hremove fun u hu => ?_
          rw [s.resolveMembers_eq hc] at husers
          obtain ⟨j, -, hnamed⟩ := exists_of_mem_mapM husers hu
          exact hs.mem_owned_of_mem_membersOf hg (mem_of_named hnamed).1
  · cases hfilter : memberFilter ctx.config o.path with
    | error e => exact .error _
    | ok e =>
      have hcolumn : e.column ≠ "id" := by
        rw [column_of_memberFilter hc hfilter]
        decide
      dsimp only [Except.mapError, Except.bind]
      rw [h.matchingMembers hs hg hcolumn]
      cases husers : s.matchingMembers owner g e with
      | error e => exact .error e
      | ok users =>
        refine hremove fun u hu => ?_
        obtain ⟨page, hpage, e⟩ := bind_eq_ok.1 husers
        cases e
        exact mem_owned_of_query hpage u (List.mem_filter.1 hu).1

private theorem replaceInGroup (h : Mirrors f owner drawn n s s') {g : Row .group} (hg : g ∈ s.owned .group owner)
    (o : PatchOperation) :
    Alike (Twins f owner drawn n) (effect (replaceInGroup ctx owner g o) s)
      (effect (replaceInGroup ctx owner (g.renumber f) o) s') := by
  rw [effect_replaceInGroup, effect_replaceInGroup]
  split
  · rw [h.listed hc]
    cases husers : s.listed ctx.config owner o.valueOrNull Members.patchExpectation with
    | error e => exact .error e
    | ok users =>
      have htwins : Twins f owner drawn n (g, s) (g.renumber f, s') := ⟨h, hg, rfl⟩
      exact .ok (htwins.withMembers (fun _ => mem_owned_of_listed hc husers) ctx.clock)
  · exact h.replaceAttributes hc hg o

theorem applyOperation (h : Mirrors f owner drawn n s s') {r : Row k} (hr : r ∈ s.owned k owner)
    (o : PatchOperation) :
    Alike (Twins f owner drawn n) (effect (applyOperation ctx owner k r o) s)
      (effect (applyOperation ctx owner k (r.renumber f) o) s') := by
  have hreturn {g g' : Row .group} {x x' : Step Unit} (hx : Local x) (hx' : Local x')
      (hlike : Alike (fun p p' => Twins f owner drawn n (g, p.2) (g', p'.2)) (effect x s) (effect x' s')) :
      Alike (Twins f owner drawn n) (effect (do x; return g) s) (effect (do x'; return g') s') := by
    rw [effect_bind _ hx fun _ => local_pure g, effect_bind _ hx' fun _ => local_pure g']
    exact hlike.bind fun p p' _ htwins => .ok htwins
  cases k with
  | user =>
    rw [Roster.applyOperation, Roster.applyOperation]
    split
    · exact h.replaceAttributes hc hr o
    · exact .error _
  | group =>
    rw [Roster.applyOperation, Roster.applyOperation]
    split
    · exact h.replaceInGroup hc hr o
    · split
      · exact hreturn (local_addListed ctx owner r o) (local_addListed ctx owner _ o) (h.addListed hc hr o)
      · split
        · exact hreturn (local_removeListed ctx owner r o) (local_removeListed ctx owner _ o) (h.removeListed hc hr o)
        · exact .error _

/-- Operations go on alike, and those that are refused leave stores that agree. -/
theorem patched (h : Mirrors f owner drawn n s s') {r : Row k} (hr : r ∈ s.owned k owner)
    (operations : List PatchOperation) :
    Mirrors f owner drawn n (s.patched ctx owner r operations).2
        (s'.patched ctx owner (r.renumber f) operations).2 ∧
      Alike (fun q q' => q ∈ (s.patched ctx owner r operations).2.owned k owner ∧ q' = q.renumber f)
        (s.patched ctx owner r operations).1 (s'.patched ctx owner (r.renumber f) operations).1 := by
  induction operations generalizing s s' r with
  | nil => exact ⟨h, .ok ⟨hr, rfl⟩⟩
  | cons o rest ih =>
    have hstep := h.applyOperation hc hr o
    rw [Store.patched, Store.patched]
    generalize effect (Roster.applyOperation ctx owner k r o) s = x at hstep ⊢
    generalize effect (Roster.applyOperation ctx owner k (r.renumber f) o) s' = x' at hstep ⊢
    cases hstep with
    | error e => exact ⟨h, .error e⟩
    | ok htwins =>
      obtain ⟨hstores, hmem, hrow⟩ := htwins
      dsimp only
      rw [hrow]
      exact ih hstores hmem

end Standard

end Mirrors

end Store

/-! ## Requests and runs -/

/-- How many rows a request may add. -/
def Request.additions : Request → Nat
  | .create _ _ => 1
  | _ => 0

namespace Directory

variable {d d' : Directory}

/-- Two directories that are about to draw the same identifiers hold stores that agree on a company and admit some
new rows of it. -/
structure Mirrors (owner : Company) (n : Nat) (d d' : Directory) : Prop where
  drawn : d'.drawn = d.drawn
  stores : ∃ f, d.store.Mirrors f owner d.drawn n d'.store

theorem Mirrors.mono {n' : Nat} (h : Mirrors owner n d d') (hn : n' ≤ n) : Mirrors owner n' d d' := by
  obtain ⟨hdrawn, f, hstores⟩ := h
  exact ⟨hdrawn, f, hstores.mono (Nat.le_refl _) hn⟩

private theorem changed_mirrors (h : Mirrors owner n d d') {x x' : Except Failure (Row k × Store)}
    (hx : Alike (Store.Twins f owner d.drawn n) x x') :
    (d'.changed x').1 = (d.changed x).1 ∧ Mirrors owner n (d.changed x).2 (d'.changed x').2 := by
  cases hx with
  | error e => exact ⟨rfl, h⟩
  | ok htwins => exact ⟨congrArg Except.ok htwins.document, h.drawn, f, htwins.stores⟩

section Standard

variable {ctx : Context} (hc : ctx.config.IsStandard)

include hc

private theorem patched_mirrors (h : Mirrors owner n d d') (k : Kind) (identifier : Json)
    (operations : List PatchOperation) :
    (d'.patched ctx owner k identifier operations).1 = (d.patched ctx owner k identifier operations).1 ∧
      Mirrors owner n (d.patched ctx owner k identifier operations).2
        (d'.patched ctx owner k identifier operations).2 := by
  obtain ⟨hdrawn, f, hstores⟩ := h
  rw [Directory.patched, Directory.patched, hstores.get hc]
  cases hget : d.store.get ctx.config k owner identifier with
  | error e => exact ⟨rfl, hdrawn, f, hstores⟩
  | ok r =>
    obtain ⟨hleft, hlike⟩ := hstores.patched hc (Store.mem_owned_of_get hc hget) operations
    dsimp only [Except.map]
    generalize d.store.patched ctx owner r operations = q at hleft hlike ⊢
    generalize d'.store.patched ctx owner (r.renumber f) operations = q' at hleft hlike ⊢
    obtain ⟨result, left⟩ := q
    obtain ⟨result', left'⟩ := q'
    dsimp only at hleft hlike ⊢
    cases hlike with
    | error e =>
      refine ⟨rfl, hdrawn, f, ?_⟩
      dsimp only
      split
      · exact hleft
      · exact hstores
    | ok hrow =>
      obtain ⟨hmem, rfl⟩ := hrow
      exact ⟨congrArg Except.ok (hleft.document hleft.left.tenantLocal hmem), hdrawn, f, hleft⟩

private theorem answer_mirrors (pager : Pager) (request : Request)
    (h : Mirrors owner (n + request.additions) d d') :
    (d'.answer ctx owner pager request).1 = (d.answer ctx owner pager request).1 ∧
      Mirrors owner n (d.answer ctx owner pager request).2 (d'.answer ctx owner pager request).2 := by
  obtain ⟨hdrawn, f, hstores⟩ := h
  cases request with
  | list k filter start count =>
    exact ⟨hstores.listing hstores.left.tenantLocal hc pager k filter start count, hdrawn, f, hstores⟩
  | «show» k identifier =>
    refine ⟨?_, hdrawn, f, hstores⟩
    dsimp only [Directory.answer]
    rw [hstores.get hc]
    cases hget : d.store.get ctx.config k owner identifier with
    | error e => rfl
    | ok r =>
      exact congrArg Except.ok (hstores.document hstores.left.tenantLocal (Store.mem_owned_of_get hc hget))
  | create k payload =>
    dsimp only [Directory.answer]
    obtain ⟨f', hcreated⟩ := hstores.created hc k payload
    rw [hstores.drawnFor hc, hdrawn]
    have hnext : Mirrors owner n { d with drawn := d.drawn + d.store.drawnFor ctx.config owner k payload }
        { d' with drawn := d.drawn + d.store.drawnFor ctx.config owner k payload } :=
      ⟨rfl, f, hstores.mono (Nat.le_add_right _ _) (Nat.le_succ n)⟩
    exact changed_mirrors hnext hcreated
  | replace k identifier payload =>
    exact changed_mirrors ⟨hdrawn, f, hstores⟩ (hstores.replaced hc k identifier payload)
  | patch k identifier operations => exact patched_mirrors hc ⟨hdrawn, f, hstores⟩ k identifier operations
  | delete k identifier =>
    dsimp only [Directory.answer]
    rw [Store.deleted, Store.deleted, hstores.get hc]
    cases hget : d.store.get ctx.config k owner identifier with
    | error e => exact ⟨rfl, hdrawn, f, hstores⟩
    | ok r => exact ⟨rfl, hdrawn, f, hstores.erase (Store.mem_owned_of_get hc hget)⟩

/-- A request is answered alike by both directories, and they still agree. -/
theorem perform_mirrors (request : Request) (h : Mirrors owner (n + request.additions) d d') :
    (d'.perform ctx owner request).result = (d.perform ctx owner request).result ∧
      Mirrors owner n (d.perform ctx owner request).directory (d'.perform ctx owner request).directory := by
  rcases perform_cases hc d owner request with ⟨e, he, hresult, hleft⟩ | ⟨pager, hpager, hresult, hleft⟩
  · rcases perform_cases hc d' owner request with ⟨e', he', hresult', hleft'⟩ | ⟨_, hpager', _, _⟩
    · rw [he] at he'
      cases he'
      rw [hresult, hresult', hleft, hleft']
      exact ⟨rfl, h.mono (Nat.le_add_right _ _)⟩
    · rw [he] at hpager'
      cases hpager'
  · rcases perform_cases hc d' owner request with ⟨_, he', _, _⟩ | ⟨pager', hpager', hresult', hleft'⟩
    · rw [hpager] at he'
      cases he'
    · rw [hpager] at hpager'
      cases hpager'
      rw [hresult, hresult', hleft, hleft']
      exact answer_mirrors hc pager request h

end Standard

end Directory

end Roster
