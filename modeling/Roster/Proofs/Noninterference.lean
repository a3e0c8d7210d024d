import Roster.Proofs.Frame
import Roster.Proofs.MirroredRequests
import Roster.Proofs.Runs
import Roster.Proofs.Sample
import Roster.Web.Exchange

/-!
Companies that know nothing of each other.

Whatever requests a company sends, it cannot tell two directories that agree on it from each other, and they go on
to agree: no answer depends on what other companies store. This holds of requests on resources and of the web
requests that carry them.
-/

set_option autoImplicit false

namespace Roster

variable {k : Kind} {owner : Company} {n : Nat}

/-! ## Runs of requests -/

/-- How many rows calls may add. -/
def additions : List Call → Nat
  | [] => 0
  | call :: rest => additions rest + call.request.additions

private theorem results_mirrors {c : Config} (hc : c.IsStandard) {calls : List Call}
    (howner : ∀ call ∈ calls, call.owner = owner) {d d' : Directory}
    (h : Directory.Mirrors owner (additions calls) d d') :
    d'.results c calls = d.results c calls ∧ Directory.Mirrors owner 0 (d.after c calls) (d'.after c calls) := by
  induction calls generalizing d d' with
  | nil => exact ⟨rfl, h⟩
  | cons call rest ih =>
    rw [additions] at h
    obtain ⟨clock, owner', request⟩ := call
    have howner' : owner' = owner := howner _ List.mem_cons_self
    subst howner'
    have hc' : (Context.mk c clock).config.IsStandard := hc
    obtain ⟨hresult, hleft⟩ := Directory.perform_mirrors hc' request h
    obtain ⟨hresults, hafter⟩ := ih (fun call hcall => howner call (List.mem_cons_of_mem _ hcall)) hleft
    refine ⟨?_, hafter⟩
    rw [Directory.results, Directory.results, hresult]
    exact congrArg (List.cons _) hresults

/-! ## Web requests -/

/-- How many rows a web request may add. -/
def WebRequest.additions (r : WebRequest) : Nat :=
  if Method.ofName? r.method = some .post then 1 else 0

/-- The credentials of a web request are those of a company of the directory. -/
def WebRequest.IsFrom (r : WebRequest) (owner : Company) (d : Directory) : Prop :=
  r.authenticate (.ready d) = .ok (d, owner)

/-- Credentials are checked against the companies alone. -/
theorem WebRequest.IsFrom.of_companies {r : WebRequest} {d d' : Directory} (h : r.IsFrom owner d)
    (hcompanies : d'.store.companies = d.store.companies) : r.IsFrom owner d' := by
  have hsame (name password : String) : d'.store.authenticate? name password = d.store.authenticate? name password := by
    rw [Store.authenticate?, Store.company?, hcompanies]
    rfl
  unfold IsFrom authenticate at h ⊢
  generalize Credentials.ofHeader r.authorization = credentials at h ⊢
  cases credentials with
  | missing => cases h
  | unreadable => cases h
  | basic name password =>
    dsimp only at h ⊢
    rw [hsame]
    cases hauth : d.store.authenticate? name password with
    | none =>
      rw [hauth] at h
      cases h
    | some owner' =>
      rw [hauth] at h
      cases h
      rfl

/-- A search finds a route that answers the method that is asked for. -/
private theorem answers_of_search {method : Option Method} {path : List Char} {sections : List Section} {route : Route}
    {m : Method} (h : Destination.search method path sections = some (.found route m)) :
    method = some m ∧ route.allows m = true := by
  induction sections with
  | nil => cases h
  | cons first rest ih =>
    cases first with
    | none => cases h
    | some endpoints =>
      rw [Destination.search] at h
      split at h
      next found =>
        cases h
        obtain ⟨m', hm, hroute⟩ := Option.bind_eq_some_iff.1 found
        obtain ⟨_, hfind, e⟩ := Option.map_eq_some_iff.1 hroute
        cases e
        have hallows := List.find?_some hfind
        exact ⟨hm, hallows⟩
      next => exact ih h

theorem Destination.answers_of_found {method : Option Method} {path : List Char} {sections : List Section}
    {route : Route} {m : Method} (h : Destination.of sections method path = .found route m) :
    method = some m ∧ route.allows m = true := by
  rw [Destination.of] at h
  split at h
  next hsearch =>
    rw [h] at hsearch
    exact answers_of_search hsearch
  next =>
    split at h
    · cases h
    · split at h <;> cases h

/-- Rows are added by requests of one method only. -/
private theorem additions_of_request? {r : WebRequest} {content : Content} {route : Route} {m : Method}
    (hm : Method.ofName? r.method = some m) {request : Request} (h : r.request? content route m = some request) :
    request.additions ≤ r.additions := by
  unfold WebRequest.request? at h
  split at h
  · cases h
    exact Nat.zero_le _
  · obtain ⟨payload, -, rfl⟩ := Option.map_eq_some_iff.1 h
    rw [WebRequest.additions, if_pos hm]
    exact Nat.le_refl 1
  · obtain ⟨id, -, h⟩ := Option.bind_eq_some_iff.1 h
    split at h
    · cases h
      exact Nat.zero_le _
    · obtain ⟨payload, -, h⟩ := Option.bind_eq_some_iff.1 h
      cases h
      exact Nat.zero_le _
    · obtain ⟨operations, -, h⟩ := Option.bind_eq_some_iff.1 h
      cases h
      exact Nat.zero_le _
    · cases h
      exact Nat.zero_le _
    · cases h
  · cases h

namespace Site

/-- What is left of an exchange with two directories that agree on a company: the answers are the same, and the
directories agree again. -/
def Matches (owner : Company) (n : Nat) (d : Directory) (x x' : Exchange) : Prop :=
  x'.answer = x.answer ∧ ∃ e e', x.storage = .ready e ∧ x'.storage = .ready e' ∧
    e.store.companies = d.store.companies ∧ Directory.Mirrors owner n e e'

variable {site : Site} (hc : site.config.IsStandard) (clock : Nat) {r : WebRequest} {d d' : Directory}

include hc

private theorem serve_mirrors (hr : r.IsFrom owner d) (h : Directory.Mirrors owner (n + r.additions) d d')
    (route : Route) (k : Kind) {m : Method} (hm : Method.ofName? r.method = some m) :
    Matches owner n d (site.serve clock (.ready d) r route k m) (site.serve clock (.ready d') r route k m) := by
  have hr' : r.IsFrom owner d' := by
    obtain ⟨-, f, hstores⟩ := h
    exact hr.of_companies hstores.companies
  have hfewer : Directory.Mirrors owner n d d' := h.mono (Nat.le_add_right _ _)
  rw [WebRequest.IsFrom] at hr hr'
  unfold Site.serve
  cases r.content m with
  | error answer => exact ⟨rfl, d, d', rfl, rfl, rfl, hfewer⟩
  | ok content =>
    rw [ok_bind, ok_bind, hr, hr', ok_bind, ok_bind]
    cases site.config.serve k with
    | error cause => exact ⟨rfl, d, d', rfl, rfl, rfl, hfewer⟩
    | ok pager =>
      cases hrequest : r.request? content route m with
      | none => exact ⟨rfl, d, d', rfl, rfl, rfl, hfewer⟩
      | some request =>
        have hadditions := additions_of_request? hm hrequest
        have hmirrors : Directory.Mirrors owner (n + request.additions) d d' :=
          h.mono (Nat.add_le_add_left hadditions n)
        have hc' : (Context.mk site.config clock).config.IsStandard := hc
        obtain ⟨hresult, hleft⟩ := Directory.perform_mirrors hc' request hmirrors
        exact ⟨congrArg request.answer hresult, _, _, rfl, rfl, Directory.companies_perform hc' d owner request, hleft⟩

private theorem handle_mirrors (hr : r.IsFrom owner d) (h : Directory.Mirrors owner (n + r.additions) d d') :
    Matches owner n d (site.handle clock (.ready d) r) (site.handle clock (.ready d') r) := by
  have hfewer : Directory.Mirrors owner n d d' := h.mono (Nat.le_add_right _ _)
  have hanswer : Matches owner n d (site.answer clock (.ready d) r (Method.ofName? r.method))
      (site.answer clock (.ready d') r (Method.ofName? r.method)) := by
    unfold Site.answer
    split
    · exact ⟨rfl, d, d', rfl, rfl, rfl, hfewer⟩
    · exact ⟨rfl, d, d', rfl, rfl, rfl, hfewer⟩
    · exact ⟨rfl, d, d', rfl, rfl, rfl, hfewer⟩
    · exact ⟨rfl, d, d', rfl, rfl, rfl, hfewer⟩
    next hfound =>
      have hm := (Destination.answers_of_found hfound).1
      split
      · exact serve_mirrors hc clock hr h _ _ hm
      · exact serve_mirrors hc clock hr h _ _ hm
      · exact ⟨rfl, d, d', rfl, rfl, rfl, hfewer⟩
  obtain ⟨hsame, hleft⟩ := hanswer
  unfold Site.handle
  dsimp only
  split
  · exact ⟨congrArg (fun a : Answer => { a with body := none }) hsame, hleft⟩
  · exact ⟨hsame, hleft⟩

end Site

/-- The answers to web requests, each at its own time, one after the other. -/
def Site.answers (site : Site) : Storage → List (Nat × WebRequest) → List Answer
  | _, [] => []
  | storage, (clock, r) :: rest =>
    (site.handle clock storage r).answer :: site.answers (site.handle clock storage r).storage rest

/-- What web requests leave. -/
def Site.after (site : Site) (storage : Storage) (requests : List (Nat × WebRequest)) : Storage :=
  requests.foldl (fun storage x => (site.handle x.1 storage x.2).storage) storage

/-- How many rows web requests may add. -/
def webAdditions : List (Nat × WebRequest) → Nat
  | [] => 0
  | (_, r) :: rest => webAdditions rest + r.additions

private theorem answers_mirrors {site : Site} (hc : site.config.IsStandard) {requests : List (Nat × WebRequest)}
    {d d' : Directory} (hfrom : ∀ x ∈ requests, x.2.IsFrom owner d)
    (h : Directory.Mirrors owner (webAdditions requests) d d') :
    site.answers (.ready d') requests = site.answers (.ready d) requests ∧
      ∃ e e', site.after (.ready d) requests = .ready e ∧ site.after (.ready d') requests = .ready e' ∧
        Directory.Mirrors owner 0 e e' := by
  induction requests generalizing d d' with
  | nil => exact ⟨rfl, d, d', rfl, rfl, h⟩
  | cons x rest ih =>
    obtain ⟨clock, r⟩ := x
    rw [webAdditions] at h
    obtain ⟨hanswer, e, e', hleft, hleft', hcompanies, hmirrors⟩ :=
      Site.handle_mirrors hc clock (hfrom _ List.mem_cons_self) h
    have hrest : ∀ x ∈ rest, x.2.IsFrom owner e :=
      fun x hx => (hfrom x (List.mem_cons_of_mem _ hx)).of_companies hcompanies
    obtain ⟨hanswers, hafter⟩ := ih hrest hmirrors
    refine ⟨?_, ?_⟩
    · rw [Site.answers, Site.answers, hanswer, hleft, hleft']
      exact congrArg (List.cons _) hanswers
    · rw [Site.after, Site.after, List.foldl_cons, List.foldl_cons, hleft, hleft']
      exact hafter

/-- Two directories that agree on a company answer all its requests alike and agree on it afterwards, whatever
they store of other companies. -/
theorem agreeing_directories_answer_alike {s : Settings} {c : Config} (hb : Config.build s = .ok c)
    (hs : s.customUserAttributes = []) {owner : Company} {d d' : Directory} (hdrawn : d'.drawn = d.drawn)
    (hagree : Store.AgreeOn owner d.store d'.store) :
    (∀ calls : List Call, (∀ call ∈ calls, call.owner = owner) →
      d.store.Admits owner d.drawn (additions calls) → d'.store.Admits owner d.drawn (additions calls) →
        d'.results c calls = d.results c calls ∧
          Store.AgreeOn owner (d.after c calls).store (d'.after c calls).store) ∧
    ∀ (site : Site) (requests : List (Nat × WebRequest)), site.config = c → (∀ x ∈ requests, x.2.IsFrom owner d) →
      d.store.Admits owner d.drawn (webAdditions requests) → d'.store.Admits owner d.drawn (webAdditions requests) →
        site.answers (.ready d') requests = site.answers (.ready d) requests ∧
          ∃ e e', site.after (.ready d) requests = .ready e ∧ site.after (.ready d') requests = .ready e' ∧
            Store.AgreeOn owner e.store e'.store := by
  have hc := Config.isStandard_of_build hb hs
  obtain ⟨f, hrenumbers⟩ := hagree
  constructor
  · intro calls howner hadmits hadmits'
    obtain ⟨hresults, -, f', hstores⟩ := results_mirrors hc howner ⟨hdrawn, f, hrenumbers, hadmits, hadmits'⟩
    exact ⟨hresults, f', hstores.toRenumbers⟩
  · rintro site requests rfl hfrom hadmits hadmits'
    obtain ⟨hanswers, e, e', hleft, hleft', -, f', hstores⟩ :=
      answers_mirrors hc hfrom ⟨hdrawn, f, hrenumbers, hadmits, hadmits'⟩
    exact ⟨hanswers, e, e', hleft, hleft', f', hstores.toRenumbers⟩

/-- The small directory with another company's rows in front, so that all rows have other numbers. -/
private def elsewhere : Directory where
  store := {
    companies := [Sample.acme, Sample.other]
    users := ⟨[⟨1, "u9", .integer 2, .user "Zoe" "Low" "ada@acme.example" none, none, 0, 0⟩,
      { Sample.ada with id := 4 }, { Sample.bob with id := 6 }], by decide, by decide⟩
    groups := ⟨[⟨2, "g9", .integer 2, .group "Staff" "staff@other.example", none, 0, 0⟩,
      { Sample.staff with id := 3 }], by decide, by decide⟩
    memberships := [⟨2, 1, 0⟩, ⟨3, 4, 0⟩] }
  drawn := 3
  kept := []

private def shifted : Renumbering
  | .user, i => 2 * i + 2
  | .group, i => i + 2

private theorem agreeOn_elsewhere : Store.AgreeOn Sample.acme Sample.directory.store elsewhere.store := by
  refine ⟨shifted, rfl, ?_, ?_, ?_⟩
  · intro k a _ b _ hab
    cases k <;> dsimp only [shifted] <;> omega
  · intro k
    cases k <;> rfl
  · decide +kernel

/-- Drawn identifiers begin with a zero. -/
private theorem ne_numbered {uuid : String} (h : uuid.toList.head? ≠ some '0') (m : Nat) : uuid ≠ Uuid.numbered m := by
  have hprefix : "00000000-0000-4000-8000-".toList.head? = some '0' := by decide +kernel
  have htext : (Uuid.numbered m).toList = "00000000-0000-4000-8000-".toList ++ Number.padded 12 m := by
    unfold Uuid.numbered
    exact String.toList_ofList
  intro e
  apply h
  simp only [e, htext, List.head?_append, hprefix, Option.some_or]

private def arrival : Call :=
  ⟨6, Sample.acme, .create .user (.obj [
    ("name", .obj [("givenName", .str "Zoe"), ("familyName", .str "Low")]),
    ("emails", .arr [.obj [("value", .str "zoe@acme.example")]])])⟩

private def visits : List Call := [
  ⟨5, Sample.acme, .patch .group (.str "g1") [Sample.replaceMembers "u2"]⟩,
  arrival,
  ⟨7, Sample.acme, .list .user .null .null .null⟩]

private def webVisits : List (Nat × WebRequest) := [
  (5, { method := "GET", path := "/Groups/g1", query := [], authorization := some "Basic YWNtZTpzZWNyZXQ=",
        body := none }),
  (6, { method := "DELETE", path := "/Users/u2", query := [], authorization := some "Basic YWNtZTpzZWNyZXQ=",
        body := none })]

private theorem leavesFresh_of_head {s : Store} (owner : Company) (drawn : Nat)
    (huuids : ∀ k, ∀ r ∈ (s.table k).rows, r.uuid.toList.head? ≠ some '0') : s.LeavesFresh owner drawn :=
  fun k r hr _ m _ => ne_numbered (huuids k r hr) m

private theorem hasRoom_of_small {s : Store} (hids : ∀ k, ∀ r ∈ (s.table k).rows, r.id < 100) {n : Nat}
    (hn : n < 100) : s.HasRoom n := by
  refine ⟨?_, fun k r hr => ?_⟩
  · rw [Number.maxInt64]
    omega
  · have := hids k r hr
    rw [Number.maxInt64]
    omega

private theorem admits_sample {n : Nat} (hn : n < 100) : Sample.directory.store.Admits Sample.acme 3 n := by
  refine ⟨?_, leavesFresh_of_head Sample.acme 3 ?_, hasRoom_of_small ?_ hn⟩
  · unfold Store.TenantLocal
    decide +kernel
  · intro k
    cases k <;> decide +kernel
  · intro k
    cases k <;> decide +kernel

private theorem admits_elsewhere {n : Nat} (hn : n < 100) : elsewhere.store.Admits Sample.acme 3 n := by
  refine ⟨?_, leavesFresh_of_head Sample.acme 3 ?_, hasRoom_of_small ?_ hn⟩
  · unfold Store.TenantLocal
    decide +kernel
  · intro k
    cases k <;> decide +kernel
  · intro k
    cases k <;> decide +kernel

/-- The company cannot tell the small directory from the one where its rows have other numbers. -/
theorem agreeing_directories_answer_alike_sample :
    (elsewhere.results (Sample.config true) visits = Sample.directory.results (Sample.config true) visits ∧
      Store.AgreeOn Sample.acme (Sample.directory.after (Sample.config true) visits).store
        (elsewhere.after (Sample.config true) visits).store) ∧
    (Sample.site true).answers (.ready elsewhere) webVisits =
      (Sample.site true).answers (.ready Sample.directory) webVisits := by
  have hdrawn : elsewhere.drawn = Sample.directory.drawn := rfl
  have hsame := agreeing_directories_answer_alike (Sample.build_config true) rfl hdrawn agreeOn_elsewhere
  have howner : ∀ call ∈ visits, call.owner = Sample.acme := by
    intro call hcall
    simp only [visits, List.mem_cons, List.not_mem_nil, or_false] at hcall
    rcases hcall with rfl | rfl | rfl <;> rfl
  have hfrom : ∀ x ∈ webVisits, x.2.IsFrom Sample.acme Sample.directory := by
    intro x hx
    simp only [webVisits, List.mem_cons, List.not_mem_nil, or_false] at hx
    rcases hx with rfl | rfl <;> rfl
  constructor
  · have hfew : additions visits < 100 := by decide
    exact hsame.1 visits howner (admits_sample hfew) (admits_elsewhere hfew)
  · have hfew : webAdditions webVisits < 100 := by decide +kernel
    exact (hsame.2 (Sample.site true) webVisits rfl hfrom (admits_sample hfew) (admits_elsewhere hfew)).1

/-! ## What the conditions are for -/

/-- No membership joins a group and a user of different companies. -/
def Store.NeverJoinsAcross (s : Store) : Prop :=
  ∀ m ∈ s.memberships, ∀ g ∈ s.groups.rows, ∀ u ∈ s.users.rows,
    g.id = m.group → u.id = m.user → g.company = u.company

private theorem agreeOn_of_eq {s s' : Store} {owner : Company} (hcompanies : s'.companies = s.companies)
    (hrows : ∀ k, s'.owned k owner = s.owned k owner) (hjoined : s'.joined owner = s.joined owner) :
    Store.AgreeOn owner s s' := by
  refine ⟨fun _ i => i, hcompanies, fun k a _ b _ hlt => hlt, fun k => ?_, ?_⟩
  · rw [hrows k]
    exact (List.map_id _).symm
  · rw [hjoined]
    exact (List.map_id _).symm

/-- The company's user has a number above those that are chosen once the greatest one is taken. -/
private def spacious : Directory where
  store := {
    companies := [Sample.acme, Sample.other]
    users := ⟨[Sample.eve, { Sample.ada with id := 4611686018427387909 }], by decide, by decide⟩
    groups := Table.empty
    memberships := [] }
  drawn := 3
  kept := []

/-- Here the other company's user has the greatest number. -/
private def exhausted : Directory where
  store := { spacious.store with
    users := ⟨[{ Sample.ada with id := 4611686018427387909 }, { Sample.eve with id := 9223372036854775807 }],
      by decide, by decide⟩ }
  drawn := 3
  kept := []

/-- The group's membership names the number that the next user gets. -/
private def dangling : Directory := ⟨{ Sample.store with memberships := [⟨1, 4, 0⟩] }, 3, []⟩

/-- Here the next user gets another number, since the other company has no user. -/
private def vacant : Directory :=
  ⟨{ dangling.store with users := ⟨[Sample.ada, Sample.bob], by decide, by decide⟩ }, 3, []⟩

/-- There have to be numbers left: else the number of a new row, and so its place among the company's rows, depends
on the rows of others. And a membership has to join rows that exist: else a new row may take the number it names. -/
theorem not_agreeing_directories_answer_alike :
    (¬∀ {s : Settings} {c : Config}, Config.build s = .ok c → s.customUserAttributes = [] →
      ∀ {owner : Company} {d d' : Directory}, d'.drawn = d.drawn → Store.AgreeOn owner d.store d'.store →
      d.store.TenantLocal → d'.store.TenantLocal →
      d.store.LeavesFresh owner d.drawn → d'.store.LeavesFresh owner d.drawn →
      ∀ calls : List Call, (∀ call ∈ calls, call.owner = owner) →
        d'.results c calls = d.results c calls ∧
          Store.AgreeOn owner (d.after c calls).store (d'.after c calls).store) ∧
    ¬∀ {s : Settings} {c : Config}, Config.build s = .ok c → s.customUserAttributes = [] →
      ∀ {owner : Company} {d d' : Directory}, d'.drawn = d.drawn → Store.AgreeOn owner d.store d'.store →
      d.store.NeverJoinsAcross → d'.store.NeverJoinsAcross →
      d.store.LeavesFresh owner d.drawn → d'.store.LeavesFresh owner d.drawn →
      ∀ calls : List Call, (∀ call ∈ calls, call.owner = owner) →
        d.store.HasRoom (additions calls) → d'.store.HasRoom (additions calls) →
        d'.results c calls = d.results c calls ∧
          Store.AgreeOn owner (d.after c calls).store (d'.after c calls).store := by
  have hfresh (d : Directory) (h : ∀ k, ∀ r ∈ (d.store.table k).rows, r.uuid.toList.head? ≠ some '0') :
      d.store.LeavesFresh Sample.acme 3 :=
    leavesFresh_of_head Sample.acme 3 h
  constructor
  · intro hresults
    have hagree : Store.AgreeOn Sample.acme spacious.store exhausted.store := by
      refine agreeOn_of_eq rfl (fun k => ?_) rfl
      cases k <;> decide +kernel
    have hlocal (d : Directory) (h : d.store.memberships = []) : d.store.TenantLocal := by
      intro m hm
      rw [h] at hm
      cases hm
    have hdrawn : exhausted.drawn = spacious.drawn := rfl
    obtain ⟨-, f, hafter⟩ := hresults (Sample.build_config true) rfl hdrawn hagree (hlocal spacious rfl)
      (hlocal exhausted rfl) (hfresh spacious fun k => by cases k <;> decide +kernel)
      (hfresh exhausted fun k => by cases k <;> decide +kernel) [arrival] (by decide +kernel)
    have hrows := congrArg (List.map Row.uuid) (hafter.rows .user)
    have huuid : Row.uuid ∘ Row.renumber f = (Row.uuid : Row .user → String) := rfl
    rw [List.map_map, huuid] at hrows
    exact absurd hrows (by decide +kernel)
  · intro hresults
    have hagree : Store.AgreeOn Sample.acme dangling.store vacant.store := by
      refine agreeOn_of_eq rfl (fun k => ?_) rfl
      cases k <;> decide +kernel
    have hroom (d : Directory) (h : ∀ k, ∀ r ∈ (d.store.table k).rows, r.id < 100) : d.store.HasRoom 1 :=
      hasRoom_of_small h (by decide)
    have hdrawn : vacant.drawn = dangling.drawn := rfl
    have hsame := hresults (Sample.build_config true) rfl hdrawn hagree
      (by unfold Store.NeverJoinsAcross; decide +kernel) (by unfold Store.NeverJoinsAcross; decide +kernel)
      (hfresh dangling fun k => by cases k <;> decide +kernel)
      (hfresh vacant fun k => by cases k <;> decide +kernel)
      [arrival, ⟨7, Sample.acme, .show .group (.str "g1")⟩] (by decide +kernel)
      (hroom dangling fun k => by cases k <;> decide +kernel) (hroom vacant fun k => by cases k <;> decide +kernel)
    exact absurd (congrArg (List.map Except.toOption) hsame.1) (by decide +kernel)

end Roster
