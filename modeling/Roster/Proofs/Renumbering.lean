import Roster.Proofs.NamedMembers
import Roster.Proofs.NaturalKeys
import Roster.Proofs.Requests
import Roster.Proofs.Tenancy

/-!
Stores that agree on a company.

Two stores agree on a company if its rows and the memberships of its groups are the same in both but for the
numbers of the rows, which may differ as long as their order does not. The company then finds the same rows in
both, whatever it looks for and whatever else they hold, and shows them by the same documents.
-/

set_option autoImplicit false

namespace Roster

variable {k : Kind}

/-- Other numbers for the rows of each kind. -/
abbrev Renumbering := Kind → Int → Int

def Row.renumber (f : Renumbering) (r : Row k) : Row k := { r with id := f k r.id }

/-- The number of the row of a kind that a membership joins. -/
def Membership.row (m : Membership) : Kind → Int
  | .user => m.user
  | .group => m.group

def Membership.renumber (f : Renumbering) (m : Membership) : Membership :=
  { m with group := f .group m.group, user := f .user m.user }

/-- Only the column of numbers tells a renumbered row. -/
theorem Row.get_renumber (f : Renumbering) (r : Row k) {c : Column k} (hc : c ≠ .id) :
    (r.renumber f).get c = r.get c := by
  obtain ⟨id, uuid, company, profile, archived, created, updated⟩ := r
  cases c
  case id => exact absurd rfl hc
  case email => cases profile <;> rfl
  all_goals rfl

theorem Row.userDocument_renumber (f : Renumbering) (u : Row .user) :
    (u.renumber f).userDocument = u.userDocument := by
  have hfirst := u.get_renumber f (c := .firstName) (by decide)
  have hlast := u.get_renumber f (c := .lastName) (by decide)
  have hemail := u.get_renumber f (c := .email) (by decide)
  rw [userDocument, userDocument, hfirst, hlast, hemail]
  rfl

theorem Row.groupDocument_renumber (f : Renumbering) (g : Row .group) (members : List (Row .user)) :
    (g.renumber f).groupDocument (members.map (Row.renumber f)) = g.groupDocument members := by
  have hmembers : (members.map (Row.renumber f)).map Row.memberDocument = members.map Row.memberDocument := by
    rw [List.map_map]
    rfl
  have hdisplay := g.get_renumber f (c := .displayName) (by decide)
  have hemail := g.get_renumber f (c := .email) (by decide)
  rw [groupDocument, groupDocument, hmembers, hdisplay, hemail]
  rfl

def Creation.renumber (f : Renumbering) (p : Creation k) : Creation k where
  attributes := p.attributes
  status := p.status
  users := p.users.map (Row.renumber f)
  existing := p.existing.map (Row.renumber f)

private theorem column_of_queryable {p : String × String} (hp : p ∈ Schema.queryable k) :
    ∃ x : Column k, x.name = p.2 ∧ x.isProfile = true := by
  have hall : (Schema.queryable k).all (fun p => (Column.ofName? k p.2).any Column.isProfile) = true := by
    cases k <;> decide
  obtain ⟨x, hx, hprofile⟩ := (Option.any_eq_true _ _).1 (List.all_eq_true.1 hall p hp)
  exact ⟨x, Column.name_of_ofName? hx, hprofile⟩

/-- Filters of lists are about the profiles of rows. -/
theorem Config.IsStandard.column_of_filterOf {c : Config} (hc : c.IsStandard) {filter : Json}
    {e : Filter.Expression} (he : Request.filterOf (c.resource k).queryable filter = .ok (some e)) :
    ∃ x : Column k, x.name = e.column ∧ x.isProfile = true := by
  obtain ⟨name, hname⟩ := mem_of_filterOf he
  rw [hc.queryable] at hname
  exact column_of_queryable hname

namespace Store

def Page.renumber (f : Renumbering) (page : Page k) : Page k := ⟨page.items.map (Row.renumber f), page.total⟩

/-- The memberships of the groups of a company. -/
def joined (s : Store) (owner : Company) : List Membership :=
  s.memberships.filter fun m => ((s.owned .group owner).map Row.id).contains m.group

/-- Two stores with the same companies hold the same rows and memberships of a company under other numbers, the
order of which is the same. -/
structure Renumbers (f : Renumbering) (owner : Company) (s s' : Store) : Prop where
  companies : s'.companies = s.companies
  increasing : ∀ k, ∀ a ∈ s.owned k owner, ∀ b ∈ s.owned k owner, a.id < b.id → f k a.id < f k b.id
  rows : ∀ k, s'.owned k owner = (s.owned k owner).map (Row.renumber f)
  memberships : s'.joined owner = (s.joined owner).map (Membership.renumber f)

/-- Two stores agree on a company, up to the numbers of rows. -/
def AgreeOn (owner : Company) (s s' : Store) : Prop :=
  ∃ f, Renumbers f owner s s'

variable {s s' : Store} {owner : Company} {f : Renumbering}

theorem mem_joined {m : Membership} :
    m ∈ s.joined owner ↔ m ∈ s.memberships ∧ ∃ g ∈ s.owned .group owner, g.id = m.group := by
  rw [joined, List.mem_filter, List.contains_iff_mem, List.mem_map]

/-- The groups of a company have their members by the memberships of its groups. -/
theorem filter_joined {g : Row .group} (hg : g ∈ s.owned .group owner) :
    (s.joined owner).filter (fun m => m.group == g.id) = s.memberships.filter fun m => m.group == g.id := by
  rw [joined, List.filter_filter]
  refine List.filter_congr fun m _ => ?_
  by_cases hm : m.group = g.id
  · have hcontains : ((s.owned .group owner).map Row.id).contains m.group = true := by
      rw [List.contains_iff_mem, hm]
      exact List.mem_map_of_mem hg
    rw [hcontains, Bool.and_true]
  · rw [beq_eq_false_iff_ne.2 hm, Bool.false_and]

theorem TenantLocal.exists_of_mem_joined (hs : s.TenantLocal) {m : Membership} (hm : m ∈ s.joined owner) :
    ∃ g ∈ s.owned .group owner, ∃ u ∈ s.owned .user owner, g.id = m.group ∧ u.id = m.user := by
  obtain ⟨hm, g, hg, hgroup⟩ := mem_joined.1 hm
  obtain ⟨hmem, hcompany⟩ := mem_owned.1 hg
  obtain ⟨u, hu, huser, hucompany⟩ := hs.company_of_mem hm hmem hgroup
  exact ⟨g, hg, u, mem_owned.2 ⟨hu, hucompany.trans hcompany⟩, hgroup, huser⟩

theorem TenantLocal.mem_owned_of_mem_membersOf (hs : s.TenantLocal) {g : Row .group}
    (hg : g ∈ s.owned .group owner) {u : Row .user} (hu : u ∈ s.membersOf g) : u ∈ s.owned .user owner := by
  obtain ⟨hu, hm⟩ := mem_membersOf.1 hu
  obtain ⟨hg, hcompany⟩ := mem_owned.1 hg
  obtain ⟨m, hm, hgroup, hid⟩ := mem_memberNumbers.1 hm
  obtain ⟨v, hv, huser, hvcompany⟩ := hs.company_of_mem hm hg hgroup.symm
  have hsame : v = u := Table.eq_of_id hv hu (huser.trans hid)
  rw [hsame] at hvcompany
  exact mem_owned.2 ⟨hu, hvcompany.trans hcompany⟩

theorem mem_owned_of_selected {filter : Option Filter.Expression} {rows : List (Row k)}
    (h : s.selected k owner filter = .ok rows) : ∀ r ∈ rows, r ∈ s.owned k owner := by
  intro r hr
  cases filter with
  | none =>
    cases h
    exact hr
  | some e =>
    obtain ⟨holds, -, h⟩ := bind_eq_ok.1 h
    dsimp only at h
    split at h
    · cases h
    · cases h
      exact (List.mem_filter.1 hr).1

theorem slice_map {α β : Type} (g : α → β) (offset : Int) (limit : Option Int) (items : List α) :
    slice offset limit (items.map g) = (slice offset limit items).map g := by
  cases limit with
  | none => exact List.map_drop.symm
  | some n =>
    rw [slice, slice]
    split
    · exact List.map_drop.symm
    · rw [← List.map_drop, List.map_take]

theorem mem_of_mem_slice {α : Type} {offset : Int} {limit : Option Int} {items : List α} {x : α}
    (hx : x ∈ slice offset limit items) : x ∈ items := by
  cases limit with
  | none => exact List.mem_of_mem_drop hx
  | some n =>
    rw [slice] at hx
    split at hx
    · exact List.mem_of_mem_drop hx
    · exact List.mem_of_mem_drop (List.mem_of_mem_take hx)

/-- A page shows rows of the company. -/
theorem mem_owned_of_query {filter : Option Filter.Expression} {order : List OrderBy} {offset : Int}
    {limit : Option Int} {page : Page k} (h : s.query k owner filter order offset limit = .ok page) :
    ∀ r ∈ page.items, r ∈ s.owned k owner := by
  intro r hr
  rw [query_eq] at h
  obtain ⟨found, hfound, h⟩ := bind_eq_ok.1 h
  obtain ⟨keys, -, h⟩ := bind_eq_ok.1 h
  split at h
  · cases h
  · split at h
    · cases h
      exact mem_owned_of_selected hfound r (List.mem_mergeSort.1 (mem_of_mem_slice hr))
    · cases h

namespace Renumbers

/-- Rows are kept in the order of their numbers, so that rows that are the same in both stores are numbered in
the same order. -/
theorem of_rows (companies : s'.companies = s.companies)
    (rows : ∀ k, s'.owned k owner = (s.owned k owner).map (Row.renumber f))
    (memberships : s'.joined owner = (s.joined owner).map (Membership.renumber f)) :
    Renumbers f owner s s' := by
  refine ⟨companies, ?_, rows, memberships⟩
  intro k a ha b hb
  have hordered := s.pairwise_owned k owner
  have hrenumbered : (s.owned k owner).Pairwise fun a b => f k a.id < f k b.id := by
    have hrows := s'.pairwise_owned k owner
    rw [rows, List.pairwise_map] at hrows
    exact hrows
  generalize s.owned k owner = owned at ha hb hordered hrenumbered
  induction hordered with
  | nil => cases ha
  | cons hlt _ ih =>
    obtain ⟨hfirst, hrest⟩ := List.pairwise_cons.1 hrenumbered
    intro hab
    rcases List.mem_cons.1 ha with rfl | ha' <;> rcases List.mem_cons.1 hb with rfl | hb'
    · omega
    · exact hfirst b hb'
    · have := hlt a ha'
      omega
    · exact ih ha' hb' hrest hab

variable (h : Renumbers f owner s s')

include h

theorem mem_owned {r : Row k} (hr : r ∈ s.owned k owner) : r.renumber f ∈ s'.owned k owner := by
  rw [h.rows]
  exact List.mem_map_of_mem hr

theorem eq_iff {a b : Row k} (ha : a ∈ s.owned k owner) (hb : b ∈ s.owned k owner) :
    f k a.id = f k b.id ↔ a.id = b.id := by
  constructor
  · intro e
    rcases Int.lt_trichotomy a.id b.id with hab | hab | hab
    · have := h.increasing k a ha b hb hab
      omega
    · exact hab
    · have := h.increasing k b hb a ha hab
      omega
  · exact congrArg (f k)

theorem row_iff (hs : s.TenantLocal) {m : Membership} (hm : m ∈ s.joined owner) {r : Row k}
    (hr : r ∈ s.owned k owner) : f k (m.row k) = f k r.id ↔ m.row k = r.id := by
  obtain ⟨g, hg, u, hu, hgroup, huser⟩ := hs.exists_of_mem_joined hm
  cases k with
  | user =>
    rw [Membership.row, ← huser]
    exact h.eq_iff hu hr
  | group =>
    rw [Membership.row, ← hgroup]
    exact h.eq_iff hg hr

/-! ## Looking for rows -/

theorem find?_user {u : Row .user} (hu : u ∈ s.owned .user owner) :
    s'.users.find? (f .user u.id) = (s.users.find? u.id).map (Row.renumber f) := by
  have hfind : s.users.find? u.id = some u := Table.find?_eq_some_iff.2 ⟨mem_rows_of_owned hu, rfl⟩
  have hfind' : s'.users.find? (f .user u.id) = some (u.renumber f) :=
    Table.find?_eq_some_iff.2 ⟨mem_rows_of_owned (h.mem_owned hu), rfl⟩
  rw [hfind, hfind', Option.map_some]

theorem membersOf (hs : s.TenantLocal) {g : Row .group} (hg : g ∈ s.owned .group owner) :
    s'.membersOf (g.renumber f) = (s.membersOf g).map (Row.renumber f) := by
  have hfilter : (s'.memberships.filter fun m => m.group == (g.renumber f).id) =
      ((s.joined owner).filter fun m => m.group == g.id).map (Membership.renumber f) := by
    rw [← filter_joined (h.mem_owned hg), h.memberships, List.filter_map]
    congr 1
    refine List.filter_congr fun m hm => ?_
    rw [Bool.eq_iff_iff, Function.comp_apply, beq_iff_eq, beq_iff_eq]
    exact h.row_iff hs hm hg
  rw [Store.membersOf, Store.membersOf, hfilter, ← filter_joined hg, List.filterMap_map, List.map_filterMap]
  refine List.filterMap_congr fun m hm => ?_
  obtain ⟨-, -, u, hu, -, huser⟩ := hs.exists_of_mem_joined (List.mem_filter.1 hm).1
  have hfind : s'.users.find? (f .user m.user) = (s.users.find? m.user).map (Row.renumber f) := by
    rw [← huser]
    exact h.find?_user hu
  exact hfind

theorem document (hs : s.TenantLocal) {r : Row k} (hr : r ∈ s.owned k owner) :
    s'.document k (r.renumber f) = s.document k r := by
  cases k with
  | user => exact r.userDocument_renumber f
  | group =>
    rw [Store.document, Store.document, h.membersOf hs hr]
    exact r.groupDocument_renumber f _

theorem findBy {name : String} (hname : name ≠ "id") (value : Json) (ignoreCase : Bool) :
    s'.findBy k owner name value ignoreCase =
      (s.findBy k owner name value ignoreCase).map (Option.map (Row.renumber f)) := by
  rw [Store.findBy, Store.findBy, column]
  split
  next c hc =>
    have hid : c ≠ .id := by
      rintro rfl
      exact hname (Column.name_of_ofName? hc).symm
    rw [ok_bind, ok_bind]
    cases coerce c.type value with
    | none => rfl
    | some value =>
      dsimp only
      cases lookupTest c.type ignoreCase value with
      | error e => rfl
      | ok holds =>
        have hsame : (fun r : Row k => holds (r.get c)) ∘ Row.renumber f = fun r => holds (r.get c) := by
          funext r
          rw [Function.comp_apply, r.get_renumber f hid]
        rw [ok_bind, ok_bind, h.rows, List.find?_map, hsame]
        rfl
  next => rfl

section Standard

variable {c : Config} (hc : c.IsStandard)

include hc

theorem get (identifier : Json) :
    s'.get c k owner identifier = (s.get c k owner identifier).map (Row.renumber f) := by
  have hname : (c.resource k).lookupField ≠ "id" := by
    rw [hc.lookupField]
    decide
  rw [Store.get, Store.get, h.findBy hname]
  cases s.findBy k owner (c.resource k).lookupField identifier false with
  | error e => rfl
  | ok found => cases found <;> rfl

theorem findKey (value : Json) :
    s'.findBy k owner (c.resource k).naturalKey value (c.resource k).ignoreCase =
      (s.findBy k owner (c.resource k).naturalKey value (c.resource k).ignoreCase).map
        (Option.map (Row.renumber f)) := by
  apply h.findBy
  rw [hc.naturalKey]
  cases k <;> decide

theorem checkKey {r : Row k} (hr : r ∈ s.owned k owner) (attributes : Schema.Values) :
    s'.checkKey c owner (r.renumber f) attributes = s.checkKey c owner r attributes := by
  rw [Store.checkKey, Store.checkKey]
  split
  · rfl
  · rfl
  next value _ _ =>
    rw [h.findKey hc]
    cases (c.resource k).uniqueKey with
    | false => rfl
    | true =>
      cases hfind : s.findBy k owner (c.resource k).naturalKey value (c.resource k).ignoreCase with
      | error e => rfl
      | ok found =>
        cases found with
        | none => rfl
        | some other =>
          have hsame : ((other.renumber f).id != (r.renumber f).id) = (other.id != r.id) := by
            rw [Bool.eq_iff_iff, bne_iff_ne, bne_iff_ne]
            exact not_congr (h.eq_iff (mem_owned_of_findBy hfind) hr)
          simp only [Except.map, ok_bind, Option.map_some, hsame]

theorem resolve (identifiers : List Json) :
    s'.resolve c owner identifiers = (s.resolve c owner identifiers).map (List.map (Row.renumber f)) := by
  rcases Nat.lt_or_ge identifiers.length maxVariables with hfew | hmany
  · rcases torn_or_plain identifiers with htorn | hplain
    · rw [s.resolve_torn hc owner hfew htorn, s'.resolve_torn hc owner hfew htorn]
      rfl
    · rw [s.resolve_eq hc owner hfew hplain, s'.resolve_eq hc owner hfew hplain, h.rows,
        mapM_named_map (Row.renumber f) fun _ => rfl]
  · rw [s.resolve_many hc owner hmany, s'.resolve_many hc owner hmany]
    rfl

theorem listed (members : Json) (expected : String) :
    s'.listed c owner members expected = (s.listed c owner members expected).map (List.map (Row.renumber f)) := by
  rw [Store.listed, Store.listed]
  cases (Members.identifiers members expected).mapError Failure.refused with
  | error e => rfl
  | ok identifiers => exact h.resolve hc identifiers

theorem resolveMembers (hs : s.TenantLocal) {g : Row .group} (hg : g ∈ s.owned .group owner)
    (identifiers : List Json) :
    s'.resolveMembers c (g.renumber f) identifiers =
      (s.resolveMembers c g identifiers).map (List.map (Row.renumber f)) := by
  rw [s.resolveMembers_eq hc, s'.resolveMembers_eq hc, h.membersOf hs hg, mapM_named_map (Row.renumber f) fun _ => rfl]

end Standard

/-! ## Selecting and ordering rows -/

theorem selected {filter : Option Filter.Expression} (hfilter : ∀ e, filter = some e → e.column ≠ "id") :
    s'.selected k owner filter = (s.selected k owner filter).map (List.map (Row.renumber f)) := by
  cases filter with
  | none => exact congrArg Except.ok (h.rows k)
  | some e =>
    have hpredicate : ∀ holds, predicate k e = .ok holds → ∀ r : Row k, holds (r.renumber f) = holds r := by
      intro holds hholds r
      obtain ⟨c, hc, hholds⟩ := bind_eq_ok.1 hholds
      have hid : c ≠ .id := by
        rintro rfl
        rw [column] at hc
        split at hc
        next hc' =>
          cases hc
          exact hfilter e rfl (Column.name_of_ofName? hc').symm
        next => cases hc
      split at hholds
      · cases hholds
        rfl
      · obtain ⟨test, -, hholds⟩ := bind_eq_ok.1 hholds
        cases hholds
        exact congrArg test (r.get_renumber f hid)
    rw [Store.selected, Store.selected]
    cases hholds : predicate k e with
    | error e => rfl
    | ok holds =>
      have hsame : holds ∘ Row.renumber f = holds := funext (hpredicate holds hholds)
      rw [ok_bind, ok_bind]
      dsimp only
      rw [h.rows, List.isEmpty_map, List.filter_map, hsame]
      split <;> rfl

omit h in
private theorem compare_id (a b : Row k) : (a.get .id).compare (b.get .id) = compare a.id b.id := rfl

private theorem compareRows {a b : Row k} (ha : a ∈ s.owned k owner) (hb : b ∈ s.owned k owner)
    (keys : List (Column k × Bool)) :
    Store.compareRows keys (a.renumber f) (b.renumber f) = Store.compareRows keys a b := by
  have hnumbers : compare (f k a.id) (f k b.id) = compare a.id b.id := by
    rcases Int.lt_trichotomy a.id b.id with hab | hab | hab
    · rw [Int.compare_eq_lt.2 hab, Int.compare_eq_lt.2 (h.increasing k a ha b hb hab)]
    · rw [hab, Int.compare_eq_eq.2 rfl, Int.compare_eq_eq.2 rfl]
    · rw [Int.compare_eq_gt.2 hab, Int.compare_eq_gt.2 (h.increasing k b hb a ha hab)]
  induction keys with
  | nil => rfl
  | cons key rest ih =>
    obtain ⟨c, descending⟩ := key
    have hcompare : compareBy c descending (a.renumber f) (b.renumber f) = compareBy c descending a b := by
      by_cases hid : c = .id
      · rw [hid, compareBy, compareBy, compare_id, compare_id]
        exact congrArg (fun o : Ordering => if descending then o.swap else o) hnumbers
      · rw [compareBy, compareBy, a.get_renumber f hid, b.get_renumber f hid]
    rw [Store.compareRows, Store.compareRows, hcompare, ih]

theorem sortRows {rows : List (Row k)} (hrows : ∀ r ∈ rows, r ∈ s.owned k owner) (keys : List (Column k × Bool)) :
    Store.sortRows keys (rows.map (Row.renumber f)) = (Store.sortRows keys rows).map (Row.renumber f) := by
  apply sortRows_map
  intro a ha b hb
  exact h.compareRows (hrows a ha) (hrows b hb) keys

theorem query {filter : Option Filter.Expression} (hfilter : ∀ e, filter = some e → e.column ≠ "id")
    (order : List OrderBy) (offset : Int) (limit : Option Int) :
    s'.query k owner filter order offset limit =
      (s.query k owner filter order offset limit).map (Page.renumber f) := by
  rw [query_eq, query_eq, h.selected hfilter]
  cases hfound : s.selected k owner filter with
  | error e => rfl
  | ok found =>
    cases sortKeys k order with
    | error e => rfl
    | ok keys =>
      dsimp only [Except.map, Except.bind]
      rw [h.sortRows (mem_owned_of_selected hfound) keys, slice_map, List.length_map]
      split
      · rfl
      · split <;> rfl

theorem matchingMembers (hs : s.TenantLocal) {g : Row .group} (hg : g ∈ s.owned .group owner)
    {filter : Filter.Expression} (hfilter : filter.column ≠ "id") :
    s'.matchingMembers owner (g.renumber f) filter =
      (s.matchingMembers owner g filter).map (List.map (Row.renumber f)) := by
  have hcolumn : ∀ e, some filter = some e → e.column ≠ "id" := by
    rintro e ⟨⟩
    exact hfilter
  rw [Store.matchingMembers, Store.matchingMembers, h.query hcolumn, h.membersOf hs hg]
  cases hpage : s.query .user owner (some filter) [] 0 none with
  | error e => rfl
  | ok page =>
    have hsame : ∀ u ∈ page.items, (((s.membersOf g).map (Row.renumber f)).any fun m => m.id == (u.renumber f).id) =
        (s.membersOf g).any fun m => m.id == u.id := by
      intro u hu
      rw [List.any_map, Bool.eq_iff_iff, List.any_eq_true, List.any_eq_true]
      refine exists_congr fun m => and_congr_right fun hm => ?_
      rw [Function.comp_apply, beq_iff_eq, beq_iff_eq]
      exact h.eq_iff (hs.mem_owned_of_mem_membersOf hg hm) (mem_owned_of_query hpage u hu)
    simp only [Except.map, ok_bind, Page.renumber, List.filter_map]
    refine congrArg Except.ok (congrArg (List.map _) (List.filter_congr ?_))
    exact hsame

/-! ## Before anything is written -/

theorem listing (hs : s.TenantLocal) {c : Config} (hc : c.IsStandard) (pager : Pager) (k : Kind)
    (filter start count : Json) :
    s'.listing c owner pager k filter start count = s.listing c owner pager k filter start count := by
  rw [Store.listing, Store.listing]
  cases pager.window start count with
  | error e => rfl
  | ok window =>
    rw [ok_bind, ok_bind]
    cases hexpression : Request.filterOf (c.resource k).queryable filter with
    | error e => rfl
    | ok expression =>
      have hcolumn : ∀ e, expression = some e → e.column ≠ "id" := by
        rintro e rfl hid
        obtain ⟨x, hname, hprofile⟩ := hc.column_of_filterOf hexpression
        have hx : x = .id := Column.eq_of_name (hname.trans hid)
        subst hx
        cases hprofile
      rw [ok_bind, ok_bind, h.query hcolumn]
      cases hpage : s.query k owner expression (c.resource k).listOrder window.offset (some window.limit) with
      | error e => rfl
      | ok page =>
        have hitems : (page.items.map (Row.renumber f)).map (s'.document k) = page.items.map (s.document k) := by
          rw [List.map_map]
          refine List.map_congr_left fun r hr => ?_
          exact h.document hs (mem_owned_of_query hpage r hr)
        simp only [Except.map, ok_bind, Page.renumber, hitems]

theorem newUsers {c : Config} (hc : c.IsStandard) (k : Kind) (payload : Json) :
    s'.newUsers c owner k payload = (s.newUsers c owner k payload).map (List.map (Row.renumber f)) := by
  cases k with
  | user => rfl
  | group =>
    rw [Store.newUsers.eq_def, Store.newUsers.eq_def]
    generalize payload.fieldOrNull "members" = members
    cases members
    case null => rfl
    all_goals exact h.listed hc _ _

theorem replacedUsers {c : Config} (hc : c.IsStandard) (k : Kind) (payload : Json) :
    s'.replacedUsers c owner k payload = (s.replacedUsers c owner k payload).map (List.map (Row.renumber f)) := by
  cases k with
  | user => rfl
  | group => exact h.listed hc _ _

theorem creation {c : Config} (hc : c.IsStandard) (k : Kind) (payload : Json) :
    s'.creation c owner k payload = (s.creation c owner k payload).map (Creation.renumber f) := by
  rw [Store.creation, Store.creation, h.newUsers hc]
  cases ((c.resource k).complete payload).mapError Failure.refused with
  | error e => rfl
  | ok attributes =>
    rw [ok_bind, ok_bind]
    cases (parseActive (payload.fieldOrNull "active")).mapError Failure.refused with
    | error e => rfl
    | ok status =>
      rw [ok_bind, ok_bind]
      cases s.newUsers c owner k payload with
      | error e => rfl
      | ok users =>
        simp only [Except.map, ok_bind]
        cases attributes.lookup (c.resource k).naturalKey with
        | none => rfl
        | some key =>
          dsimp only
          rw [h.findKey hc]
          cases s.findBy k owner (c.resource k).naturalKey key (c.resource k).ignoreCase with
          | error e => rfl
          | ok existing =>
            simp only [Except.map, ok_bind, Option.isSome_map]
            split <;> rfl

theorem drawnFor {c : Config} (hc : c.IsStandard) (k : Kind) (payload : Json) :
    s'.drawnFor c owner k payload = s.drawnFor c owner k payload := by
  rw [Store.drawnFor, Store.drawnFor, h.creation hc]
  cases s.creation c owner k payload with
  | error e => rfl
  | ok p => exact congrArg Bool.toNat (Option.isNone_map ..)

end Renumbers

end Store

end Roster
