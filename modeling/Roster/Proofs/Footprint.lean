import Roster.Proofs.Edits
import Roster.Proofs.NamedMembers
import Roster.Proofs.NaturalKeys

/-!
What an edit reads.

An edit of a user reads its row and the other users. An edit of a group reads its row and its memberships, and of
the users only their numbers, identifiers and companies. In two stores that are the same in what it reads an edit
comes to the same, and they are the same in this again when it has been made in both.
-/

set_option autoImplicit false

namespace Roster

open Step

variable {k : Kind}

/-- A row without all that can be written of it. -/
def Row.bare (r : Row k) : Row k :=
  ⟨r.id, r.uuid, r.company, .blank k, none, 0, 0⟩

/-- Lists of the same users, whatever has been written of them. -/
def SameUsers (us vs : List (Row .user)) : Prop :=
  us.map Row.bare = vs.map Row.bare

theorem SameUsers.ids {us vs : List (Row .user)} (h : SameUsers us vs) : us.map Row.id = vs.map Row.id := by
  have hids : (us.map Row.bare).map Row.id = (vs.map Row.bare).map Row.id := congrArg (List.map Row.id) h
  rw [List.map_map, List.map_map] at hids
  exact hids

theorem SameUsers.uuids {us vs : List (Row .user)} (h : SameUsers us vs) : us.map Row.uuid = vs.map Row.uuid := by
  have huuids : (us.map Row.bare).map Row.uuid = (vs.map Row.bare).map Row.uuid := congrArg (List.map Row.uuid) h
  rw [List.map_map, List.map_map] at huuids
  exact huuids

theorem SameUsers.any {us vs : List (Row .user)} (h : SameUsers us vs) (p : Int → Bool) :
    (us.any fun u => p u.id) = vs.any fun u => p u.id := by
  have hany : (us.map Row.id).any p = (vs.map Row.id).any p := congrArg (fun ids => ids.any p) h.ids
  rw [List.any_map, List.any_map] at hany
  exact hany

/-- Users that are selected by their identifiers, sorted by their numbers and selected by these are the same. -/
theorem SameUsers.matched {us vs : List (Row .user)} (h : SameUsers us vs) (p : String → Bool) (q : Int → Bool) :
    SameUsers ((Store.sortRows [(.id, false)] (us.filter fun u => p u.uuid)).filter fun u => q u.id)
      ((Store.sortRows [(.id, false)] (vs.filter fun u => p u.uuid)).filter fun u => q u.id) := by
  have hbare (us : List (Row .user)) :
      ((Store.sortRows [(.id, false)] (us.filter fun u => p u.uuid)).filter fun u => q u.id).map Row.bare =
        (Store.sortRows [(.id, false)] ((us.map Row.bare).filter fun u => p u.uuid)).filter fun u => q u.id := by
    have hsorted : Store.sortRows [(.id, false)] ((us.filter fun u => p u.uuid).map Row.bare) =
        (Store.sortRows [(.id, false)] (us.filter fun u => p u.uuid)).map Row.bare := sortRows_map fun _ _ _ _ => rfl
    have hfilter : (us.map Row.bare).filter (fun u => p u.uuid) = (us.filter fun u => p u.uuid).map Row.bare :=
      List.filter_map
    rw [hfilter, hsorted, List.filter_map]
    rfl
  have hsame : us.map Row.bare = vs.map Row.bare := h
  rw [SameUsers, hbare us, hbare vs, hsame]

namespace Store

/-- Two stores have the same row, and are the same in all that an edit of it reads. -/
structure SameFor (s : Store) (r : Row k) (t : Store) : Prop where
  left : r ∈ (s.table k).rows
  right : r ∈ (t.table k).rows
  bare : SameUsers s.users.rows t.users.rows
  user : k = .user → t.users = s.users
  group : k = .group → (t.memberships.filter fun m => m.group == r.id) = s.memberships.filter fun m => m.group == r.id

/-- The same row has been made in two stores under a number, and what an edit of it reads is the same again. -/
structure Same (id : Int) (p q : Row k × Store) : Prop where
  row : q.1 = p.1
  id : p.1.id = id
  stores : p.2.SameFor p.1 q.2

namespace SameFor

/-! ## Reading users -/

section Users

variable {s t : Store} {r : Row k} (h : s.SameFor r t) (owner : Company)

include h

theorem owned : SameUsers (s.owned .user owner) (t.owned .user owner) := by
  have howned (s : Store) : (s.owned .user owner).map Row.bare =
      (s.users.rows.map Row.bare).filter fun u => u.company == .integer owner.id := by
    rw [List.filter_map]
    rfl
  rw [SameUsers, howned s, howned t]
  exact congrArg (List.filter _) h.bare

theorem find? (id : Int) : (s.users.find? id).map Row.bare = (t.users.find? id).map Row.bare := by
  have hfind (s : Store) : (s.users.find? id).map Row.bare =
      (s.users.rows.map Row.bare).find? fun u => u.id == id := by
    rw [List.find?_map]
    rfl
  rw [hfind s, hfind t]
  exact congrArg (List.find? _) h.bare

variable {c : Config} (hc : c.IsStandard)

include hc

theorem resolve (identifiers : List Json) :
    Alike SameUsers (s.resolve c owner identifiers) (t.resolve c owner identifiers) := by
  rcases Nat.lt_or_ge identifiers.length maxVariables with hfew | hmany
  · rcases torn_or_plain identifiers with htorn | hplain
    · rw [s.resolve_torn hc owner hfew htorn, t.resolve_torn hc owner hfew htorn]
      exact .error _
    · apply Alike.of_map_eq
      have howned : (s.owned .user owner).map Row.bare = (t.owned .user owner).map Row.bare := h.owned owner
      rw [s.resolve_eq hc owner hfew hplain, t.resolve_eq hc owner hfew hplain, ← mapM_named_map Row.bare fun _ => rfl,
        ← mapM_named_map Row.bare fun _ => rfl, howned]
  · rw [s.resolve_many hc owner hmany, t.resolve_many hc owner hmany]
    exact .error _

theorem listed (members : Json) (expected : String) :
    Alike SameUsers (s.listed c owner members expected) (t.listed c owner members expected) := by
  rw [Store.listed, Store.listed]
  cases (Members.identifiers members expected).mapError Failure.refused with
  | error e => exact .error e
  | ok identifiers => exact h.resolve owner hc identifiers

theorem checkKey (attributes : Schema.Values) : t.checkKey c owner r attributes = s.checkKey c owner r attributes := by
  cases k with
  | group => rw [s.checkKey_group hc, t.checkKey_group hc]
  | user =>
    have husers : t.users = s.users := h.user rfl
    obtain ⟨companies, users, groups, memberships⟩ := s
    obtain ⟨companies', users', groups', memberships'⟩ := t
    cases husers
    rfl

end Users

/-! ## Reading members -/

section Members

variable {s t : Store} {g : Row .group} (h : s.SameFor g t)

include h

theorem membersOf : SameUsers (s.membersOf g) (t.membersOf g) := by
  rw [SameUsers, Store.membersOf, Store.membersOf, h.group rfl, List.map_filterMap, List.map_filterMap]
  congr 1
  funext m
  exact h.find? m.user

theorem resolveMembers {c : Config} (hc : c.IsStandard) (identifiers : List Json) :
    Alike SameUsers (s.resolveMembers c g identifiers) (t.resolveMembers c g identifiers) := by
  apply Alike.of_map_eq
  have hmembers : (s.membersOf g).map Row.bare = (t.membersOf g).map Row.bare := h.membersOf
  rw [s.resolveMembers_eq hc, t.resolveMembers_eq hc, ← mapM_named_map Row.bare fun _ => rfl,
    ← mapM_named_map Row.bare fun _ => rfl, hmembers]

/-- A filter selects by identifiers, and puts users in the order of their numbers. -/
theorem matchingMembers (owner : Company) {e : Filter.Expression} (hcolumn : e.column = "uuid") :
    Alike SameUsers (s.matchingMembers owner g e) (t.matchingMembers owner g e) := by
  have howned : SameUsers (s.owned .user owner) (t.owned .user owner) := h.owned owner
  have hmembers : (fun u : Row .user => (s.membersOf g).any fun m => m.id == u.id) =
      fun u => (t.membersOf g).any fun m => m.id == u.id := by
    funext u
    exact h.membersOf.any fun id => id == u.id
  rw [matchingMembers_eq hcolumn, matchingMembers_eq hcolumn, howned.uuids, hmembers]
  split
  · exact .error _
  · exact .ok (howned.matched e.selects fun id => (t.membersOf g).any fun m => m.id == id)

/-! ## Writing members -/

theorem addMembers {us vs : List (Row .user)} (husers : SameUsers us vs) (clock : Nat) :
    (s.addMembers clock g us).SameFor g (t.addMembers clock g vs) := by
  have hnumbers : t.memberNumbers g = s.memberNumbers g := congrArg (List.map Membership.user) (h.group rfl)
  have hmemberships : ((t.addMembers clock g vs).memberships.filter fun m => m.group == g.id) =
      (s.addMembers clock g us).memberships.filter fun m => m.group == g.id := by
    rw [memberships_addMembers, memberships_addMembers, List.filter_append, List.filter_append, h.group rfl, hnumbers,
      husers.ids]
  rw [addMembers_eq s, addMembers_eq t]
  exact ⟨h.left, h.right, h.bare, nofun, fun _ => hmemberships⟩

theorem filterMemberships {p q : Membership → Bool} (hpq : ∀ m, m.group = g.id → q m = p m) :
    ({ s with memberships := s.memberships.filter p } : Store).SameFor g
      { t with memberships := t.memberships.filter q } := by
  refine ⟨h.left, h.right, h.bare, nofun, fun _ => ?_⟩
  have hcomm (ms : List Membership) (p : Membership → Bool) : ((ms.filter p).filter fun m => m.group == g.id) =
      (ms.filter fun m => m.group == g.id).filter p := by
    rw [List.filter_filter, List.filter_filter]
    refine List.filter_congr fun m _ => ?_
    rw [Bool.and_comm]
  dsimp only
  rw [hcomm, hcomm, h.group rfl]
  refine List.filter_congr fun m hm => ?_
  exact hpq m (beq_iff_eq.1 (List.mem_filter.1 hm).2)

theorem clearMembers : (s.clearMembers g).SameFor g (t.clearMembers g) :=
  h.filterMemberships fun _ _ => rfl

theorem removeMembers {us vs : List (Row .user)} (husers : SameUsers us vs) :
    Alike (fun s t => s.SameFor g t) (s.removeMembers g us) (t.removeMembers g vs) := by
  have hlength : vs.length = us.length := by
    rw [← List.length_map Row.id, ← husers.ids, List.length_map]
  rw [Store.removeMembers, Store.removeMembers, hlength]
  split
  · refine .ok (h.filterMemberships fun m _ => ?_)
    have hany := husers.any fun id => id == m.user
    rw [hany]
  · exact .error _

end Members

/-! ## Writing rows -/

section Rows

variable {s t : Store} {r : Row k} (h : s.SameFor r t)

include h

theorem put {new : Row k} (hid : new.id = r.id) (huuid : new.uuid = r.uuid) (hcompany : new.company = r.company)
    (hcreated : new.created = r.created) :
    Alike (Same r.id) (do return (new, ← s.put r new)) (do return (new, ← t.put r new)) := by
  obtain ⟨a, hs, hsrows⟩ := exists_put h.left hid huuid
  obtain ⟨b, ht, htrows⟩ := exists_put h.right hid huuid
  have hw : s.Rewrites r new (s.withTable k a) := .of_put h.left hid huuid hcompany hcreated hs
  have hw' : t.Rewrites r new (t.withTable k b) := .of_put h.right hid huuid hcompany hcreated ht
  have htables : k = .user → b = a := by
    rintro rfl
    have husers : t.table .user = s.table .user := h.user rfl
    apply Table.eq_of_rows
    rw [htrows, hsrows, husers]
  rw [hs, ht]
  refine .ok ⟨rfl, hid, hw.mem_new, hw'.mem_new, ?_, ?_, ?_⟩
  · cases k with
    | group => exact h.bare
    | user => exact congrArg (fun u : Table .user => u.rows.map Row.bare) (htables rfl).symm
  · rintro rfl
    exact htables rfl
  · rintro rfl
    rw [hid]
    exact h.group rfl

theorem update {attributes : Schema.Values} (hprofile : ProfileOnly k attributes) (clock : Nat) :
    Alike (Same r.id) (s.update clock r attributes) (t.update clock r attributes) := by
  rw [Store.update, Store.update]
  cases hvalues : columns k attributes with
  | error e => exact .error e
  | ok values =>
    rw [ok_bind, ok_bind]
    dsimp only
    split
    · exact .ok ⟨rfl, rfl, h⟩
    · cases hcells : cells (values.filter fun v => !unchanged r v.1 v.2) with
      | error fault => exact .error _
      | ok changed =>
        dsimp only
        cases hnew : revised r (changed ++ [(.updated, .time clock)]) with
        | none => exact .error _
        | some new =>
          have hchanged : ∀ p ∈ changed, p.1.isProfile = true := by
            apply isProfile_of_cells _ hcells
            intro v hv
            exact isProfile_of_columns hprofile hvalues (List.mem_filter.1 hv).1
          obtain ⟨profile, rfl⟩ := eq_of_revised hchanged hnew
          exact h.put rfl rfl rfl rfl

theorem settled (status : Option Bool) (clock : Nat) :
    Alike (Same r.id) (s.settled clock r status) (t.settled clock r status) := by
  cases status with
  | none => exact .ok ⟨rfl, rfl, h⟩
  | some active =>
    rw [Store.settled, Store.settled, setActive, setActive]
    split
    · exact .ok ⟨rfl, rfl, h⟩
    · exact h.put rfl rfl rfl rfl

theorem withMembers {us vs : List (Row .user)} (husers : SameUsers us vs) (clock : Nat) :
    (s.withMembers clock us k r).SameFor r (t.withMembers clock vs k r) := by
  cases k with
  | user => exact h
  | group => exact h.clearMembers.addMembers husers clock

/-- A resource is shown alike. -/
theorem document : t.document k r = s.document k r := by
  cases k with
  | user => rfl
  | group =>
    have hdocuments (members : List (Row .user)) :
        members.map Row.memberDocument = (members.map Row.bare).map Row.memberDocument := by
      rw [List.map_map]
      rfl
    have hmembers : (s.membersOf r).map Row.bare = (t.membersOf r).map Row.bare := h.membersOf
    rw [Store.document, Store.document, Row.groupDocument, Row.groupDocument, hdocuments (s.membersOf r),
      hdocuments (t.membersOf r), hmembers]

end Rows

/-! ## Editing -/

section Edits

variable {ctx : Context} (hc : ctx.config.IsStandard) {s t : Store} {r : Row k} (h : s.SameFor r t) (owner : Company)

include hc h

theorem written {attributes : Schema.Values} (hprofile : ProfileOnly k attributes) :
    Alike (Same r.id) (s.written ctx owner r attributes) (t.written ctx owner r attributes) := by
  rw [written_eq, written_eq, h.checkKey owner hc]
  cases s.checkKey ctx.config owner r attributes with
  | error e => exact .error e
  | ok u => exact h.update hprofile ctx.clock

theorem replacedUsers (payload : Json) :
    Alike SameUsers (s.replacedUsers ctx.config owner k payload) (t.replacedUsers ctx.config owner k payload) := by
  cases k with
  | user => exact .ok rfl
  | group => exact h.listed owner hc _ _

/-- A resource is replaced alike. -/
theorem rewritten (payload : Json) :
    Alike (Same r.id) (s.rewritten ctx owner r payload) (t.rewritten ctx owner r payload) := by
  rw [Store.rewritten, Store.rewritten]
  refine (h.replacedUsers hc owner payload).bind fun us vs _ husers => ?_
  cases (parseActive (payload.fieldOrNull "active")).mapError Failure.refused with
  | error e => exact .error e
  | ok status =>
    rw [ok_bind, ok_bind]
    cases hattributes : (ctx.config.resource k).complete payload with
    | error e => exact .error _
    | ok attributes =>
      have hprofile : ProfileOnly k attributes := hc.profileOnly_complete hattributes
      dsimp only [Except.mapError]
      rw [ok_bind, ok_bind, h.checkKey owner hc]
      cases s.checkKey ctx.config owner r attributes with
      | error e => exact .error e
      | ok u =>
        rw [ok_bind, ok_bind]
        refine (h.update hprofile ctx.clock).bind fun p q _ hpq => ?_
        obtain ⟨hrow, hid, hstores⟩ := hpq
        rw [completed, completed, hrow, ← hid]
        refine (hstores.settled status ctx.clock).map fun p q _ hpq => ?_
        obtain ⟨hrow, hid, hstores⟩ := hpq
        refine ⟨hrow, hid, ?_⟩
        rw [hrow]
        exact hstores.withMembers husers ctx.clock

theorem replaceAttributes (o : PatchOperation) :
    Alike (Same r.id) (effect (replaceAttributes ctx owner r o) s) (effect (replaceAttributes ctx owner r o) t) := by
  rw [effect_replaceAttributes, effect_replaceAttributes, hc.mutableSchema]
  cases o.document ctx.config.room (Schema.writable k) with
  | error e => exact .error e
  | ok document =>
    dsimp only [Except.bind]
    split
    · cases PatchOperation.status ctx.config.room document with
      | error e => exact .error e
      | ok status =>
        refine (h.written hc owner (profileOnly_extractPresent k document)).bind fun p q _ hpq => ?_
        obtain ⟨hrow, hid, hstores⟩ := hpq
        rw [hrow, ← hid]
        exact hstores.settled status ctx.clock
    · exact .error _

end Edits

section GroupEdits

variable {ctx : Context} (hc : ctx.config.IsStandard) {s t : Store} {g : Row .group} (h : s.SameFor g t)
  (owner : Company)

include hc h

theorem addListed (o : PatchOperation) :
    Alike (fun p q => p.2.SameFor g q.2) (effect (addListed ctx owner g o) s) (effect (addListed ctx owner g o) t) := by
  rw [effect_addListed, effect_addListed]
  split
  · exact .error _
  · refine (h.listed owner hc o.addedMembers Members.patchExpectation).map fun us vs _ husers => ?_
    exact h.addMembers husers ctx.clock

theorem removeListed (o : PatchOperation) :
    Alike (fun p q => p.2.SameFor g q.2) (effect (removeListed ctx owner g o) s)
      (effect (removeListed ctx owner g o) t) := by
  rw [effect_removeListed, effect_removeListed]
  split
  · cases o.value with
    | none => exact .ok h.clearMembers
    | some members =>
      dsimp only
      cases (Members.identifiers members Members.patchExpectation).mapError Failure.refused with
      | error e => exact .error e
      | ok identifiers =>
        refine (h.resolveMembers hc identifiers).bind fun us vs _ husers => ?_
        exact (h.removeMembers husers).map fun _ _ _ hst => hst
  · cases hfilter : memberFilter ctx.config o.path with
    | error e => exact .error _
    | ok e =>
      refine (h.matchingMembers owner (column_of_memberFilter hc hfilter)).bind fun us vs _ husers => ?_
      exact (h.removeMembers husers).map fun _ _ _ hst => hst

theorem replaceInGroup (o : PatchOperation) :
    Alike (Same g.id) (effect (replaceInGroup ctx owner g o) s) (effect (replaceInGroup ctx owner g o) t) := by
  rw [effect_replaceInGroup, effect_replaceInGroup]
  split
  · refine (h.listed owner hc o.valueOrNull Members.patchExpectation).map fun us vs _ husers => ?_
    exact ⟨rfl, rfl, h.clearMembers.addMembers husers ctx.clock⟩
  · exact h.replaceAttributes hc owner o

end GroupEdits

/-! ## Sequences of operations -/

section Operations

variable {ctx : Context} (hc : ctx.config.IsStandard) (owner : Company)

include hc

/-- An operation is carried out alike, or refused alike. -/
theorem applyOperation {s t : Store} {r : Row k} (h : s.SameFor r t) (o : PatchOperation) :
    Alike (Same r.id) (effect (applyOperation ctx owner k r o) s) (effect (applyOperation ctx owner k r o) t) := by
  have hreturn {g : Row .group} {x : Step Unit} (hx : Local x)
      (hlike : Alike (fun p q => p.2.SameFor g q.2) (effect x s) (effect x t)) :
      Alike (Same g.id) (effect (do x; return g) s) (effect (do x; return g) t) := by
    rw [effect_bind _ hx fun _ => local_pure g, effect_bind _ hx fun _ => local_pure g]
    exact hlike.bind fun p q _ hpq => .ok ⟨rfl, rfl, hpq⟩
  cases k with
  | user =>
    rw [Roster.applyOperation]
    split
    · exact h.replaceAttributes hc owner o
    · exact .error _
  | group =>
    rw [Roster.applyOperation]
    split
    · exact h.replaceInGroup hc owner o
    · split
      · exact hreturn (local_addListed ctx owner r o) (h.addListed hc owner o)
      · split
        · exact hreturn (local_removeListed ctx owner r o) (h.removeListed hc owner o)
        · exact .error _

/-- A sequence of operations comes to the same, and where it is refused it has left the same. -/
theorem patched {s t : Store} {r : Row k} (h : s.SameFor r t) (operations : List PatchOperation) :
    (t.patched ctx owner r operations).1 = (s.patched ctx owner r operations).1 ∧
      ∃ r' : Row k, r'.id = r.id ∧ (s.patched ctx owner r operations).2.SameFor r' (t.patched ctx owner r operations).2 ∧
        ∀ final, (s.patched ctx owner r operations).1 = .ok final → final = r' := by
  induction operations generalizing s t r with
  | nil =>
    refine ⟨rfl, r, rfl, h, ?_⟩
    intro final hfinal
    cases hfinal
    rfl
  | cons o rest ih =>
    have hlike := h.applyOperation hc owner o
    rw [Store.patched, Store.patched]
    generalize effect (Roster.applyOperation ctx owner k r o) s = x at hlike
    generalize effect (Roster.applyOperation ctx owner k r o) t = y at hlike
    cases hlike with
    | error e =>
      refine ⟨rfl, r, rfl, h, ?_⟩
      intro final hfinal
      cases hfinal
    | @ok p q hpq =>
      obtain ⟨hrow, hid, hstores⟩ := hpq
      obtain ⟨hresult, r', hr', hleft, hfinal⟩ := ih hstores
      dsimp only
      rw [hrow]
      exact ⟨hresult, r', hr'.trans hid, hleft, hfinal⟩

/-- An edit comes to the same in both stores: the same result, and the same row again with what an edit of it reads. -/
theorem edited {s t : Store} {r : Row k} (h : s.SameFor r t) (e : Edit) :
    (t.edited ctx owner r e).1 = (s.edited ctx owner r e).1 ∧
      ∃ r' : Row k, r'.id = r.id ∧ (s.edited ctx owner r e).2.SameFor r' (t.edited ctx owner r e).2 ∧
        ∀ final, (s.edited ctx owner r e).1 = .ok final → final = r' := by
  cases e with
  | replace payload =>
    have hlike := h.rewritten hc owner payload
    rw [Store.edited, Store.edited]
    generalize s.rewritten ctx owner r payload = x at hlike
    generalize t.rewritten ctx owner r payload = y at hlike
    cases hlike with
    | error e =>
      refine ⟨rfl, r, rfl, h, ?_⟩
      intro final hfinal
      cases hfinal
    | @ok p q hpq =>
      obtain ⟨hrow, hid, hstores⟩ := hpq
      refine ⟨congrArg Except.ok hrow, p.1, hid, hstores, ?_⟩
      intro final hfinal
      exact (Except.ok.inj hfinal).symm
  | patch operations =>
    obtain ⟨hresult, r', hid, hleft, hfinal⟩ := h.patched hc owner operations
    rw [Store.edited, Store.edited, hresult]
    dsimp only
    refine ⟨rfl, ?_⟩
    split
    · exact ⟨r', hid, hleft, hfinal⟩
    next hrefused =>
      refine ⟨r, rfl, h, ?_⟩
      intro final hok
      rw [hok] at hrefused
      exact absurd rfl hrefused

/-- An edit is answered alike in both stores. -/
theorem answered {s t : Store} {r : Row k} (h : s.SameFor r t) (e : Edit) :
    (t.edited ctx owner r e).1.map ((t.edited ctx owner r e).2.document k) =
      (s.edited ctx owner r e).1.map ((s.edited ctx owner r e).2.document k) := by
  obtain ⟨hresult, r', -, hleft, hfinal⟩ := h.edited hc owner e
  rw [hresult]
  cases hr : (s.edited ctx owner r e).1 with
  | error failure => rfl
  | ok final =>
    have hsame : final = r' := hfinal final hr
    rw [hsame]
    exact congrArg Except.ok hleft.document

end Operations

end SameFor

end Store

end Roster
