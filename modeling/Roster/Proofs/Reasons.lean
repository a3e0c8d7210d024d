import Roster.Proofs.MemberLists
import Roster.Proofs.NamedMembers
import Roster.Proofs.NaturalKeys
import Roster.Proofs.ReplacedRows
import Roster.Proofs.Requests
import Roster.Web.Exchange

/-!
Reasons to refuse a document.

A request that brings a document is refused for the first of several reasons that applies. A reason is a failure, and
it is known with the status of the answer; each is stated apart from how the request is carried out. A computation is
decided by a list of reasons if it fails for the first one that applies, and otherwise has a result. What is decided
step by step is decided by the reasons of the steps in their order.
-/

set_option autoImplicit false

namespace Roster

variable {k : Kind} {s : Store} {owner : Company} {r : Row k} {document : Json}

/-! ## Decisions -/

/-- The first of some reasons that applies, with the status that belongs to it. -/
def firstReason (reasons : List (Nat × Option Failure)) : Option (Nat × Failure) :=
  reasons.findSome? fun reason => reason.2.map fun failure => (reason.1, failure)

theorem firstReason_append (reasons reasons' : List (Nat × Option Failure)) :
    firstReason (reasons ++ reasons') = (firstReason reasons).or (firstReason reasons') :=
  List.findSome?_append

theorem mem_of_firstReason {reasons : List (Nat × Option Failure)} {status : Nat} {failure : Failure}
    (h : firstReason reasons = some (status, failure)) : (status, some failure) ∈ reasons := by
  obtain ⟨⟨status', reason⟩, hmem, hreason⟩ := List.exists_of_findSome?_eq_some h
  obtain ⟨failure', hfailure, e⟩ := Option.map_eq_some_iff.1 hreason
  cases e
  exact hfailure ▸ hmem

/-- A computation fails for the first of some reasons that applies, or if there is none it has a result, of which
something is known. -/
inductive Decides {α : Type} (reasons : List (Nat × Option Failure)) (x : Except Failure α) (Q : α → Prop) : Prop
  | refused {status : Nat} {failure : Failure} (hfirst : firstReason reasons = some (status, failure))
    (hstatus : (Answer.failure failure).status = status) (hx : x = .error failure) : Decides reasons x Q
  | done {a : α} (hfirst : firstReason reasons = none) (hx : x = .ok a) (ha : Q a) : Decides reasons x Q

namespace Decides

variable {α β : Type} {reasons reasons' : List (Nat × Option Failure)} {x : Except Failure α} {Q : α → Prop}
  {Q' : β → Prop}

theorem nil {a : α} (hx : x = .ok a) (ha : Q a) : Decides [] x Q := .done rfl hx ha

theorem cons {status : Nat} {reason : Option Failure}
    (hsome : ∀ failure, reason = some failure → x = .error failure ∧ (Answer.failure failure).status = status)
    (hnone : reason = none → Decides reasons x Q) : Decides ((status, reason) :: reasons) x Q := by
  cases hreason : reason with
  | some failure =>
    obtain ⟨hx, hstatus⟩ := hsome failure hreason
    exact .refused rfl hstatus hx
  | none =>
    cases hnone hreason with
    | refused hfirst hstatus hx => exact .refused hfirst hstatus hx
    | done hfirst hx ha => exact .done hfirst hx ha

theorem bind {f : α → Except Failure β} (hx : Decides reasons x Q) (hf : ∀ a, Q a → Decides reasons' (f a) Q') :
    Decides (reasons ++ reasons') (x >>= f) Q' := by
  have happend := firstReason_append reasons reasons'
  cases hx with
  | refused hfirst hstatus hx =>
    rw [hfirst] at happend
    rw [hx]
    exact .refused happend hstatus rfl
  | @done a hfirst hx ha =>
    rw [hfirst, Option.none_or] at happend
    rw [hx]
    cases hf a ha with
    | refused hfirst hstatus hx => exact .refused (happend.trans hfirst) hstatus hx
    | done hfirst hx ha => exact .done (happend.trans hfirst) hx ha

/-- What follows cannot fail any more. -/
theorem bind_ok {f : α → Except Failure β} (hx : Decides reasons x Q) (hf : ∀ a, Q a → ∃ b, f a = .ok b ∧ Q' b) :
    Decides reasons (x >>= f) Q' := by
  cases hx with
  | refused hfirst hstatus hx =>
    rw [hx]
    exact .refused hfirst hstatus rfl
  | @done a hfirst hx ha =>
    obtain ⟨b, hb, hb'⟩ := hf a ha
    rw [hx]
    exact .done hfirst hb hb'

/-- It fails for the first reason that applies. -/
theorem eq_error (hx : Decides reasons x Q) {status : Nat} {failure : Failure}
    (hfirst : firstReason reasons = some (status, failure)) :
    x = .error failure ∧ (Answer.failure failure).status = status := by
  cases hx with
  | refused hfirst' hstatus hx =>
    cases hfirst.symm.trans hfirst'
    exact ⟨hx, hstatus⟩
  | done hnone => cases hfirst.symm.trans hnone

theorem eq_ok (hx : Decides reasons x Q) : Decides reasons x fun a => x = .ok a ∧ Q a := by
  cases hx with
  | refused hfirst hstatus hx => exact .refused hfirst hstatus hx
  | done hfirst hx ha => exact .done hfirst hx ⟨hx, ha⟩

/-- There is a result only if none of the reasons applies. -/
theorem known (hx : Decides reasons x Q) : Decides reasons x fun a => firstReason reasons = none ∧ Q a := by
  cases hx with
  | refused hfirst hstatus hx => exact .refused hfirst hstatus hx
  | done hfirst hx ha => exact .done hfirst hx ⟨hfirst, ha⟩

/-- A reason that does not apply can be left out. -/
theorem of_none {status : Nat} (hx : Decides ((status, none) :: reasons) x Q) : Decides reasons x Q := by
  cases hx with
  | refused hfirst hstatus hx => exact .refused hfirst hstatus hx
  | done hfirst hx ha => exact .done hfirst hx ha

theorem mono {Q' : α → Prop} (hx : Decides reasons x Q) (h : ∀ a, Q a → Q' a) : Decides reasons x Q' := by
  cases hx with
  | refused hfirst hstatus hx => exact .refused hfirst hstatus hx
  | done hfirst hx ha => exact .done hfirst hx (h _ ha)

end Decides

/-! ## Reasons -/

/-- Texts that are no sequences of characters cannot be looked for and cannot be stored. -/
def torn? (values : List Json) : Option Failure :=
  if values.any Json.isTorn then some (.fault .value) else none

theorem torn?_eq_some {values : List Json} {failure : Failure} :
    torn? values = some failure ↔ (∃ j ∈ values, j.isTorn = true) ∧ failure = .fault .value := by
  rw [torn?, ← List.any_eq_true]
  split
  next h => simp [h, eq_comm]
  next h => simp [h]

theorem torn?_eq_none {values : List Json} : torn? values = none ↔ ∀ j ∈ values, j.isTorn = false := by
  rw [torn?]
  split
  next h =>
    obtain ⟨j, hj, htorn⟩ := List.any_eq_true.1 h
    constructor
    · intro hsome
      cases hsome
    · intro hplain
      rw [hplain j hj] at htorn
      cases htorn
  next h =>
    refine ⟨fun _ j hj => Bool.eq_false_iff.2 fun htorn => h (List.any_eq_true.2 ⟨j, hj, htorn⟩), fun _ => rfl⟩

/-- More identifiers cannot be looked for than one statement of the store takes besides the number of a company. -/
def excess? (identifiers : List Json) : Option Failure :=
  if identifiers.length < Store.maxVariables then none else some (.fault .store)

theorem excess?_eq_some {identifiers : List Json} {failure : Failure} :
    excess? identifiers = some failure ↔ Store.maxVariables ≤ identifiers.length ∧ failure = .fault .store := by
  rw [excess?]
  split
  next hfew => exact iff_of_false nofun fun h => absurd hfew (Nat.not_lt.2 h.1)
  next hmany => simp [Nat.not_lt.1 hmany, eq_comm]

theorem excess?_eq_none {identifiers : List Json} :
    excess? identifiers = none ↔ identifiers.length < Store.maxVariables := by
  rw [excess?]
  split
  next hfew => exact iff_of_true rfl hfew
  next hmany => exact iff_of_false nofun hmany

theorem excess?_of_many {identifiers : List Json} (hmany : Store.maxVariables ≤ identifiers.length) :
    excess? identifiers = some (.fault .store) :=
  excess?_eq_some.2 ⟨hmany, rfl⟩

theorem Members.values?_ofTexts (texts : List String) : values? (ofTexts texts) = some (texts.map Json.str) := by
  rw [ofTexts, values?, if_pos (by simp [Json.fieldOrNull, Json.field?]), List.map_map]
  rfl

namespace Json

/-- What a document says for the natural key. -/
def key (document : Json) : Kind → Json
  | .user => (document.fieldOrNull "emails").firstOrNull.fieldOrNull "value"
  | .group => document.fieldOrNull "displayName"

/-- What identifies the members that a document gives a group; what counts as the same is listed once. -/
def members (document : Json) : Kind → List Json
  | .user => []
  | .group => ((Members.values? (document.fieldOrNull "members")).getD []).eraseDupsBy Json.same

/-- Members that are identified by different texts are identified by all of them. -/
theorem members_of_ofTexts {document : Json} {texts : List String} (hnodup : texts.Nodup)
    (hmembers : document.fieldOrNull "members" = Members.ofTexts texts) :
    document.members .group = texts.map Json.str := by
  have hidentifiers := identifiers?_eq (Members.areTexts_ofTexts texts)
  rw [Members.identifiers?_eq_values?, Members.texts?_ofTexts, Option.map_some,
    eraseDups_of_nodup hnodup] at hidentifiers
  obtain ⟨values, hvalues, hdistinct⟩ := Option.map_eq_some_iff.1 hidentifiers
  rw [members, hmembers, hvalues, Option.getD_some, hdistinct]

/-- All texts are sequences of characters that a document gives for what is stored or identifies members. -/
structure IsPlain (document : Json) (k : Kind) : Prop where
  members : ∀ j ∈ document.members k, j.isTorn = false
  attributes : ∀ p ∈ document.attributes k, p.2.isTorn = false

instance (document : Json) (k : Kind) : Decidable (document.IsPlain k) :=
  decidable_of_iff ((∀ j ∈ document.members k, j.isTorn = false) ∧ ∀ p ∈ document.attributes k, p.2.isTorn = false)
    ⟨fun h => ⟨h.1, h.2⟩, fun h => ⟨h.members, h.attributes⟩⟩

/-- A group whose members are identified by different texts. -/
theorem IsPlain.of_ofTexts {document : Json} {texts : List String} (hnodup : texts.Nodup)
    (hmembers : document.fieldOrNull "members" = Members.ofTexts texts)
    (hattributes : ∀ p ∈ document.attributes .group, p.2.isTorn = false) : document.IsPlain .group := by
  refine ⟨fun j hj => ?_, hattributes⟩
  rw [members_of_ofTexts hnodup hmembers] at hj
  obtain ⟨text, -, rfl⟩ := List.mem_map.1 hj
  rfl

theorem key_mem_attributes (document : Json) (k : Kind) : (Column.key k, document.key k) ∈ document.attributes k := by
  cases k <;> simp [attributes, key, Column.key]

/-- The status makes no sense. -/
def unclear? (document : Json) : Option Failure :=
  if (document.fieldOrNull "active").status?.isSome then none
  else some (.refused (.active (document.fieldOrNull "active")))

/-- Attributes are missing. -/
def incomplete? (document : Json) (k : Kind) : Option Failure :=
  match document.missing k with
  | [] => none
  | names => some (.refused (.missingAttributes names))

end Json

/-- A list of members has to be an array of objects that each give a value. -/
def Members.malformed? (members : Json) (expected : String) : Option Failure :=
  if (values? members).isSome then none else some (.refused (.members expected))

/-- The first of the identifiers that names no user of the company. -/
def Store.unknown? (s : Store) (owner : Company) (identifiers : List Json) : Option Failure :=
  (identifiers.find? fun j => !(s.owned .user owner).any fun u => u.uuid == j.text).map fun j => .refused (.notFound j)

/-! ## What is decided by them -/

/-- Naming rows one by one fails at the first identifier that names none. -/
theorem mapM_namedBy_cases (key : Row k → String) (rows : List (Row k)) (identifiers : List Json) :
    match identifiers.find? fun j => !rows.any fun r => key r == j.text with
    | some j => identifiers.mapM (namedBy key rows) = .error (.refused (.notFound j))
    | none => ∃ found, identifiers.mapM (namedBy key rows) = .ok found := by
  induction identifiers with
  | nil => exact ⟨[], rfl⟩
  | cons identifier rest ih =>
    rw [List.mapM_cons]
    cases hany : rows.any fun r => key r == identifier.text with
    | false =>
      have hnamed : namedBy key rows identifier = .error (.refused (.notFound identifier)) :=
        namedBy_eq_error fun r hr e => List.any_eq_false.1 hany r hr (beq_iff_eq.2 e)
      rw [List.find?_cons_of_pos (by rw [hany]; rfl), hnamed]
      rfl
    | true =>
      obtain ⟨r, hr⟩ : ∃ r, namedBy key rows identifier = .ok r := by
        obtain ⟨r, hr⟩ := Option.isSome_iff_exists.1 (List.find?_isSome.2 (List.any_eq_true.1 hany))
        exact ⟨r, by rw [namedBy, hr]⟩
      rw [List.find?_cons_of_neg (by rw [hany]; exact Bool.false_ne_true), hr, ok_bind]
      split at ih
      next j _ =>
        rw [ih]
        rfl
      next _ =>
        obtain ⟨found, hfound⟩ := ih
        exact ⟨r :: found, by rw [hfound]; rfl⟩

theorem mapM_named_cases (rows : List (Row k)) (identifiers : List Json) :
    match identifiers.find? fun j => !rows.any fun r => r.uuid == j.text with
    | some j => identifiers.mapM (named rows) = .error (.refused (.notFound j))
    | none => ∃ found, identifiers.mapM (named rows) = .ok found :=
  mapM_namedBy_cases Row.uuid rows identifiers

section Standard

variable {ctx : Context} (h : ctx.config.IsStandard)

include h

/-- The users that identifiers name. -/
theorem decides_resolve (s : Store) (owner : Company) {identifiers : List Json}
    (hplain : ∀ j ∈ identifiers, j.isTorn = false) :
    Decides [(500, excess? identifiers), (404, s.unknown? owner identifiers)]
      (s.resolve ctx.config owner identifiers) fun users =>
        users.map Row.uuid = identifiers.map Json.text ∧ ∀ u ∈ users, u ∈ s.owned .user owner := by
  refine .cons ?_ fun hfew => .cons ?_ fun hknown => ?_
  · intro failure hfailure
    obtain ⟨hmany, rfl⟩ := excess?_eq_some.1 hfailure
    exact ⟨s.resolve_many h owner hmany, rfl⟩
  all_goals
    have hresolve := s.resolve_eq h owner (excess?_eq_none.1 hfew) hplain
    have hnamed := mapM_named_cases (s.owned .user owner) identifiers
  · intro failure hfailure
    obtain ⟨j, hj, rfl⟩ := Option.map_eq_some_iff.1 hfailure
    rw [hj] at hnamed
    refine ⟨hresolve.trans hnamed, ?_⟩
    have hj := hplain j (List.mem_of_find?_eq_some hj)
    cases j
    case torn => cases hj
    all_goals rfl
  · rw [Option.map_eq_none_iff.1 hknown] at hnamed
    obtain ⟨users, husers⟩ := hnamed
    have hresolve := hresolve.trans husers
    exact .nil hresolve ⟨map_uuid_of_mapM_named husers, s.mem_owned_of_resolve h owner hresolve⟩

/-- The users that a list of members names. -/
theorem decides_listed (s : Store) (owner : Company) {members : Json} (expected : String)
    (hplain : ∀ j ∈ ((Members.values? members).getD []).eraseDupsBy Json.same, j.isTorn = false) :
    Decides [(400, Members.malformed? members expected),
        (500, excess? (((Members.values? members).getD []).eraseDupsBy Json.same)),
        (404, s.unknown? owner (((Members.values? members).getD []).eraseDupsBy Json.same))]
      (s.listed ctx.config owner members expected) fun users =>
        users.map Row.uuid = (((Members.values? members).getD []).eraseDupsBy Json.same).map Json.text ∧
          ∀ u ∈ users, u ∈ s.owned .user owner := by
  rw [Store.listed, Members.identifiers, Members.identifiers?_eq_values?, Members.malformed?]
  cases hvalues : Members.values? members with
  | none => exact .refused rfl rfl rfl
  | some values =>
    rw [hvalues] at hplain
    refine .cons ?_ fun _ => decides_resolve h s owner hplain
    intro failure hfailure
    cases hfailure

/-- The first resource that a natural key finds. -/
theorem decides_findBy (s : Store) (owner : Company) (k : Kind) (key : Json) :
    Decides [(500, torn? [key])]
      (s.findBy k owner (ctx.config.resource k).naturalKey key (ctx.config.resource k).ignoreCase) fun found =>
        found = (s.owned k owner).find? fun r => recognises k r.key key.text := by
  refine .cons ?_ fun hplain => ?_
  · intro failure hfailure
    obtain ⟨⟨j, hj, htorn⟩, rfl⟩ := torn?_eq_some.1 hfailure
    obtain rfl := List.mem_singleton.1 hj
    exact ⟨s.findBy_key_of_torn h owner htorn, rfl⟩
  · exact .nil (s.findBy_key_of_plain h owner (torn?_eq_none.1 hplain key List.mem_cons_self)) rfl

omit h in
theorem decides_status (document : Json) :
    Decides [(400, document.unclear?)]
      ((parseActive (document.fieldOrNull "active")).mapError Failure.refused) fun status =>
        (document.fieldOrNull "active").status? = some status := by
  rw [parseActive_eq, Json.unclear?]
  cases hstatus : (document.fieldOrNull "active").status? with
  | none => exact .refused rfl rfl rfl
  | some status => exact .done rfl rfl rfl

theorem decides_attributes (hobject : document.isObject = true)
    (htexts : ∀ p ∈ document.attributes k, p.2 = .null ∨ p.2.isText = true) :
    Decides [(422, document.incomplete? k)]
      (((ctx.config.resource k).complete document).mapError Failure.refused) fun attributes =>
        attributes = (Schema.writable k).extract document ∧ ∀ p ∈ document.attributes k, p.2.isText = true := by
  rw [h.complete_eq hobject, Json.incomplete?]
  cases hmissing : document.missing k with
  | nil =>
    refine .done rfl rfl ⟨rfl, fun p hp => (htexts p hp).resolve_left fun hnull => ?_⟩
    have hfilter := List.map_eq_nil_iff.1 hmissing
    have := List.filter_eq_nil_iff.1 hfilter p hp
    exact this (decide_eq_true (.inl hnull))
  | cons name names => exact .refused rfl rfl rfl

omit h in
theorem Json.IsPlain.exists_str (hplain : document.IsPlain k)
    (htexts : ∀ p ∈ document.attributes k, p.2.isText = true) :
    ∀ p ∈ document.attributes k, ∃ text, p.2 = .str text := by
  intro p hp
  have htext := htexts p hp
  have hplain := hplain.attributes p hp
  obtain ⟨c, value⟩ := p
  cases value
  case str text => exact ⟨text, rfl⟩
  case torn points => cases hplain
  all_goals cases htext

end Standard

/-- A row that has been written is given its status and its members. -/
theorem Store.exists_completed {clock : Nat} (hr : r.written clock document ∈ (s.table k).rows) {status : Option Bool}
    (hstatus : (document.fieldOrNull "active").status? = some status)
    (members : Store → (k : Kind) → Row k → Store) :
    ∃ t, s.Rewrites (r.written clock document) (r.replaced clock document) t ∧
      s.completed clock (r.written clock document) status members =
        .ok (r.replaced clock document, members t k (r.replaced clock document)) := by
  obtain ⟨t, hsettled, hw⟩ := exists_settled clock hr status
  rw [Row.marked_written r clock hstatus] at hsettled hw
  refine ⟨t, hw, ?_⟩
  rw [completed, hsettled]
  rfl

end Roster
