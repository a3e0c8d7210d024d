import Roster.Proofs.Attributes
import Roster.Proofs.Lookup
import Roster.Proofs.Requests
import Roster.Proofs.Values

/-!
Rows by their natural keys.

Users are known by their addresses and groups by their names. The store folds the case of the addresses that it
holds by the plain mapping, and the address that is looked for is folded by the full one; on texts of ASCII
characters the two mappings are one.
-/

set_option autoImplicit false

namespace Roster

variable {k : Kind}

/-! ## Folding case -/

def Text.isAscii (text : List Char) : Bool :=
  text.all fun c => c.toNat < 128

theorem Text.lowerChar_of_ascii {c : Char} (hc : c.toNat < 128) : Text.lowerChar c = c.toLower := by
  have hall : ∀ n : Fin 128, Text.lowerChar (Char.ofNat n) = (Char.ofNat n).toLower := by decide +kernel
  have hlower := hall ⟨c.toNat, hc⟩
  rw [Char.ofNat_toNat] at hlower
  exact hlower

private theorem lowerAfter_of_ascii (before : List Char) {text : List Char} (h : Text.isAscii text = true) :
    Text.lowerAfter before text = text.map Char.toLower := by
  induction text generalizing before with
  | nil => rfl
  | cons c rest ih =>
    rw [Text.isAscii, List.all_cons, Bool.and_eq_true, decide_eq_true_iff] at h
    obtain ⟨hc, hrest⟩ := h
    have hsigma : (c == 'Σ') = false := by
      rw [beq_eq_false_iff_ne]
      rintro rfl
      exact absurd hc (by decide)
    have hdotted : (c == 'İ') = false := by
      rw [beq_eq_false_iff_ne]
      rintro rfl
      exact absurd hc (by decide)
    rw [Text.lowerAfter, hsigma, hdotted, ih (c :: before) hrest, Text.lowerChar_of_ascii hc]
    rfl

/-- ASCII letters are all that the plain mapping knows, and the full one does with them as it does. -/
theorem lower_of_ascii {text : List Char} (h : Text.isAscii text = true) :
    Text.lower text = Text.lowerPlain text :=
  lowerAfter_of_ascii [] h

/-! ## Keys -/

/-- The column of the natural key. -/
def Column.key : (k : Kind) → Column k
  | .user => .email
  | .group => .displayName

def Profile.key {k : Kind} : Profile k → String
  | .user _ _ email _ => email
  | .group displayName _ => displayName

/-- The natural key of a row. -/
def Row.key (r : Row k) : String :=
  r.profile.key

theorem get_key (r : Row k) : r.get (Column.key k) = .text r.key := by
  obtain ⟨_, _, _, profile, _, _, _⟩ := r
  cases profile <;> rfl

theorem type_key (k : Kind) : (Column.key k).type = .text := by
  cases k <;> rfl

theorem isProfile_key (k : Kind) : (Column.key k).isProfile = true := by
  cases k <;> rfl

theorem key_eq_of_get {r : Row k} {text : String} (h : r.get (Column.key k) = .text text) : r.key = text :=
  Cell.text.inj ((get_key r).symm.trans h)

theorem Store.key_of_settled {s s' : Store} {r r' : Row k} {clock : Nat} {status : Option Bool}
    (h : s.settled clock r status = .ok (r', s')) : r'.key = r.key :=
  key_eq_of_get ((get_of_settled h (isProfile_key k)).trans (get_key r))

/-- No two users of a company have the same address in any case of the ASCII letters. -/
def Store.AddressesDiffer (s : Store) (owner : Company) : Prop :=
  ∀ u ∈ s.owned .user owner, ∀ v ∈ s.owned .user owner,
    Text.lowerPlain u.key.toList = Text.lowerPlain v.key.toList → u = v

/-- A text that is looked for finds a key. -/
def recognises (k : Kind) (key text : String) : Bool :=
  match k with
  | .user => Text.lowerPlain key.toList == Text.lower text.toList
  | .group => key == text

section Standard

variable {c : Config} (h : c.IsStandard)

include h

theorem Config.IsStandard.naturalKey (k : Kind) : (c.resource k).naturalKey = (Column.key k).name := by
  obtain ⟨⟨s, users, -, hu⟩, ⟨s', groups, hg⟩, -⟩ := h
  cases k
  · exact congrArg ResourceConfig.naturalKey hu
  · exact congrArg ResourceConfig.naturalKey hg

/-- The first row of a company with a natural key. -/
theorem Store.findBy_key (s : Store) (owner : Company) (text : String) :
    s.findBy k owner (c.resource k).naturalKey (.str text) (c.resource k).ignoreCase =
      .ok ((s.owned k owner).find? fun r => recognises k r.key text) := by
  have hcolumn : column k (Column.key k).name = .ok (Column.key k) := by
    rw [column, Column.ofName?_name]
  have hcoerce : coerce (Column.key k).type (.str text) = some (.str text) := by
    rw [type_key]
    rfl
  have htest : ∃ holds, lookupTest (Column.key k).type (decide (k = .user)) (.str text) = .ok holds ∧
      ∀ r : Row k, holds (r.get (Column.key k)) = recognises k r.key text := by
    rw [type_key]
    cases k with
    | user =>
      refine ⟨_, rfl, fun r => ?_⟩
      rw [get_key]
      rfl
    | group =>
      refine ⟨fun cell => compares cell (.text text) (accepted .eq), rfl, fun r => ?_⟩
      rw [get_key]
      exact compares_text r.key text
  obtain ⟨holds, hholds, hrow⟩ := htest
  rw [findBy, h.naturalKey, h.ignoreCase, hcolumn, ok_bind, hcoerce]
  dsimp only
  rw [hholds, ok_bind]
  simp only [hrow]
  rfl

/-- Values that are looked for under a natural key count by their texts. -/
theorem Store.findBy_key_of_plain (s : Store) (owner : Company) {value : Json} (hplain : value.isTorn = false) :
    s.findBy k owner (c.resource k).naturalKey value (c.resource k).ignoreCase =
      .ok ((s.owned k owner).find? fun r => recognises k r.key value.text) := by
  have hcolumn : column k (Column.key k).name = .ok (Column.key k) := by
    rw [column, Column.ofName?_name]
  have hcoerce : coerce (Column.key k).type value = coerce (Column.key k).type (.str value.text) := by
    rw [type_key, coerce_text hplain, coerce_text rfl]
    rfl
  rw [← s.findBy_key h owner value.text, findBy, findBy, h.naturalKey, hcolumn, ok_bind, ok_bind, hcoerce]

theorem Store.findBy_key_of_torn (s : Store) (owner : Company) {value : Json} (htorn : value.isTorn = true) :
    s.findBy k owner (c.resource k).naturalKey value (c.resource k).ignoreCase = .error (.fault .value) := by
  have hcolumn : column k (Column.key k).name = .ok (Column.key k) := by
    rw [column, Column.ofName?_name]
  have htest : lookupTest .text (c.resource k).ignoreCase value = .error (.fault .value) := by
    cases value
    case torn points => rfl
    all_goals cases htorn
  rw [findBy, h.naturalKey, hcolumn, ok_bind, type_key, coerce_torn htorn]
  dsimp only
  rw [htest]
  rfl

/-- Nothing keeps two groups from having one name. -/
theorem Store.checkKey_group (s : Store) (owner : Company) (group : Row .group) (attributes : Schema.Values) :
    s.checkKey c owner group attributes = .ok () := by
  rw [checkKey]
  split
  · rfl
  · rfl
  · rw [h.uniqueKey_group]
    rfl

/-- A user may have an address unless another user is found by it. -/
theorem Store.checkKey_user_eq_ok (s : Store) (owner : Company) (u : Row .user) (attributes : Schema.Values) :
    s.checkKey c owner u attributes = .ok () ↔
      ∀ value, attributes.lookup "email" = some value → value ≠ .null →
        value.isTorn = false ∧
          ∀ x, (s.owned .user owner).find? (fun x => recognises .user x.key value.text) = some x → x.id = u.id := by
  have hname : (c.resource .user).naturalKey = "email" := h.naturalKey .user
  rw [checkKey, h.uniqueKey_user, hname]
  split
  next hnone =>
    simp only [hnone, reduceCtorEq, false_implies, implies_true, iff_true]
    rfl
  next hnull =>
    refine ⟨fun _ value hvalue hne => ?_, fun _ => rfl⟩
    rw [hnull] at hvalue
    exact absurd (Option.some.inj hvalue).symm hne
  next value hnull hlookup =>
    have hgiven : (∀ v, attributes.lookup "email" = some v → v ≠ .null → v.isTorn = false ∧
        ∀ x, (s.owned .user owner).find? (fun x => recognises .user x.key v.text) = some x → x.id = u.id) ↔
        value.isTorn = false ∧
          ∀ x, (s.owned .user owner).find? (fun x => recognises .user x.key value.text) = some x → x.id = u.id := by
      constructor
      · intro hall
        exact hall value hlookup hnull
      · intro hvalue v hv _
        rw [hlookup] at hv
        cases hv
        exact hvalue
    rw [hgiven, if_pos rfl, ← hname]
    cases htorn : value.isTorn with
    | true =>
      rw [s.findBy_key_of_torn h owner htorn]
      simp only [Bool.true_eq_false, false_and, iff_false]
      intro hok
      cases hok
    | false =>
      rw [s.findBy_key_of_plain h owner htorn, ok_bind]
      cases (s.owned .user owner).find? fun x => recognises .user x.key value.text with
      | none =>
        simp only [reduceCtorEq, false_implies, implies_true, and_self, iff_true]
        rfl
      | some x =>
        simp only [Option.some.injEq, forall_eq', true_and]
        by_cases hid : x.id = u.id
        · simp only [hid, bne_self_eq_false, Bool.false_eq_true, if_false, iff_true]
          rfl
        · rw [if_pos (bne_iff_ne.2 hid)]
          simp only [hid, iff_false]
          intro hok
          cases hok

end Standard

/-! ## Writing under a key -/

namespace Store

variable {s s' : Store} {owner : Company} {r : Row k}

/-- Overwriting and inserting both write one row. -/
theorem writes_of_upserted {attributes : Schema.Values} (hprofile : ProfileOnly k attributes)
    {existing : Option (Row k)} (hexisting : ∀ found, existing = some found → found ∈ s.owned k owner) {clock : Nat}
    {uuid : String} (h : s.upserted clock owner uuid existing attributes = .ok (r, s')) : s.Writes owner r s' := by
  rcases upserted_cases hprofile h with ⟨found, hfound, hupdate⟩ | ⟨-, profile, t, rfl, ht, rfl⟩
  · have hmem := hexisting found hfound
    exact (Rewrites.of_update (mem_rows_of_owned hmem) hprofile hupdate).writes hmem
  · exact .of_insert ht rfl

/-- Texts are read again from the row that they have been written to. -/
theorem get_of_upserted_str {attributes : Schema.Values} (hnodup : (attributes.map Prod.fst).Nodup)
    {existing : Option (Row k)} {clock : Nat} {uuid : String}
    (h : s.upserted clock owner uuid existing attributes = .ok (r, s')) {c : Column k} (hc : c.isProfile = true)
    {text : String} (htext : attributes.lookup c.name = some (.str text)) : r.get c = .text text := by
  unfold upserted at h
  split at h
  next => exact get_of_update_str hnodup h (type_of_isProfile hc) htext
  next =>
    obtain ⟨values, hvalues, hinsert⟩ := bind_eq_ok.1 h
    apply get_of_insert_str (nodup_columns hvalues hnodup) hinsert (type_of_isProfile hc)
    rw [lookup_columns hvalues, htext]

/-- A resource that has been created belongs to the company that has created it. -/
theorem mem_owned_of_created {ctx : Context} (h : ctx.config.IsStandard) {uuid : String} {payload : Json}
    (hcreated : s.created ctx owner k uuid payload = .ok (r, s')) : r ∈ s'.owned k owner := by
  obtain ⟨p, hp, hcarried⟩ := bind_eq_ok.1 hcreated
  obtain ⟨hcomplete, -, -, -, key, -, hfind⟩ := creation_eq_ok.1 hp
  have hexisting : ∀ found, p.existing = some found → found ∈ s.owned k owner := by
    intro found hfound
    rw [hfound] at hfind
    exact mem_owned_of_findBy hfind
  obtain ⟨⟨r₁, s₁⟩, hupserted, hcarried⟩ := bind_eq_ok.1 hcarried
  obtain ⟨⟨r₂, s₂⟩, hsettled, e⟩ := map_eq_ok.1 hcarried
  cases e
  have hmem := (writes_of_upserted (h.profileOnly_complete hcomplete) hexisting hupserted).mem
  have hw : s₁.Rewrites r₁ r₂ s₂ := .of_settled (mem_rows_of_owned hmem) hsettled
  rw [owned_withNewMembers]
  exact hw.mem_owned hmem

end Store

end Roster
