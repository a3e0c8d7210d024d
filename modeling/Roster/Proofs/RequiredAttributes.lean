import Roster.Proofs.Commutation
import Roster.Proofs.NaturalKeys
import Roster.Proofs.UniqueAddresses

/-!
Required attributes.

A resource that is created or replaced has all its required attributes, and none of them is empty. An operation of
a PATCH request writes what it is given, and this may be the empty text. Only this text leaves a column empty, so
an attribute is empty in the end exactly if the last operation with a value for it has given it none.
-/

set_option autoImplicit false

namespace Roster

variable {k : Kind}

/-! ## Texts in columns -/

namespace Number

theorem Decimal.layOut_ne_nil (style : Style) (d : Decimal) : d.layOut style ≠ [] := by
  unfold layOut
  split
  · split
    · exact List.cons_ne_nil _ _
    · split <;> simp
  · simp [exponentText]

theorem integerText_ne_empty (n : Int) : integerText n ≠ "" := by
  intro h
  unfold integerText at h
  split at h
  next n => exact Nat.toDigits_ne_nil (String.ofList_eq_empty_iff.1 h)
  next n => exact List.cons_ne_nil _ _ (String.ofList_eq_empty_iff.1 h)

theorem Double.storedText?_ne_empty (x : Double) : x.storedText? ≠ some "" := by
  intro h
  unfold storedText? at h
  split at h
  · cases h
  · split at h <;> exact absurd (Option.some.inj h) (by decide)
  · split at h
    · exact absurd (Option.some.inj h) (by decide)
    · dsimp only at h
      have hbody := String.ofList_eq_empty_iff.1 (Option.some.inj h)
      split at hbody
      · exact List.cons_ne_nil _ _ hbody
      · exact Decimal.layOut_ne_nil _ _ hbody

end Number

/-- Nothing but the empty text is stored as the empty text. -/
theorem Cell.ofJson_eq_empty_iff (value : Json) :
    Cell.ofJson .text value = .ok (.text "") ↔ value = .str "" := by
  constructor
  · intro h
    cases value with
    | str text =>
      cases h
      rfl
    | bool b =>
      cases b <;> exact absurd (Except.ok.inj h) (by decide)
    | int n =>
      rw [Cell.ofJson] at h
      split at h
      · exact absurd (Cell.text.inj (Except.ok.inj h)) (Number.integerText_ne_empty n)
      · cases h
    | double x =>
      rw [Cell.ofJson] at h
      cases htext : x.storedText? with
      | none =>
        rw [htext] at h
        cases h
      | some text =>
        rw [htext] at h
        have hempty : text = "" := Cell.text.inj (Except.ok.inj h)
        rw [hempty] at htext
        exact absurd htext x.storedText?_ne_empty
    | null => cases h
    | torn points => cases h
    | arr items => cases h
    | obj fields => cases h
  · rintro rfl
    rfl

/-! ## Required attributes of rows -/

/-- The column of an attribute that every resource of its kind has. -/
def Column.isRequired : Column k → Bool
  | .firstName | .lastName | .displayName | .email => true
  | _ => false

theorem Column.isProfile_of_isRequired {c : Column k} (hc : c.isRequired = true) : c.isProfile = true := by
  cases c <;> first | rfl | cases hc

/-- No required attribute is empty. -/
def Profile.isFilled : Profile k → Bool
  | .user firstName lastName email _ => firstName != "" && lastName != "" && email != ""
  | .group displayName email => displayName != "" && email != ""

/-- A column of a row says the empty text. -/
def Row.lacks (r : Row k) (c : Column k) : Prop :=
  (r.get c).json = .str ""

theorem Row.exists_text (r : Row k) {c : Column k} (hc : c.isRequired = true) : ∃ text, r.get c = .text text := by
  obtain ⟨_, _, _, profile, _, _, _⟩ := r
  cases profile <;> cases c <;> first | exact ⟨_, rfl⟩ | cases hc

theorem Row.isFilled_iff (r : Row k) :
    r.profile.isFilled = true ↔ ∀ c : Column k, c.isRequired = true → ¬r.lacks c := by
  obtain ⟨_, _, _, profile, _, _, _⟩ := r
  cases profile with
  | user firstName lastName email alternate =>
    simp only [Profile.isFilled, Bool.and_eq_true, bne_iff_ne]
    constructor
    · rintro ⟨⟨hfirst, hlast⟩, hemail⟩ c hc hlacks
      cases c with
      | firstName => exact hfirst (Json.str.inj hlacks)
      | lastName => exact hlast (Json.str.inj hlacks)
      | email => exact hemail (Json.str.inj hlacks)
      | _ => cases hc
    · intro hall
      refine ⟨⟨?_, ?_⟩, ?_⟩
      · rintro rfl
        exact hall .firstName rfl rfl
      · rintro rfl
        exact hall .lastName rfl rfl
      · rintro rfl
        exact hall .email rfl rfl
  | group displayName email =>
    simp only [Profile.isFilled, Bool.and_eq_true, bne_iff_ne]
    constructor
    · rintro ⟨hname, hemail⟩ c hc hlacks
      cases c with
      | displayName => exact hname (Json.str.inj hlacks)
      | email => exact hemail (Json.str.inj hlacks)
      | _ => cases hc
    · intro hall
      refine ⟨?_, ?_⟩
      · rintro rfl
        exact hall .displayName rfl rfl
      · rintro rfl
        exact hall .email rfl rfl

/-- Whether an attribute is empty depends on the value that is given for it, or else on what was there. -/
theorem Store.lacks_of_update {s s' : Store} {clock : Nat} {r r' : Row k} {attributes : Schema.Values}
    (hnodup : (attributes.map Prod.fst).Nodup) (h : s.update clock r attributes = .ok (r', s')) {c : Column k}
    (hc : c.isRequired = true) :
    r'.lacks c ↔ (attributes.lookup c.name).getD (r.get c).json = .str "" := by
  have htype : c.type = .text := type_of_isProfile (Column.isProfile_of_isRequired hc)
  have hget := get_of_update hnodup h (c := c) (by rintro rfl; cases hc)
  rw [Row.lacks]
  cases hvalue : attributes.lookup c.name with
  | none =>
    rw [hvalue] at hget
    rw [hget, Option.getD_none]
  | some value =>
    rw [hvalue] at hget
    rw [Option.getD_some]
    rcases hget with ⟨hunchanged, hget⟩ | hcell
    · obtain ⟨text, htext⟩ := r.exists_text hc
      rw [unchanged, htext] at hunchanged
      rw [hget, htext, eq_str_of_same hunchanged]
      rfl
    · obtain ⟨text, htext⟩ := r'.exists_text hc
      rw [htype, htext] at hcell
      rw [← Cell.ofJson_eq_empty_iff value, hcell, htext]
      simp [Cell.json]

/-! ## Complete resources -/

theorem Config.IsStandard.name_mem_required {c : Config} (h : c.IsStandard) {column : Column k}
    (hc : column.isRequired = true) : column.name ∈ (c.resource k).required := by
  rw [h.required, List.mem_eraseDups]
  cases k <;> cases column <;> first | (cases hc; done) | decide +kernel

/-- A complete resource gives every required attribute a value, and not the empty text. -/
theorem Config.IsStandard.exists_of_complete {c : Config} (h : c.IsStandard) {payload : Json}
    {attributes : Schema.Values} (hcomplete : (c.resource k).complete payload = .ok attributes) {column : Column k}
    (hc : column.isRequired = true) :
    ∃ value, attributes.lookup column.name = some value ∧ value.isNull = false ∧ value ≠ .str "" := by
  have hgiven := ResourceConfig.isMissing_of_complete hcomplete (h.name_mem_required hc)
  cases hvalue : attributes.lookup column.name with
  | none =>
    rw [hvalue] at hgiven
    cases hgiven
  | some value =>
    rw [hvalue] at hgiven
    refine ⟨value, rfl, ?_, ?_⟩
    · cases value <;> first | rfl | cases hgiven
    · rintro rfl
      cases hgiven

namespace Store

variable {s s' : Store} {owner : Company} {r r' : Row k} {ctx : Context}

theorem lacks_of_settled {clock : Nat} {status : Option Bool} (h : s.settled clock r status = .ok (r', s'))
    {c : Column k} (hc : c.isRequired = true) : r'.lacks c ↔ r.lacks c := by
  rw [Row.lacks, Row.lacks, get_of_settled h (Column.isProfile_of_isRequired hc)]

theorem isFilled_of_settled {clock : Nat} {status : Option Bool} (h : s.settled clock r status = .ok (r', s'))
    (hr : r.profile.isFilled = true) : r'.profile.isFilled = true := by
  rw [Row.isFilled_iff] at hr ⊢
  intro c hc
  rw [lacks_of_settled h hc]
  exact hr c hc

section Standard

variable (h : ctx.config.IsStandard)

include h

theorem isFilled_of_upserted {payload : Json} {attributes : Schema.Values}
    (hcomplete : (ctx.config.resource k).complete payload = .ok attributes) {clock : Nat} {uuid : String}
    {existing : Option (Row k)} (hupserted : s.upserted clock owner uuid existing attributes = .ok (r, s')) :
    r.profile.isFilled = true := by
  have hnodup : (attributes.map Prod.fst).Nodup := by
    obtain ⟨-, rfl⟩ := ResourceConfig.eq_extract_of_complete hcomplete
    exact Schema.nodup_extract _ payload
  rw [Row.isFilled_iff]
  intro c hc
  obtain ⟨value, hvalue, hnull, hne⟩ := h.exists_of_complete hcomplete hc
  unfold upserted at hupserted
  split at hupserted
  · rw [lacks_of_update hnodup hupserted hc, hvalue]
    exact hne
  · obtain ⟨values, hvalues, hinsert⟩ := bind_eq_ok.1 hupserted
    have hlookup := lookup_columns hvalues c
    rw [hvalue] at hlookup
    have hcell := get_of_insert (nodup_columns hvalues hnodup) hinsert hlookup hnull
    obtain ⟨text, htext⟩ := r.exists_text hc
    rw [type_of_isProfile (Column.isProfile_of_isRequired hc), htext] at hcell
    intro hlacks
    rw [Row.lacks, htext] at hlacks
    rw [Json.str.inj hlacks, Cell.ofJson_eq_empty_iff] at hcell
    exact hne hcell

theorem isFilled_of_created {uuid : String} {payload : Json}
    (hcreated : s.created ctx owner k uuid payload = .ok (r, s')) : r.profile.isFilled = true := by
  obtain ⟨p, hp, hcarried⟩ := bind_eq_ok.1 hcreated
  obtain ⟨hcomplete, -⟩ := creation_eq_ok.1 hp
  obtain ⟨⟨r₁, s₁⟩, hupserted, hcarried⟩ := bind_eq_ok.1 hcarried
  obtain ⟨⟨r₂, s₂⟩, hsettled, e⟩ := map_eq_ok.1 hcarried
  cases e
  exact isFilled_of_settled hsettled (isFilled_of_upserted h hcomplete hupserted)

theorem isFilled_of_rewritten {payload : Json} (hrewritten : s.rewritten ctx owner r payload = .ok (r', s')) :
    r'.profile.isFilled = true := by
  obtain ⟨users, -, hrest⟩ := bind_eq_ok.1 hrewritten
  obtain ⟨status, -, hrest⟩ := bind_eq_ok.1 hrest
  obtain ⟨attributes, hcomplete, hrest⟩ := bind_eq_ok.1 hrest
  obtain ⟨-, -, hrest⟩ := bind_eq_ok.1 hrest
  obtain ⟨⟨r₁, s₁⟩, hupdate, hrest⟩ := bind_eq_ok.1 hrest
  obtain ⟨⟨r₂, t⟩, hsettled, e⟩ := map_eq_ok.1 hrest
  cases e
  have hupserted : s.upserted ctx.clock owner "" (some r) attributes = .ok (r₁, s₁) := hupdate
  exact isFilled_of_settled hsettled (isFilled_of_upserted h (eq_ok_of_mapError hcomplete) hupserted)

end Standard

end Store

/-! ## Operations -/

/-- The value that an operation gives for a column, if it replaces attributes and not the members of a group. -/
def PatchOperation.given? (room : Nat) (o : PatchOperation) (c : Column k) : Option Json :=
  if o.name = "replace" ∧ (k = .group → o.path ≠ some "members") then
    match o.document room (Schema.writable k) with
    | .ok document => ((Schema.writable k).extractPresent document).lookup c.name
    | .error _ => none
  else none

/-- The last value that operations give for a column. -/
def PatchOperation.lastGiven? (room : Nat) (c : Column k) : List PatchOperation → Option Json
  | [] => none
  | o :: rest => (lastGiven? room c rest).or (o.given? room c)

namespace Store

open Step

variable {s s' : Store} {owner : Company} {r r' : Row k} {ctx : Context} (h : ctx.config.IsStandard)

include h

private theorem lacks_of_replaceAttributes {o : PatchOperation}
    (he : effect (replaceAttributes ctx owner r o) s = .ok (r', s')) {c : Column k} (hc : c.isRequired = true) :
    ∃ document, o.document ctx.config.room (Schema.writable k) = .ok document ∧
      (r'.lacks c ↔
        (((Schema.writable k).extractPresent document).lookup c.name).getD (r.get c).json = .str "") := by
  obtain ⟨document, status, r₁, s₁, hdocument, -, hwritten, hsettled⟩ := exists_of_replaceAttributes h he
  refine ⟨document, hdocument, ?_⟩
  rw [lacks_of_settled hsettled hc]
  rw [written] at hwritten
  split at hwritten
  next hempty =>
    cases hwritten
    rw [List.isEmpty_iff.1 hempty]
    rfl
  · obtain ⟨⟨⟩, -, hupdate⟩ := bind_eq_ok.1 hwritten
    exact lacks_of_update ((Schema.writable k).nodup_extractPresent document) hupdate hc

private theorem lacks_of_applyOperation {o : PatchOperation}
    (he : effect (applyOperation ctx owner k r o) s = .ok (r', s')) {c : Column k} (hc : c.isRequired = true) :
    r'.lacks c ↔ (o.given? ctx.config.room c).getD (r.get c).json = .str "" := by
  unfold PatchOperation.given?
  split
  next ho =>
    rw [effect_applyOperation_of_onAttributes ho] at he
    obtain ⟨document, hdocument, hlacks⟩ := lacks_of_replaceAttributes h he hc
    rw [hdocument]
    exact hlacks
  next ho =>
    obtain ⟨-, rfl, -⟩ := members_of_applyOperation h ho he
    rfl

/-- After operations that are carried out, an attribute is empty if the last value that they give for it is, or if
they give none and it was empty before. -/
theorem exists_lacks_of_patched (hr : r ∈ (s.table k).rows) (operations : List PatchOperation) :
    ∃ r', s.Revises r r' (s.patched ctx owner r operations).2 ∧
      ∀ c : Column k, c.isRequired = true →
        (r'.lacks c ↔
          (PatchOperation.lastGiven? ctx.config.room c (s.carried ctx owner r operations)).getD (r.get c).json =
            .str "") := by
  induction operations generalizing s r with
  | nil => exact ⟨r, .refl hr, fun c _ => Iff.rfl⟩
  | cons o rest ih =>
    rw [patched, carried]
    cases he : effect (applyOperation ctx owner k r o) s with
    | error e => exact ⟨r, .refl hr, fun c _ => Iff.rfl⟩
    | ok p =>
      obtain ⟨r₁, s₁⟩ := p
      have hstep : s.Revises r r₁ s₁ := .of_patches (.of_applyOperation h hr he)
      obtain ⟨r', hrest, hlacks⟩ := ih hstep.mem
      refine ⟨r', hstep.trans hrest, fun c hc => ?_⟩
      rw [hlacks c hc]
      dsimp only [PatchOperation.lastGiven?]
      cases PatchOperation.lastGiven? ctx.config.room c (s₁.carried ctx owner r₁ rest) with
      | some value => rfl
      | none => exact lacks_of_applyOperation h he hc

end Store

/-! ## Stores -/

/-- No required attribute of a user or a group is empty. -/
structure Store.Filled (s : Store) : Prop where
  users : ∀ u ∈ s.users.rows, u.profile.isFilled = true
  groups : ∀ g ∈ s.groups.rows, g.profile.isFilled = true

instance (s : Store) : Decidable s.Filled :=
  decidable_of_iff
    ((∀ u ∈ s.users.rows, u.profile.isFilled = true) ∧ ∀ g ∈ s.groups.rows, g.profile.isFilled = true)
    ⟨fun h => ⟨h.1, h.2⟩, fun h => ⟨h.users, h.groups⟩⟩

namespace Store.Filled

variable {s s' : Store} {owner : Company} {r r' : Row k}

theorem row (h : s.Filled) {k : Kind} {r : Row k} (hr : r ∈ (s.table k).rows) : r.profile.isFilled = true := by
  cases k with
  | user => exact h.users r hr
  | group => exact h.groups r hr

theorem of_rows (h : ∀ (k : Kind), ∀ r ∈ (s.table k).rows, r.profile.isFilled = true) : s.Filled :=
  ⟨h .user, h .group⟩

/-- It is enough to look at the row that has been written. -/
theorem revises_iff (h : s.Filled) (hr : s.Revises r r' s') : s'.Filled ↔ r'.profile.isFilled = true := by
  refine ⟨fun h' => h'.row hr.mem, fun hfilled => of_rows fun k' x hx => ?_⟩
  by_cases hk : k' = k
  · subst hk
    rw [hr.rows] at hx
    rcases Table.mem_overwritten hx with rfl | ⟨hx, -⟩
    · exact hfilled
    · exact h.row hx
  · rw [hr.others hk] at hx
    exact h.row hx

theorem writes (h : s.Filled) (hw : s.Spares owner k r.id s') (hr : r ∈ (s'.table k).rows)
    (hfilled : r.profile.isFilled = true) : s'.Filled := by
  refine of_rows fun k' x hx => ?_
  by_cases hk : k' = k
  · subst hk
    by_cases hid : x.id = r.id
    · rw [Table.eq_of_id hx hr hid]
      exact hfilled
    · exact h.row ((hw.mem_rows hid).1 hx)
  · rw [hw.others k' hk] at hx
    exact h.row hx

theorem erase (h : s.Filled) (r : Row k) : (s.erase k r).Filled := by
  refine of_rows fun k' x hx => ?_
  by_cases hk : k' = k
  · subst hk
    rw [rows_table_erase] at hx
    exact h.row (List.mem_filter.1 hx).1
  · rw [s.table_erase_of_ne r hk] at hx
    exact h.row hx

end Store.Filled

/-! ## Requests -/

namespace Store

variable {s : Store} {ctx : Context} {owner : Company} {identifier : Json}

/-- A PATCH request leaves a required attribute empty: its operations are committed, and the last value that those
carried out give for the attribute is the empty text. -/
def Empties (s : Store) (ctx : Context) (owner : Company) (k : Kind) (identifier : Json)
    (operations : List PatchOperation) : Prop :=
  ((s.attempted ctx owner k identifier (.patch operations)).1.isOk || !ctx.config.atomicPatch) = true ∧
    ∃ r : Row k, s.found ctx.config owner k identifier = .ok r ∧
      ∃ c : Column k, c.isRequired = true ∧
        PatchOperation.lastGiven? ctx.config.room c (s.carried ctx owner r operations) = some (.str "")

namespace Filled

variable (h : ctx.config.IsStandard) (hs : s.Filled)

include h hs

theorem leftBy_created (uuid : String) (payload : Json) : (s.leftBy (s.created ctx owner k uuid payload)).Filled := by
  cases hcreated : s.created ctx owner k uuid payload with
  | error e => exact hs
  | ok p =>
    have hmem := mem_rows_of_owned (mem_owned_of_created h hcreated)
    exact hs.writes (alters_of_created h hcreated).toSpares hmem (isFilled_of_created h hcreated)

theorem leftBy_replaced (payload : Json) : (s.leftBy (s.replaced ctx owner k identifier payload)).Filled := by
  rw [replaced_eq]
  cases hget : s.get ctx.config k owner identifier with
  | error e => exact hs
  | ok r =>
    rw [ok_bind]
    cases hrewritten : s.rewritten ctx owner r payload with
    | error e => exact hs
    | ok p =>
      have hr := mem_rows_of_owned (mem_owned_of_get h hget)
      exact (hs.revises_iff (.of_rewritten h owner hr hrewritten)).2 (isFilled_of_rewritten h hrewritten)

omit h in
theorem leftBy_deleted (c : Config) : (s.leftBy (s.deleted c owner k identifier)).Filled := by
  rw [deleted]
  cases s.get c k owner identifier with
  | error e => exact hs
  | ok r => exact hs.erase r

theorem attempted_patch_iff (operations : List PatchOperation) :
    (s.attempted ctx owner k identifier (.patch operations)).2.Filled ↔
      ¬s.Empties ctx owner k identifier operations := by
  rw [Empties]
  cases hfound : s.found ctx.config owner k identifier with
  | error failure =>
    rw [attempted_of_error hfound]
    refine ⟨?_, fun _ => hs⟩
    rintro - ⟨-, r, hr, -⟩
    cases hr
  | ok r =>
    have hr := mem_rows_of_owned (mem_owned_of_get h (found_eq_ok.1 hfound).2)
    obtain ⟨r', hrevises, hlacks⟩ := exists_lacks_of_patched h hr operations
    rw [attempted_of_ok hfound, edited, isOk_map]
    dsimp only
    split
    next hcommitted =>
      -- Nothing was empty before, so an attribute is empty only if an operation has given it the empty text.
      have hlast (c : Column k) (hc : c.isRequired = true) : r'.lacks c ↔
          PatchOperation.lastGiven? ctx.config.room c (s.carried ctx owner r operations) = some (.str "") := by
        have hbefore : ¬r.lacks c := r.isFilled_iff.1 (hs.row hr) c hc
        rw [hlacks c hc]
        cases PatchOperation.lastGiven? ctx.config.room c (s.carried ctx owner r operations) with
        | some value => rw [Option.getD_some, Option.some.injEq]
        | none =>
          rw [Option.getD_none]
          exact iff_of_false hbefore (Option.some_ne_none _).symm
      rw [hs.revises_iff hrevises, Row.isFilled_iff]
      constructor
      · rintro hfilled ⟨-, r₁, hr₁, c, hc, hempty⟩
        cases hr₁
        exact hfilled c hc ((hlast c hc).2 hempty)
      · intro hnone c hc hempty
        exact hnone ⟨hcommitted, r, rfl, c, hc, (hlast c hc).1 hempty⟩
    next hcommitted =>
      refine ⟨?_, fun _ => hs⟩
      rintro - ⟨hanswered, -⟩
      exact hcommitted hanswered

end Filled

end Store

/-! ## Runs -/

namespace Directory

/-- A call leaves a required attribute empty. -/
def Empties (c : Config) (d : Directory) (call : Call) : Prop :=
  match call.request with
  | .patch k identifier operations => d.store.Empties ⟨c, call.clock⟩ call.owner k identifier operations
  | _ => False

variable {c : Config} (h : c.IsStandard) {d : Directory} (hd : d.store.Filled)

include h hd

/-- No other request than one to patch a resource empties anything. -/
private theorem filled_afterCall_iff (call : Call) : (d.afterCall c call).store.Filled ↔ ¬d.Empties c call := by
  obtain ⟨clock, owner, request⟩ := call
  have hctx : (Context.mk c clock).config.IsStandard := h
  have hkept (hanswer : ∀ pager, (d.answer ⟨c, clock⟩ owner pager request).2.store.Filled) :
      (d.afterCall c ⟨clock, owner, request⟩).store.Filled := by
    rw [afterCall]
    rcases perform_cases hctx d owner request with ⟨e, -, -, hleft⟩ | ⟨pager, -, -, hleft⟩
    · rw [hleft]
      exact hd
    · rw [hleft]
      exact hanswer pager
  cases request with
  | patch k identifier operations =>
    have hleft : (d.afterCall c ⟨clock, owner, .patch k identifier operations⟩).store = _ :=
      congrArg Directory.store (directory_edit hctx (.patch operations))
    rw [hleft]
    exact hd.attempted_patch_iff hctx operations
  | list k filter start count => exact iff_of_true (hkept fun _ => hd) not_false
  | «show» k identifier => exact iff_of_true (hkept fun _ => hd) not_false
  | create k payload => exact iff_of_true (hkept fun _ => hd.leftBy_created hctx _ payload) not_false
  | replace k identifier payload => exact iff_of_true (hkept fun _ => hd.leftBy_replaced hctx payload) not_false
  | delete k identifier => exact iff_of_true (hkept fun _ => hd.leftBy_deleted c) not_false

end Directory

/-- If no required attribute is empty in the beginning, none is throughout a run, exactly if no call of the run
leaves one empty: a PATCH request that gives it the empty text in the end. -/
theorem filled_throughout_iff {s : Settings} {c : Config} (hb : Config.build s = .ok c)
    (hs : s.customUserAttributes = []) {d : Directory} (hd : d.store.Filled) (calls : List Call) :
    (∀ past, past <+: calls → (d.after c past).store.Filled) ↔
      ∀ past call, past ++ [call] <+: calls → ¬(d.after c past).Empties c call := by
  have h := Config.isStandard_of_build hb hs
  have hstep (past : List Call) (call : Call) : d.after c (past ++ [call]) = (d.after c past).afterCall c call := by
    rw [Directory.after, List.foldl_append]
    rfl
  constructor
  · intro hfilled past call hpast
    have hbefore := hfilled past ((List.prefix_append past [call]).trans hpast)
    have hafter := hfilled (past ++ [call]) hpast
    rw [hstep] at hafter
    exact (Directory.filled_afterCall_iff h hbefore call).1 hafter
  · intro hkept past
    induction past using List.reverseRecOn with
    | nil => exact fun _ => hd
    | append_singleton past call ih =>
      intro hpast
      have hbefore := ih ((List.prefix_append past [call]).trans hpast)
      rw [hstep]
      exact (Directory.filled_afterCall_iff h hbefore call).2 (hkept past call hpast)

/-- Operations that give the first name of the first user the values, one after the other. -/
private def firstNames (names : List String) : Call :=
  ⟨5, Sample.acme, .patch .user (.str "u1")
    (names.map fun name => ⟨"Replace", some "name.givenName", some (.str name)⟩)⟩

/-- A name that is emptied and then given again is not empty in the end. -/
theorem filled_throughout_iff_sample :
    (Sample.directory.after (Sample.config true) [firstNames ["", "Ann"]]).store.Filled := by
  have hfilled : Sample.directory.store.Filled := by decide
  refine (filled_throughout_iff (Sample.build_config true) rfl hfilled [firstNames ["", "Ann"]]).2 ?_ _
    (List.prefix_refl _)
  rintro past call ⟨rest, hrest⟩
  cases past with
  | cons first later => simp at hrest
  | nil =>
    obtain ⟨rfl, -⟩ := List.cons.inj hrest
    rintro ⟨-, r, hr, c, hc, hempty⟩
    have hfound : Sample.store.found (Sample.config true) Sample.acme .user (.str "u1") = .ok Sample.ada := by
      decide +kernel
    cases hfound.symm.trans hr
    cases c <;> first | (cases hc; done) | exact absurd hempty (by decide +kernel)

/-- The condition cannot be left out: an operation with the empty text empties the name of a user. -/
theorem not_filled_throughout :
    ¬∀ {s : Settings} {c : Config}, Config.build s = .ok c → s.customUserAttributes = [] →
      ∀ {d : Directory}, d.store.Filled → ∀ calls : List Call, (d.after c calls).store.Filled := by
  intro hfilled
  have hafter := hfilled (Sample.build_config true) rfl (d := Sample.directory) (by decide) [firstNames [""]]
  exact absurd hafter (by decide +kernel)

end Roster
