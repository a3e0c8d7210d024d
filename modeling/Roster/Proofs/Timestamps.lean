import Roster.Proofs.Commutation
import Roster.Proofs.NaturalKeys
import Roster.Proofs.Values

/-!
Times of rows.

Whatever a request writes of a row, a profile, an archive time or both one after the other, the row gets the time of
the request as the time of its last change; its time of creation stays, and an archive time that comes new is the time
of the request. So along a clock that never goes back a row is created, archived and changed in this order. A request
that says nothing new of a row leaves it as it is, whatever it does to the members of a group.
-/

set_option autoImplicit false

namespace Roster

open Step

variable {k : Kind} {s s' : Store} {ctx : Context} {owner : Company} {clock : Nat}

/-! ## Rows -/

namespace Row

variable {r r' r'' : Row k}

/-- A row has been created, archived if it is, and changed for the last time in this order, by a reading of the
clock. -/
structure Timely (r : Row k) (clock : Nat) : Prop where
  created : r.created ≤ r.updated
  updated : r.updated ≤ clock
  archived : ∀ t, r.archived = some t → r.created ≤ t ∧ t ≤ r.updated

/-- What becomes of a row at a reading of the clock: it keeps the time of its creation, and it is the same row or
has been changed now; it is archived as before, active, or archived now. -/
structure Ages (r : Row k) (clock : Nat) (r' : Row k) : Prop where
  created : r'.created = r.created
  updated : r' = r ∨ r'.updated = clock
  archived : r'.archived = r.archived ∨ r'.archived = none ∨ r'.archived = some clock

/-- A row has been made at a reading of the clock. -/
structure IsNew (r : Row k) (clock : Nat) : Prop where
  created : r.created = clock
  updated : r.updated = clock
  archived : r.archived = none ∨ r.archived = some clock

theorem Ages.refl (r : Row k) (clock : Nat) : r.Ages clock r := ⟨rfl, .inl rfl, .inl rfl⟩

theorem Ages.trans (h : r.Ages clock r') (h' : r'.Ages clock r'') : r.Ages clock r'' := by
  refine ⟨h'.created.trans h.created, ?_, ?_⟩
  · rcases h'.updated with rfl | hupdated
    · exact h.updated
    · exact .inr hupdated
  · rcases h'.archived with hsame | harchived
    · rw [hsame]
      exact h.archived
    · exact .inr harchived

/-- A row that becomes archived or active has been changed. -/
theorem Ages.updated_of_isActive (h : r.Ages clock r') (hactive : r'.isActive ≠ r.isActive) : r'.updated = clock := by
  rcases h.updated with rfl | hupdated
  · exact absurd rfl hactive
  · exact hupdated

theorem IsNew.ages (h : r.IsNew clock) (h' : r.Ages clock r') : r'.IsNew clock := by
  refine ⟨h'.created.trans h.created, ?_, ?_⟩
  · rcases h'.updated with rfl | hupdated
    · exact h.updated
    · exact hupdated
  · rcases h'.archived with hsame | harchived
    · rw [hsame]
      exact h.archived
    · exact harchived

theorem IsNew.timely (h : r.IsNew clock) : r.Timely clock := by
  obtain ⟨hcreated, hupdated, harchived⟩ := h
  refine ⟨by omega, by omega, ?_⟩
  intro t ht
  rcases harchived with hnone | hnow
  · rw [hnone] at ht
    cases ht
  · rw [hnow] at ht
    obtain rfl := Option.some.inj ht
    omega

/-- Times stay in order when the clock does not go back. -/
theorem Timely.ages {now : Nat} (h : r.Timely clock) (hclock : clock ≤ now) (h' : r.Ages now r') : r'.Timely now := by
  have hcreated := h'.created
  have hbefore := h.created
  have hbound := h.updated
  rcases h'.updated with rfl | hupdated
  · exact ⟨h.created, by omega, h.archived⟩
  · refine ⟨by omega, by omega, ?_⟩
    intro t ht
    rcases h'.archived with hsame | hnone | hnow
    · obtain ⟨hfirst, hlast⟩ := h.archived t (hsame ▸ ht)
      omega
    · rw [hnone] at ht
      cases ht
    · rw [hnow] at ht
      obtain rfl := Option.some.inj ht
      omega

end Row

/-! ## Writing -/

namespace Store

variable {r r' : Row k}

theorem ages_of_update (hr : r ∈ (s.table k).rows) {attributes : Schema.Values} (ha : ProfileOnly k attributes)
    (h : s.update clock r attributes = .ok (r', s')) : r.Ages clock r' := by
  rcases update_cases hr ha h with ⟨rfl, -⟩ | ⟨⟨profile, rfl⟩, -⟩
  · exact .refl _ _
  · exact ⟨rfl, .inr rfl, .inl rfl⟩

private theorem mem_withTable_of_insert? {t : Table k} (ht : (s.table k).insert? r = some t) :
    r ∈ ((s.withTable k t).table k).rows := by
  rw [table_withTable]
  exact Table.mem_of_insert? ht

theorem ages_of_settled {status : Option Bool} (h : s.settled clock r status = .ok (r', s')) : r.Ages clock r' := by
  cases status with
  | none =>
    cases h
    exact .refl _ _
  | some active =>
    rw [settled, setActive] at h
    split at h
    · cases h
      exact .refl _ _
    · obtain ⟨t, -, hpure⟩ := bind_eq_ok.1 h
      cases hpure
      refine ⟨rfl, .inr rfl, .inr ?_⟩
      cases active with
      | true => exact .inl rfl
      | false => exact .inr rfl

theorem ages_of_written (hr : r ∈ (s.table k).rows) {attributes : Schema.Values} (ha : ProfileOnly k attributes)
    (h : s.written ctx owner r attributes = .ok (r', s')) : r.Ages ctx.clock r' := by
  rw [written_eq] at h
  obtain ⟨-, -, hupdate⟩ := bind_eq_ok.1 h
  exact ages_of_update hr ha hupdate

/-! ## Stores -/

/-- The times of all rows are in order. -/
def Timely (s : Store) (clock : Nat) : Prop :=
  ∀ (k : Kind), ∀ r ∈ (s.table k).rows, r.Timely clock

/-- What becomes of the rows of a store at a reading of the clock: those that are still there age, and all others are
new. -/
structure Ages (s : Store) (clock : Nat) (s' : Store) : Prop where
  kept : ∀ {k : Kind}, ∀ r ∈ (s.table k).rows, ∀ r' ∈ (s'.table k).rows, r'.id = r.id → r.Ages clock r'
  new : ∀ {k : Kind}, ∀ r' ∈ (s'.table k).rows, (∀ r ∈ (s.table k).rows, r.id ≠ r'.id) → r'.IsNew clock

namespace Ages

theorem refl (s : Store) (clock : Nat) : s.Ages clock s := by
  constructor
  · intro k r hr r' hr' hid
    rw [Table.eq_of_id hr' hr hid]
    exact .refl _ _
  · intro k r' hr' hnone
    exact absurd rfl (hnone r' hr')

/-- It is enough to look at the one row that is spared by no request. -/
theorem of_spares {id : Int} (h : s.Spares owner k id s')
    (hrow : ∀ r' ∈ (s'.table k).rows, r'.id = id →
      (∃ r ∈ (s.table k).rows, r.id = id ∧ r.Ages clock r') ∨
        (∀ r ∈ (s.table k).rows, r.id ≠ id) ∧ r'.IsNew clock) : s.Ages clock s' := by
  constructor
  · intro k' r hr r' hr' hsame
    by_cases hk : k' = k
    · subst hk
      by_cases hid : r'.id = id
      · rcases hrow r' hr' hid with ⟨x, hx, hxid, hages⟩ | ⟨hnone, -⟩
        · rw [Table.eq_of_id hr hx (hsame.symm.trans (hid.trans hxid.symm))]
          exact hages
        · exact absurd (hsame.symm.trans hid) (hnone r hr)
      · rw [Table.eq_of_id ((h.mem_rows hid).1 hr') hr hsame]
        exact .refl _ _
    · rw [h.others k' hk] at hr'
      rw [Table.eq_of_id hr' hr hsame]
      exact .refl _ _
  · intro k' r' hr' hnone
    by_cases hk : k' = k
    · subst hk
      by_cases hid : r'.id = id
      · rcases hrow r' hr' hid with ⟨x, hx, hxid, -⟩ | ⟨-, hnew⟩
        · exact absurd (hxid.trans hid.symm) (hnone x hx)
        · exact hnew
      · exact absurd rfl (hnone r' ((h.mem_rows hid).1 hr'))
    · rw [h.others k' hk] at hr'
      exact absurd rfl (hnone r' hr')

theorem timely {now : Nat} (h : s.Ages now s') (hclock : clock ≤ now) (hs : s.Timely clock) : s'.Timely now := by
  intro k r' hr'
  by_cases hold : ∃ r ∈ (s.table k).rows, r.id = r'.id
  · obtain ⟨r, hr, hid⟩ := hold
    exact (hs k r hr).ages hclock (h.kept r hr r' hr' hid.symm)
  · exact (h.new r' hr' fun r hr hid => hold ⟨r, hr, hid⟩).timely

end Ages

/-! ## Requests -/

section Standard

variable (h : ctx.config.IsStandard)

include h

private theorem ages_of_applyOperation (hr : r ∈ (s.table k).rows) {o : PatchOperation}
    (he : effect (applyOperation ctx owner k r o) s = .ok (r', s')) : r.Ages ctx.clock r' := by
  by_cases ho : o.OnAttributes k
  · rw [effect_applyOperation_of_onAttributes ho] at he
    obtain ⟨document, status, r₁, s₁, -, -, hwritten, hsettled⟩ := exists_of_replaceAttributes h he
    exact (ages_of_written hr (profileOnly_extractPresent k document) hwritten).trans (ages_of_settled hsettled)
  · obtain ⟨-, rfl, -⟩ := members_of_applyOperation h ho he
    exact .refl _ _

private theorem exists_ages_of_patched (owner : Company) (hr : r ∈ (s.table k).rows)
    (operations : List PatchOperation) :
    ∃ r' ∈ ((s.patched ctx owner r operations).2.table k).rows, r'.id = r.id ∧ r.Ages ctx.clock r' := by
  induction operations generalizing s r with
  | nil => exact ⟨r, hr, rfl, .refl _ _⟩
  | cons o rest ih =>
    rw [patched]
    cases he : effect (applyOperation ctx owner k r o) s with
    | error e => exact ⟨r, hr, rfl, .refl _ _⟩
    | ok p =>
      have hstep : s.Revises r p.1 p.2 := .of_patches (.of_applyOperation h hr he)
      obtain ⟨r', hr', hid, hrest⟩ := ih hstep.mem
      exact ⟨r', hr', hid.trans hstep.rewrites.id, (ages_of_applyOperation h hr he).trans hrest⟩

theorem ages_of_patched (hr : r ∈ s.owned k owner) (operations : List PatchOperation) :
    s.Ages ctx.clock (s.patched ctx owner r operations).2 := by
  have hrow := mem_rows_of_owned hr
  refine .of_spares ((Alters.of_mem hr).patched h hr rfl operations).toSpares ?_
  intro x hx hid
  obtain ⟨r', hr', hid', hages⟩ := exists_ages_of_patched h owner hrow operations
  rw [Table.eq_of_id hx hr' (hid.trans hid'.symm)]
  exact .inl ⟨r, hrow, rfl, hages⟩

theorem ages_of_created {uuid : String} {payload : Json} (hcreated : s.created ctx owner k uuid payload = .ok (r, s')) :
    s.Ages ctx.clock s' := by
  refine .of_spares (alters_of_created h hcreated).toSpares ?_
  intro x hx hid
  rw [Table.eq_of_id hx (mem_rows_of_owned (mem_owned_of_created h hcreated)) hid]
  obtain ⟨p, hp, hcarried⟩ := bind_eq_ok.1 hcreated
  obtain ⟨hcomplete, -, -, -, key, -, hexisting⟩ := creation_eq_ok.1 hp
  have hprofile := h.profileOnly_complete hcomplete
  obtain ⟨⟨r₁, s₁⟩, hupserted, hcarried⟩ := bind_eq_ok.1 hcarried
  obtain ⟨⟨r₂, s₂⟩, hsettled, e⟩ := map_eq_ok.1 hcarried
  cases e
  have hage : r₁.Ages ctx.clock r₂ := ages_of_settled hsettled
  rcases upserted_cases hprofile hupserted with ⟨found, hfound, hupdate⟩ | ⟨-, profile, t, rfl, ht, rfl⟩
  · rw [hfound] at hexisting
    have hmem := mem_rows_of_owned (mem_owned_of_findBy hexisting)
    have hw : s.Rewrites found r₁ s₁ := .of_update hmem hprofile hupdate
    have hw' : s₁.Rewrites r₁ r₂ s₂ := .of_settled hw.mem_new hsettled
    exact .inl ⟨found, hmem, (hw'.id.trans hw.id).symm, (ages_of_update hmem hprofile hupdate).trans hage⟩
  · have hw : (s.withTable k t).Rewrites _ r₂ s₂ := .of_settled (mem_withTable_of_insert? ht) hsettled
    refine .inr ⟨?_, Row.IsNew.ages ⟨rfl, rfl, .inl rfl⟩ hage⟩
    intro r hr
    rw [hw.id]
    exact Table.id_ne_of_insert? ht hr

theorem ages_of_replaced {identifier payload : Json}
    (hreplaced : s.replaced ctx owner k identifier payload = .ok (r, s')) : s.Ages ctx.clock s' := by
  obtain ⟨found, hget, hrest⟩ := bind_eq_ok.1 hreplaced
  have hmem := mem_rows_of_owned (mem_owned_of_get h hget)
  have hrevises : s.Revises found r s' := .of_rewritten h owner hmem hrest
  refine .of_spares (alters_of_replaced h hreplaced).toSpares ?_
  intro x hx hid
  rw [Table.eq_of_id hx hrevises.mem hid]
  obtain ⟨users, -, hrest⟩ := bind_eq_ok.1 hrest
  obtain ⟨status, -, hrest⟩ := bind_eq_ok.1 hrest
  obtain ⟨attributes, hattributes, hrest⟩ := bind_eq_ok.1 hrest
  obtain ⟨-, -, hrest⟩ := bind_eq_ok.1 hrest
  obtain ⟨⟨r₁, s₁⟩, hupdate, hrest⟩ := bind_eq_ok.1 hrest
  obtain ⟨⟨r₂, t⟩, hsettled, e⟩ := map_eq_ok.1 hrest
  cases e
  have hprofile : ProfileOnly k attributes := h.profileOnly_complete (eq_ok_of_mapError hattributes)
  exact .inl ⟨found, hmem, hrevises.rewrites.id.symm,
    (ages_of_update hmem hprofile hupdate).trans (ages_of_settled hsettled)⟩

theorem ages_of_deleted {identifier : Json} (hdeleted : s.deleted ctx.config owner k identifier = .ok (r, s'))
    (clock : Nat) : s.Ages clock s' := by
  obtain ⟨r, hget, e⟩ := map_eq_ok.1 hdeleted
  cases e
  refine .of_spares (.of_erase (mem_owned_of_get h hget)) ?_
  intro x hx hid
  rw [rows_table_erase] at hx
  exact absurd hid (by simpa using (List.mem_filter.1 hx).2)

end Standard

end Store

/-! ## What says nothing new -/

/-- A document says nothing new of a row: an attribute that it has a value for is what the row says, and so is the
status that it asks for. -/
structure Row.Agrees (r : Row k) (document : Json) : Prop where
  attributes : ∀ (c : Column k) (value : Json),
    ((Schema.writable k).extractPresent document).lookup c.name = some value → (r.get c).json = value
  status : ∀ active, parseActive (document.fieldOrNull "active") = .ok (some active) → r.isActive = active

/-- An operation is one on members, or its document says nothing new of a row. -/
def PatchOperation.Repeats (room : Nat) (o : PatchOperation) (r : Row k) : Prop :=
  o.OnAttributes k → ∀ document, o.document room (Schema.writable k) = .ok document → r.Agrees document

/-- A request says nothing new of a row. So do in particular all operations on the members of a group. -/
inductive Request.Repeats (room : Nat) (r : Row k) : Request → Prop
  | create {payload : Json} (h : r.Agrees payload) : Repeats room r (.create k payload)
  | replace {identifier payload : Json} (h : r.Agrees payload) : Repeats room r (.replace k identifier payload)
  | patch {identifier : Json} {operations : List PatchOperation} (h : ∀ o ∈ operations, o.Repeats room r) :
    Repeats room r (.patch k identifier operations)

namespace Store

variable {r r' : Row k}

private theorem unchanged_json (r : Row k) {c : Column k} (hc : c.isProfile = true) :
    unchanged r c (r.get c).json = true := by
  have hsame (text : String) : Json.same (.str text) (.str text) = true := beq_self_eq_true text
  obtain ⟨_, _, _, profile, _, _, _⟩ := r
  cases profile with
  | user firstName lastName email alternate =>
    cases c with
    | alternateEmail =>
      cases alternate with
      | none => rfl
      | some text => exact hsame text
    | firstName => exact hsame firstName
    | lastName => exact hsame lastName
    | email => exact hsame email
    | _ => cases hc
  | group displayName email =>
    cases c with
    | displayName => exact hsame displayName
    | email => exact hsame email
    | _ => cases hc

/-- What a row says already is not written. -/
private theorem update_of_said {attributes : Schema.Values} (hprofile : ProfileOnly k attributes)
    (hnodup : (attributes.map Prod.fst).Nodup)
    (hsaid : ∀ (c : Column k) (value : Json), attributes.lookup c.name = some value → (r.get c).json = value)
    (clock : Nat) : s.update clock r attributes = .ok (r, s) := by
  obtain ⟨values, hvalues, hcolumns⟩ := exists_columns_eq_ok (k := k) hprofile
  refine update_of_unchanged hvalues (fun v hv => ?_) clock
  have hlookup : attributes.lookup v.1.name = some v.2 := by
    rw [← lookup_columns hvalues]
    exact lookup_eq_some_of_mem (nodup_columns hvalues hnodup) hv
  rw [← hsaid v.1 v.2 hlookup]
  exact unchanged_json r (hcolumns v hv)

section Standard

variable (h : ctx.config.IsStandard)

include h

private theorem update_of_agrees {payload : Json} {attributes : Schema.Values} (hagrees : r.Agrees payload)
    (hcomplete : (ctx.config.resource k).complete payload = .ok attributes) (clock : Nat) :
    s.update clock r attributes = .ok (r, s) := by
  obtain ⟨-, hextract⟩ := ResourceConfig.eq_extract_of_complete hcomplete
  rw [h.mutableSchema] at hextract
  have hnodup : (attributes.map Prod.fst).Nodup := hextract ▸ (Schema.writable k).nodup_extract payload
  refine update_of_said (h.profileOnly_complete hcomplete) hnodup ?_ clock
  intro c value hvalue
  apply hagrees.attributes
  have hmem : (c.name, value) ∈ (Schema.writable k).extract payload := hextract ▸ mem_of_lookup hvalue
  have hrequired : c.name ∈ (ctx.config.resource k).required := by
    rw [h.required]
    exact List.mem_eraseDups.2 (Schema.name_mem_of_extract hmem)
  have hgiven := ResourceConfig.isMissing_of_complete hcomplete hrequired
  rw [hvalue] at hgiven
  have hnull : value.isNull = false := by
    cases value <;> first | rfl | cases hgiven
  exact lookup_eq_some_of_mem (Schema.nodup_extractPresent _ payload)
    (Schema.mem_extractPresent_of_extract hmem hnull)

private theorem mem_of_applyOperation (hr : r ∈ (s.table k).rows) {o : PatchOperation}
    (ho : o.Repeats ctx.config.room r)
    (he : effect (applyOperation ctx owner k r o) s = .ok (r', s')) : r' = r ∧ r ∈ (s'.table k).rows := by
  by_cases hattributes : o.OnAttributes k
  · rw [effect_applyOperation_of_onAttributes hattributes] at he
    obtain ⟨document, status, r₁, s₁, hdocument, hstatus, hwritten, hsettled⟩ := exists_of_replaceAttributes h he
    have hagrees := ho hattributes document hdocument
    rw [written_eq] at hwritten
    obtain ⟨-, -, hupdate⟩ := bind_eq_ok.1 hwritten
    rw [update_of_said (profileOnly_extractPresent k document) (Schema.nodup_extractPresent _ document)
      hagrees.attributes] at hupdate
    cases hupdate
    have hactive : ∀ active, status = some active → r.isActive = active := by
      rintro active rfl
      exact hagrees.status active hstatus
    rw [settled_of_isActive hactive] at hsettled
    cases hsettled
    exact ⟨rfl, hr⟩
  · obtain ⟨rfl, rfl, memberships, rfl⟩ := members_of_applyOperation h hattributes he
    exact ⟨rfl, hr⟩

private theorem mem_patched (hr : r ∈ (s.table k).rows) {operations : List PatchOperation}
    (hoperations : ∀ o ∈ operations, o.Repeats ctx.config.room r) :
    r ∈ ((s.patched ctx owner r operations).2.table k).rows := by
  induction operations generalizing s with
  | nil => exact hr
  | cons o rest ih =>
    rw [patched]
    cases he : effect (applyOperation ctx owner k r o) s with
    | error e => exact hr
    | ok p =>
      obtain ⟨r', s'⟩ := p
      obtain ⟨rfl, hmem⟩ := mem_of_applyOperation h hr (hoperations o List.mem_cons_self) he
      exact ih hmem fun o' ho' => hoperations o' (List.mem_cons_of_mem o ho')

theorem mem_created_of_agrees (hr : r ∈ (s.table k).rows) {payload : Json} (hagrees : r.Agrees payload)
    {uuid : String} (hcreated : s.created ctx owner k uuid payload = .ok (r', s')) : r ∈ (s'.table k).rows := by
  by_cases hid : r.id = r'.id
  · obtain ⟨p, hp, hcarried⟩ := bind_eq_ok.1 hcreated
    obtain ⟨hcomplete, hstatus, -, -, key, -, hexisting⟩ := creation_eq_ok.1 hp
    have hprofile := h.profileOnly_complete hcomplete
    obtain ⟨⟨r₁, s₁⟩, hupserted, hcarried⟩ := bind_eq_ok.1 hcarried
    obtain ⟨⟨r₂, s₂⟩, hsettled, e⟩ := map_eq_ok.1 hcarried
    cases e
    rcases upserted_cases hprofile hupserted with ⟨found, hfound, hupdate⟩ | ⟨-, profile, t, rfl, ht, rfl⟩
    · rw [hfound] at hexisting
      have hmem := mem_rows_of_owned (mem_owned_of_findBy hexisting)
      have hw : s.Rewrites found r₁ s₁ := .of_update hmem hprofile hupdate
      have hw' : s₁.Rewrites r₁ r₂ s₂ := .of_settled hw.mem_new hsettled
      obtain rfl : r = found := Table.eq_of_id hr hmem (hid.trans (hw'.id.trans hw.id))
      rw [update_of_agrees h hagrees hcomplete] at hupdate
      cases hupdate
      have hactive : ∀ active, p.status = some active → r.isActive = active := by
        intro active hactive
        exact hagrees.status active (hactive ▸ hstatus)
      rw [settled_of_isActive hactive] at hsettled
      cases hsettled
      cases k with
      | user => exact hr
      | group =>
        change r ∈ (s.addMembers ctx.clock r p.users).groups.rows
        rw [addMembers_eq]
        exact hr
    · have hw : (s.withTable k t).Rewrites _ r₂ s₂ := .of_settled (mem_withTable_of_insert? ht) hsettled
      exact absurd (hid.trans hw.id) (Table.id_ne_of_insert? ht hr)
  · exact ((alters_of_created h hcreated).mem_rows hid).2 hr

theorem mem_replaced_of_agrees (hr : r ∈ (s.table k).rows) {payload : Json} (hagrees : r.Agrees payload)
    {identifier : Json} (hreplaced : s.replaced ctx owner k identifier payload = .ok (r', s')) :
    r ∈ (s'.table k).rows := by
  by_cases hid : r.id = r'.id
  · obtain ⟨found, hget, hrest⟩ := bind_eq_ok.1 hreplaced
    have hmem := mem_rows_of_owned (mem_owned_of_get h hget)
    have hrevises : s.Revises found r' s' := .of_rewritten h owner hmem hrest
    obtain rfl : r = found := Table.eq_of_id hr hmem (hid.trans hrevises.rewrites.id)
    obtain ⟨users, -, hrest⟩ := bind_eq_ok.1 hrest
    obtain ⟨status, hstatus, hrest⟩ := bind_eq_ok.1 hrest
    obtain ⟨attributes, hcomplete, hrest⟩ := bind_eq_ok.1 hrest
    obtain ⟨-, -, hrest⟩ := bind_eq_ok.1 hrest
    obtain ⟨⟨r₁, s₁⟩, hupdate, hrest⟩ := bind_eq_ok.1 hrest
    obtain ⟨⟨r₂, t⟩, hsettled, e⟩ := map_eq_ok.1 hrest
    rw [update_of_agrees h hagrees (eq_ok_of_mapError hcomplete)] at hupdate
    cases hupdate
    have hactive : ∀ active, status = some active → r.isActive = active := by
      rintro active rfl
      exact hagrees.status active (eq_ok_of_mapError hstatus)
    rw [settled_of_isActive hactive] at hsettled
    cases hsettled
    cases e
    exact hrevises.mem
  · exact ((alters_of_replaced h hreplaced).mem_rows hid).2 hr

theorem mem_patched_of_repeats (hr : r ∈ (s.table k).rows) {operations : List PatchOperation}
    (hoperations : ∀ o ∈ operations, o.Repeats ctx.config.room r) {found : Row k} (hfound : found ∈ s.owned k owner) :
    r ∈ ((s.patched ctx owner found operations).2.table k).rows := by
  by_cases hid : r.id = found.id
  · obtain rfl : r = found := Table.eq_of_id hr (mem_rows_of_owned hfound) hid
    exact mem_patched h hr hoperations
  · exact (((Alters.of_mem hfound).patched h hfound rfl operations).mem_rows hid).2 hr

end Standard

end Store

/-! ## Calls and runs -/

namespace Directory

variable {c : Config} (h : c.IsStandard) (d : Directory) (call : Call)

include h

theorem ages_afterCall : d.store.Ages call.clock (d.afterCall c call).store := by
  have hctx : (Context.mk c call.clock).config.IsStandard := h
  cases d.carries h call with
  | nothing hstore =>
    rw [hstore]
    exact .refl _ _
  | create _ _ hcreated => exact Store.ages_of_created hctx hcreated
  | replace _ _ hreplaced => exact Store.ages_of_replaced hctx hreplaced
  | @patch k identifier operations r pager _ _ hget _ hpatched =>
    rw [hpatched]
    exact Store.ages_of_patched hctx (Store.mem_owned_of_get h hget) operations
  | delete _ hdeleted => exact Store.ages_of_deleted hctx hdeleted call.clock

theorem mem_afterCall_of_repeats {r : Row k} (hr : r ∈ (d.store.table k).rows)
    (hrepeats : Request.Repeats c.room r call.request) : r ∈ ((d.afterCall c call).store.table k).rows := by
  have hctx : (Context.mk c call.clock).config.IsStandard := h
  cases d.carries h call with
  | nothing hstore =>
    rw [hstore]
    exact hr
  | create hrequest _ hcreated =>
    rw [hrequest] at hrepeats
    cases hrepeats with
    | create hagrees => exact Store.mem_created_of_agrees hctx hr hagrees hcreated
  | replace hrequest _ hreplaced =>
    rw [hrequest] at hrepeats
    cases hrepeats with
    | replace hagrees => exact Store.mem_replaced_of_agrees hctx hr hagrees hreplaced
  | patch hrequest _ hget _ hpatched =>
    rw [hrequest] at hrepeats
    cases hrepeats with
    | patch hoperations =>
      rw [hpatched]
      exact Store.mem_patched_of_repeats hctx hr hoperations (Store.mem_owned_of_get h hget)
  | delete hrequest _ =>
    rw [hrequest] at hrepeats
    cases hrepeats

omit d call in
theorem timely_after {d : Directory} {clock : Nat} (hd : d.store.Timely clock) (calls : List Call)
    (hclock : (clock :: calls.map Call.clock).Pairwise (· ≤ ·)) :
    (d.after c calls).store.Timely ((calls.map Call.clock).getLastD clock) := by
  induction calls generalizing d clock with
  | nil => exact hd
  | cons call rest ih =>
    rw [List.map_cons] at hclock ⊢
    obtain ⟨hfirst, hrest⟩ := List.pairwise_cons.1 hclock
    rw [List.getLastD_cons]
    exact ih ((ages_afterCall h d call).timely (hfirst _ List.mem_cons_self) hd) hrest

end Directory

/-- Along a clock that does not go back the times of all rows stay in order. Whatever a request does, the rows that
are still there keep the time of their creation, and a row that is another one in anything, archived or active in
particular, has been changed at the time of the request. A request that says nothing new of a row, such as one on
members only, leaves it as it is. -/
theorem times_in_order {s : Settings} {c : Config} (hb : Config.build s = .ok c) (hs : s.customUserAttributes = []) :
    (∀ {d : Directory} {clock : Nat}, d.store.Timely clock → ∀ calls : List Call,
      (clock :: calls.map Call.clock).Pairwise (· ≤ ·) →
        (d.after c calls).store.Timely ((calls.map Call.clock).getLastD clock)) ∧
    ∀ (d : Directory) (call : Call),
      d.store.Ages call.clock (d.afterCall c call).store ∧
      (∀ {k : Kind}, ∀ r ∈ (d.store.table k).rows, ∀ r' ∈ ((d.afterCall c call).store.table k).rows, r'.id = r.id →
        r'.isActive ≠ r.isActive → r'.updated = call.clock) ∧
      ∀ {k : Kind}, ∀ r ∈ (d.store.table k).rows, Request.Repeats c.room r call.request →
        r ∈ ((d.afterCall c call).store.table k).rows := by
  have h := Config.isStandard_of_build hb hs
  refine ⟨fun hd calls hclock => Directory.timely_after h hd calls hclock, fun d call => ?_⟩
  have hages := Directory.ages_afterCall h d call
  refine ⟨hages, ?_, ?_⟩
  · intro k r hr r' hr' hid hactive
    exact (hages.kept r hr r' hr' hid).updated_of_isActive hactive
  · intro k r hr hrepeats
    exact Directory.mem_afterCall_of_repeats h d call hr hrepeats

/-- Archives the first user. -/
private def retiring : Call :=
  ⟨5, Sample.acme, .patch .user (.str "u1") [⟨"replace", some "active", some (.bool false)⟩]⟩

/-- Makes the second user the only member of the group. -/
private def succeeding : Call := ⟨9, Sample.acme, .patch .group (.str "g1") [Sample.replaceMembers "u2"]⟩

theorem times_in_order_sample :
    (Sample.directory.after (Sample.config true) [retiring, succeeding]).store.Timely 9 ∧
    (∀ u ∈ (Sample.directory.afterCall (Sample.config true) retiring).store.users.rows, u.id = 1 →
      u.isActive = false ∧ u.updated = 5) ∧
    Sample.staff ∈ (Sample.directory.afterCall (Sample.config true) succeeding).store.groups.rows ∧
    (Sample.directory.afterCall (Sample.config true) succeeding).store.memberships ≠ Sample.store.memberships := by
  obtain ⟨hrun, hcall⟩ := times_in_order (Sample.build_config true) rfl
  refine ⟨?_, ?_, ?_, by decide +kernel⟩
  · have htimely : Sample.directory.store.Timely 0 := by
      intro k r hr
      cases k with
      | user =>
        have hrows : r ∈ [Sample.ada, Sample.bob, Sample.eve] := hr
        simp only [List.mem_cons, List.not_mem_nil, or_false] at hrows
        rcases hrows with rfl | rfl | rfl <;> exact Row.IsNew.timely ⟨rfl, rfl, .inl rfl⟩
      | group =>
        obtain rfl : r = Sample.staff := List.mem_singleton.1 hr
        exact Row.IsNew.timely ⟨rfl, rfl, .inl rfl⟩
    exact hrun htimely [retiring, succeeding] (by decide)
  · intro u hu hid
    have hretired : ∀ u ∈ (Sample.directory.afterCall (Sample.config true) retiring).store.users.rows, u.id = 1 →
        u.isActive = false := by decide +kernel
    have hinactive := hretired u hu hid
    refine ⟨hinactive, ?_⟩
    have hada : Sample.ada ∈ (Sample.directory.store.table .user).rows := List.mem_cons_self
    obtain ⟨-, hactive, -⟩ := hcall Sample.directory retiring
    exact hactive Sample.ada hada u hu hid (by rw [hinactive]; decide)
  · have hstaff : Sample.staff ∈ (Sample.directory.store.table .group).rows := List.mem_cons_self
    obtain ⟨-, -, hsame⟩ := hcall Sample.directory succeeding
    refine hsame Sample.staff hstaff (.patch fun o ho hattributes => ?_)
    obtain rfl := List.mem_singleton.1 ho
    exact absurd rfl (hattributes.2 rfl)

end Roster
