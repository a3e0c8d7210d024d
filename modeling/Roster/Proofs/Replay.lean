import Roster.Proofs.Edits
import Roster.Proofs.Frame
import Roster.Proofs.MembershipInvariant
import Roster.Proofs.NamedMembers
import Roster.Proofs.NaturalKeys
import Roster.Proofs.Upsert

/-!
Edits that are sent again.

What an edit has written is read again as the cells that the values became, so that writing it once more leaves the
row as it is but for the time of its last change. The status that is asked for has been given, the members that are
listed are there, and the members that a filter selects are gone. Where the members of a group are set, the same users
become its members in the same order, but their memberships begin anew.
-/

set_option autoImplicit false

namespace Roster

open Step

variable {k : Kind} {s s' : Store} {ctx : Context} {owner : Company} {r r' : Row k}

/-! ## Edits that set members -/

/-- The operation makes users the members of a group, all of them anew. -/
def PatchOperation.setsMembers (o : PatchOperation) : Bool :=
  o.name == "replace" && o.path == some "members"

/-- If it is an edit of a group, all of its members become members anew. -/
def Edit.setsMembers : Edit → Bool
  | .replace _ => true
  | .patch operations => operations.any PatchOperation.setsMembers

theorem PatchOperation.setsMembers_of_replace {o : PatchOperation} (hname : o.name = "replace") :
    o.setsMembers = (o.path == some "members") := by
  rw [setsMembers, beq_iff_eq.2 hname, Bool.true_and]

theorem PatchOperation.setsMembers_of_ne {o : PatchOperation} (hname : o.name ≠ "replace") : o.setsMembers = false := by
  rw [setsMembers, beq_eq_false_iff_ne.2 hname, Bool.false_and]

/-! ## Rows that hold what is written -/

/-- Every value that attributes give for a column counts as the same as what the column says, or becomes it. -/
def Row.Holds (r : Row k) (attributes : Schema.Values) : Prop :=
  ∀ (c : Column k) (value : Json), attributes.lookup c.name = some value →
    Store.unchanged r c value = true ∨ Cell.ofJson c.type value = .ok (r.get c)

namespace Store

theorem isProfile_of_lookup {attributes : Schema.Values} (hprofile : ProfileOnly k attributes) {c : Column k}
    {value : Json} (hvalue : attributes.lookup c.name = some value) : c.isProfile = true := by
  obtain ⟨c', hname, hc'⟩ := hprofile _ (mem_of_lookup hvalue)
  rw [Column.ofName?_name] at hname
  cases hname
  exact hc'

theorem unchanged_congr {c : Column k} (hget : r'.get c = r.get c) (value : Json) :
    unchanged r' c value = unchanged r c value := by
  rw [unchanged, unchanged, hget]

theorem holds_of_update {attributes : Schema.Values} (hprofile : ProfileOnly k attributes)
    (hnodup : (attributes.map Prod.fst).Nodup) {clock : Nat} (h : s.update clock r attributes = .ok (r', s')) :
    r'.Holds attributes := by
  intro c value hvalue
  have hc := isProfile_of_lookup hprofile hvalue
  have hupdated : c ≠ .updated := by
    rintro rfl
    cases hc
  have hget := get_of_update hnodup h hupdated
  rw [hvalue] at hget
  rcases hget with ⟨hunchanged, hget⟩ | hcell
  · left
    rw [unchanged_congr hget]
    exact hunchanged
  · exact .inr hcell

/-- What a row holds is a matter of its profile. -/
theorem holds_of_get {attributes : Schema.Values} (hprofile : ProfileOnly k attributes) (h : r.Holds attributes)
    (hget : ∀ c : Column k, c.isProfile = true → r'.get c = r.get c) : r'.Holds attributes := by
  intro c value hvalue
  have hc := hget c (isProfile_of_lookup hprofile hvalue)
  rw [unchanged_congr hc, hc]
  exact h c value hvalue

/-- Values that become what a row says all have their cells. -/
private theorem exists_cells {values : List (Column k × Json)}
    (h : ∀ v ∈ values, v.1.isProfile = true ∧ Cell.ofJson v.1.type v.2 = .ok (r.get v.1)) :
    ∃ given, cells values = .ok given := by
  have htimed : (values.any fun v => isMistimed v.1 v.2) = false := by
    refine List.any_eq_false.2 fun v hv => ?_
    rw [isMistimed, type_of_isProfile (h v hv).1]
    simp
  have hordered : ∀ p ∈ (Column.all k).filterMap fun c => (values.lookup c).map fun value => (c, value),
      (do return (p.1, ← Cell.ofJson p.1.type p.2) : Except Fault (Column k × Cell)) = .ok (p.1, r.get p.1) := by
    intro p hp
    obtain ⟨c, -, hc⟩ := List.mem_filterMap.1 hp
    obtain ⟨value, hvalue, rfl⟩ := Option.map_eq_some_iff.1 hc
    have hcell := (h _ (mem_of_lookup hvalue)).2
    dsimp only at hcell ⊢
    rw [hcell]
    rfl
  rw [cells, htimed, if_neg Bool.false_ne_true, mapM_congr hordered]
  exact ⟨_, mapM_ok _ _⟩

/-- A row that has changed at another time says the same but for this time. -/
theorem get_updated (r : Row k) (clock : Nat) {c : Column k} (hc : c ≠ .updated) :
    Row.get { r with updated := clock } c = r.get c := by
  obtain ⟨_, _, _, profile, _, _, _⟩ := r
  cases profile <;> cases c <;> first | rfl | exact absurd rfl hc

/-- Values that become what a row says make the same row of it again, changed at the time of the clock. -/
private theorem revised_of_cells (hcompany : r.company ≠ .null) {values : List (Column k × Json)}
    (h : ∀ v ∈ values, v.1.isProfile = true ∧ Cell.ofJson v.1.type v.2 = .ok (r.get v.1))
    {given : List (Column k × Cell)} (hgiven : cells values = .ok given) (clock : Nat) :
    revised r (given ++ [(.updated, .time clock)]) = some { r with updated := clock } := by
  have hsays (c : Column k) : ((given ++ [(Column.updated, Cell.time clock)]).lookup c).getD (r.get c) =
      Row.get { r with updated := clock } c := by
    rw [List.lookup_append]
    have hlookup := lookup_cells hgiven c
    cases hvalue : values.lookup c with
    | some value =>
      rw [hvalue] at hlookup
      obtain ⟨cell, hcell, hlookup⟩ := hlookup
      obtain ⟨hc, hsame⟩ := h _ (mem_of_lookup hvalue)
      have hcell : cell = r.get c := by
        rw [hsame] at hcell
        exact (Except.ok.inj hcell).symm
      have hupdated : c ≠ .updated := by
        rintro rfl
        cases hc
      rw [hlookup, hcell, get_updated r clock hupdated]
      rfl
    | none =>
      rw [hvalue] at hlookup
      rw [hlookup, Option.none_or, List.lookup_cons, List.lookup_nil]
      by_cases hupdated : c = .updated
      · rw [hupdated, beq_self_eq_true]
        rfl
      · rw [beq_eq_false_iff_ne.2 hupdated, get_updated r clock hupdated]
        rfl
  have hmade : Row.make (Row.get { r with updated := clock }) = some { r with updated := clock } :=
    make_get hcompany
  rw [revised, funext hsays, hmade]

variable {attributes : Schema.Values}

/-- Attributes that a row holds can be written, and change at most the time of its last change. -/
theorem update_of_holds (hr : r ∈ s.owned k owner) (hprofile : ProfileOnly k attributes)
    (hnodup : (attributes.map Prod.fst).Nodup) (h : r.Holds attributes) (clock : Nat) :
    ∃ updated s', s.update clock r attributes = .ok ({ r with updated }, s') ∧
      s.Rewrites r { r with updated } s' := by
  obtain ⟨hmem, hcompany⟩ := mem_owned.1 hr
  obtain ⟨values, hvalues, hall⟩ := exists_columns_eq_ok hprofile
  have hchanged : ∀ v ∈ values.filter (fun v => !unchanged r v.1 v.2),
      v.1.isProfile = true ∧ Cell.ofJson v.1.type v.2 = .ok (r.get v.1) := by
    intro v hv
    obtain ⟨hv, hdiffers⟩ := List.mem_filter.1 hv
    have hvalue : attributes.lookup v.1.name = some v.2 := by
      rw [← lookup_columns hvalues]
      exact lookup_eq_some_of_mem (nodup_columns hvalues hnodup) hv
    refine ⟨hall v hv, (h v.1 v.2 hvalue).resolve_left fun hunchanged => ?_⟩
    rw [hunchanged] at hdiffers
    cases hdiffers
  have hnull : r.company ≠ .null := by
    rw [hcompany]
    exact Cell.noConfusion
  rw [update, hvalues, ok_bind]
  dsimp only
  split
  · exact ⟨r.updated, s, rfl, .refl hmem⟩
  · obtain ⟨given, hgiven⟩ := exists_cells hchanged
    rw [hgiven]
    dsimp only
    rw [revised_of_cells hnull hchanged hgiven]
    have hexists : ∃ t : Table k, s.put r { r with updated := clock } = .ok (s.withTable k t) ∧
        t.rows = (s.table k).overwritten { r with updated := clock } := exists_put hmem rfl rfl
    obtain ⟨t, hput, hrows⟩ := hexists
    dsimp only
    rw [hput]
    exact ⟨clock, s.withTable k t, rfl, hmem, rfl, rfl, rfl, rfl, t, rfl, hrows⟩

/-! ## Writing again -/

section Standard

variable (h : ctx.config.IsStandard)

include h

/-- A row that has been allowed to take a key may keep it as long as the rows of the others are as they were. -/
theorem checkKey_again (hdiffer : k = .user → s.AddressesDiffer owner) (hid : r'.id = r.id)
    (hrows : ∀ x ∈ s'.owned k owner, x.id = r'.id ∨ x ∈ s.owned k owner)
    (hchecked : s.checkKey ctx.config owner r attributes = .ok ()) :
    s'.checkKey ctx.config owner r' attributes = .ok () := by
  cases k with
  | group => exact s'.checkKey_group h owner r' attributes
  | user =>
    rw [checkKey_user_eq_ok h] at hchecked ⊢
    intro value hvalue hne
    obtain ⟨hplain, hfirst⟩ := hchecked value hvalue hne
    refine ⟨hplain, fun x hx => ?_⟩
    rcases hrows x (List.mem_of_find?_eq_some hx) with hsame | hmem
    · exact hsame
    · -- Whoever else has the address had it before, and was then the only one who could be found by it.
      have hx := List.find?_some hx
      cases hfind : (s.owned .user owner).find? fun x => recognises .user x.key value.text with
      | none => exact absurd hx (List.find?_eq_none.1 hfind x hmem)
      | some y =>
        have hy := List.find?_some hfind
        rw [recognises, beq_iff_eq] at hx hy
        have hxy : x = y := hdiffer rfl x hmem y (List.mem_of_find?_eq_some hfind) (hx.trans hy.symm)
        rw [hid, hxy]
        exact hfirst y hfind

/-- A row that has been written and given a status can be written and given it again. -/
theorem written_again (hdiffer : k = .user → s.AddressesDiffer owner) (hr : r ∈ s.owned k owner)
    (hprofile : ProfileOnly k attributes) (hnodup : (attributes.map Prod.fst).Nodup) {r₁ : Row k} {s₁ : Store}
    (hwritten : s.written ctx owner r attributes = .ok (r₁, s₁)) {status : Option Bool}
    (hsettled : s₁.settled ctx.clock r₁ status = .ok (r', s')) {t : Store} (ht : t.owned k owner = s'.owned k owner)
    (clock : Nat) :
    ∃ updated t', t.written ⟨ctx.config, clock⟩ owner r' attributes = .ok ({ r' with updated }, t') ∧
      t'.settled clock { r' with updated } status = .ok ({ r' with updated }, t') ∧
      t.Rewrites r' { r' with updated } t' := by
  rw [written_eq] at hwritten
  obtain ⟨⟨⟩, hchecked, hupdate⟩ := bind_eq_ok.1 hwritten
  have hw₁ : s.Rewrites r r₁ s₁ := .of_update (mem_rows_of_owned hr) hprofile hupdate
  have hw : s.Rewrites r r' s' := hw₁.trans (.of_settled hw₁.mem_new hsettled)
  have hmem : r' ∈ t.owned k owner := by
    rw [ht]
    exact hw.mem_owned hr
  have hrows : ∀ x ∈ t.owned k owner, x.id = r'.id ∨ x ∈ s.owned k owner := by
    intro x hx
    rw [ht, hw.owned_eq hr] at hx
    obtain ⟨y, hy, rfl⟩ := List.mem_map.1 hx
    split
    next => exact .inl rfl
    next => exact .inr hy
  have hchecked : t.checkKey ctx.config owner r' attributes = .ok () :=
    checkKey_again h hdiffer hw.id hrows hchecked
  have hholds : r'.Holds attributes :=
    holds_of_get hprofile (holds_of_update hprofile hnodup hupdate) fun _ hc => get_of_settled hsettled hc
  obtain ⟨updated, t', hupdate, hrewrites⟩ := update_of_holds hmem hprofile hnodup hholds clock
  refine ⟨updated, t', ?_, ?_, hrewrites⟩
  · rw [written_eq, hchecked]
    exact hupdate
  · refine settled_of_isActive ?_ t' clock
    rintro active rfl
    have hactive : r'.isActive = active := isActive_of_settled hsettled
    exact hactive

end Standard

/-! ## Members again -/

/-- The store with the memberships of a group begun at a reading of the clock, each where it was. -/
def retimed (s : Store) (clock : Nat) : {k : Kind} → Row k → Store
  | .user, _ => s
  | .group, group =>
    { s with memberships := s.memberships.map fun m => if m.group = group.id then { m with created := clock } else m }

theorem Rewrites.retimed (hw : s.Rewrites r r' s') (clock : Nat) :
    (s.retimed clock r).Rewrites r r' (s'.retimed clock r') := by
  cases k with
  | user => exact hw
  | group =>
    rw [Store.retimed, Store.retimed, hw.id, hw.memberships]
    exact hw.withMemberships _

/-- The members of a group do not depend on the times of their memberships. -/
theorem document_retimed (s : Store) (clock : Nat) (r : Row k) : (s.retimed clock r).document k r = s.document k r := by
  cases k with
  | user => rfl
  | group =>
    have hgroup : (fun m : Membership => m.group == r.id) ∘
        (fun m => if m.group = r.id then { m with created := clock } else m) = fun m => m.group == r.id := by
      funext m
      rw [Function.comp_apply]
      split <;> rfl
    have huser : (fun m : Membership => s.users.find? m.user) ∘
        (fun m => if m.group = r.id then { m with created := clock } else m) = fun m => s.users.find? m.user := by
      funext m
      rw [Function.comp_apply]
      split <;> rfl
    have hmembers : (s.retimed clock r).membersOf r = s.membersOf r := by
      rw [membersOf, Store.retimed]
      dsimp only
      rw [List.filter_map, List.filterMap_map, hgroup, huser, membersOf]
    exact congrArg r.groupDocument hmembers

/-- Members that have been replaced are replaced by the same, whose memberships begin anew. -/
theorem replaceMembers_again {group group' : Row .group} {users : List (Row .user)} {clock : Nat}
    (hid : group'.id = group.id)
    (hs : s'.memberships = ((s.clearMembers group).addMembers clock group users).memberships) (later : Nat) :
    (s'.clearMembers group').addMembers later group' users = s'.retimed later group' := by
  have hothers : (s.memberships.filter fun m => m.group != group.id).map
      (fun m => if m.group = group.id then { m with created := later } else m) =
        s.memberships.filter fun m => m.group != group.id := by
    refine (List.map_congr_left fun m hm => ?_).trans (List.map_id _)
    exact if_neg (bne_iff_ne.1 (List.mem_filter.1 hm).2)
  have hleft : s'.memberships.filter (fun m => m.group != group.id) =
      s.memberships.filter fun m => m.group != group.id := by
    rw [hs, others_addMembers, others_clearMembers]
  have hmemberships : ((s'.clearMembers group').addMembers later group' users).memberships =
      (s'.retimed later group').memberships := by
    rw [memberships_clearMembers_addMembers, Store.retimed, hid, hleft]
    dsimp only
    rw [hs, memberships_clearMembers_addMembers, List.map_append, hothers, List.map_map]
    refine congrArg (_ ++ ·) (List.map_congr_left fun id _ => ?_)
    rw [Function.comp_apply, if_pos rfl]
  rw [addMembers_eq, hmemberships]
  rfl

theorem clearMembers_again (s : Store) (group : Row .group) :
    (s.clearMembers group).clearMembers group = s.clearMembers group := by
  simp [clearMembers, List.filter_filter]

theorem removeMembers_nil (s : Store) (group : Row .group) : s.removeMembers group [] = .ok s := by
  simp [removeMembers, withoutMembers, maxVariables]

/-- When the members that a filter selects have been taken out, it selects none. -/
theorem matchingMembers_again {group : Row .group} {e : Filter.Expression} (hcolumn : e.column = "uuid")
    {users : List (Row .user)} (husers : s.matchingMembers owner group e = .ok users) :
    (s.withoutMembers group users).matchingMembers owner group e = .ok [] := by
  have howned : (s.withoutMembers group users).owned .user owner = s.owned .user owner :=
    s.owned_memberships _ .user owner
  rw [matchingMembers_eq hcolumn] at husers ⊢
  rw [howned]
  split at husers
  · cases husers
  next hshort =>
    rw [if_neg hshort]
    generalize sortRows _ _ = selected at husers ⊢
    have husers := Except.ok.inj husers
    refine congrArg Except.ok (List.filter_eq_nil_iff.2 fun u hu hmember => ?_)
    obtain ⟨m, hm, hid⟩ := List.any_eq_true.1 hmember
    obtain ⟨hm, hkept⟩ := mem_membersOf.1 hm
    rw [memberNumbers_withoutMembers] at hkept
    obtain ⟨hkept, hleft⟩ := List.mem_filter.1 hkept
    have hmember : ((s.membersOf group).any fun m => m.id == u.id) = true :=
      List.any_eq_true.2 ⟨m, mem_membersOf.2 ⟨hm, hkept⟩, hid⟩
    have hremoved : (users.any fun u => u.id == m.id) = true := by
      refine List.any_eq_true.2 ⟨u, ?_, by rw [beq_iff_eq.1 hid, beq_self_eq_true]⟩
      rw [← husers]
      exact List.mem_filter.2 ⟨hu, hmember⟩
    rw [hremoved] at hleft
    cases hleft

/-! ## Edits again -/

theorem withMembers_again {clock updated : Nat} {users : List (Row .user)}
    (hw : (s.withMembers clock users k r).Rewrites r { r with updated } s') (later : Nat) :
    ((s.withMembers clock users k r).retimed later r).Rewrites r { r with updated }
      (s'.withMembers later users k { r with updated }) := by
  cases k with
  | user => exact hw
  | group =>
    have hagain : s'.withMembers later users .group { r with updated } = s'.retimed later { r with updated } :=
      replaceMembers_again rfl hw.memberships later
    rw [hagain]
    exact hw.retimed later

theorem replacedUsers_again {payload : Json} {users : List (Row .user)} (c : Config) (hw : s.Rewrites r r' s')
    (husers : s.replacedUsers c owner k payload = .ok users) (clock : Nat) (added : List (Row .user)) :
    (s'.withMembers clock added k r').replacedUsers c owner k payload = .ok users := by
  cases k with
  | user => exact husers
  | group =>
    have hsame : (s'.withMembers clock added .group r').users = s.users := by
      obtain ⟨t, rfl, -⟩ := hw.store
      rw [withMembers, addMembers_eq]
      rfl
    rw [replacedUsers, listed_congr hsame]
    exact husers

section Edits

variable (h : ctx.config.IsStandard) (hdiffer : k = .user → s.AddressesDiffer owner) (hr : r ∈ s.owned k owner)

include h hdiffer hr

/-- What a resource has been replaced by replaces it again. -/
theorem rewritten_again {payload : Json} (hrewritten : s.rewritten ctx owner r payload = .ok (r', s')) (clock : Nat) :
    ∃ updated s'', s'.rewritten ⟨ctx.config, clock⟩ owner r' payload = .ok ({ r' with updated }, s'') ∧
      (s'.retimed clock r').Rewrites r' { r' with updated } s'' := by
  obtain ⟨users, husers, hrest⟩ := bind_eq_ok.1 hrewritten
  obtain ⟨status, hstatus, hrest⟩ := bind_eq_ok.1 hrest
  obtain ⟨attributes, hattributes, hrest⟩ := bind_eq_ok.1 hrest
  obtain ⟨⟨⟩, hchecked, hrest⟩ := bind_eq_ok.1 hrest
  obtain ⟨⟨r₁, s₁⟩, hupdate, hrest⟩ := bind_eq_ok.1 hrest
  obtain ⟨⟨r₂, s₂⟩, hsettled, e⟩ := map_eq_ok.1 hrest
  dsimp only at e
  cases e
  have hstatus := eq_ok_of_mapError hstatus
  have hattributes := eq_ok_of_mapError hattributes
  have hprofile : ProfileOnly k attributes := h.profileOnly_complete hattributes
  have hnodup : (attributes.map Prod.fst).Nodup := by
    rw [(ResourceConfig.eq_extract_of_complete hattributes).2]
    exact Schema.nodup_extract _ payload
  have hwritten : s.written ctx owner r attributes = .ok (r₁, s₁) := by
    rw [written_eq, hchecked]
    exact hupdate
  obtain ⟨updated, t, hagain, hsettledAgain, hrewrites⟩ := written_again h hdiffer hr hprofile hnodup hwritten
    hsettled (s₂.owned_withMembers ctx.clock users r' k owner) clock
  refine ⟨updated, t.withMembers clock users k { r' with updated }, ?_, withMembers_again hrewrites clock⟩
  have hw₁ : s.Rewrites r r₁ s₁ := .of_update (mem_rows_of_owned hr) hprofile hupdate
  have hw : s.Rewrites r r' s₂ := hw₁.trans (.of_settled hw₁.mem_new hsettled)
  have husersAgain : (s₂.withMembers ctx.clock users k r').replacedUsers ctx.config owner k payload = .ok users :=
    replacedUsers_again ctx.config hw husers ctx.clock users
  rw [written_eq] at hagain
  obtain ⟨⟨⟩, hcheckedAgain, hupdateAgain⟩ := bind_eq_ok.1 hagain
  have hrewrittenAgain : (s₂.withMembers ctx.clock users k r').rewritten ⟨ctx.config, clock⟩ owner r' payload = _ :=
    rewritten_eq husersAgain hstatus hattributes
  rw [hrewrittenAgain, hcheckedAgain, hupdateAgain]
  dsimp only [Except.bind]
  rw [completed, hsettledAgain]
  rfl

theorem effect_replaceAttributes_again {o : PatchOperation}
    (he : effect (replaceAttributes ctx owner r o) s = .ok (r', s')) (clock : Nat) :
    ∃ updated s'', effect (replaceAttributes ⟨ctx.config, clock⟩ owner r' o) s' = .ok ({ r' with updated }, s'') ∧
      s'.Rewrites r' { r' with updated } s'' := by
  rw [effect_replaceAttributes] at he
  obtain ⟨document, hdocument, he⟩ := bind_eq_ok.1 he
  split at he
  next hobject =>
    obtain ⟨status, hstatus, he⟩ := bind_eq_ok.1 he
    obtain ⟨⟨r₁, s₁⟩, hwritten, hsettled⟩ := bind_eq_ok.1 he
    have hprofile : ProfileOnly k ((ctx.config.resource k).mutableSchema.extractPresent document) := by
      rw [h.mutableSchema]
      exact profileOnly_extractPresent k document
    have hnodup := Schema.nodup_extractPresent (ctx.config.resource k).mutableSchema document
    obtain ⟨updated, t, hagain, hsettledAgain, hrewrites⟩ :=
      written_again h hdiffer hr hprofile hnodup hwritten hsettled rfl clock
    refine ⟨updated, t, ?_, hrewrites⟩
    rw [effect_replaceAttributes]
    dsimp only
    rw [hdocument]
    dsimp only [Except.bind]
    rw [if_pos hobject, hstatus]
    dsimp only
    rw [hagain]
    exact hsettledAgain
  next => cases he

end Edits

section Members

variable {group : Row .group}

theorem effect_addListed_again {o : PatchOperation} {u : Unit}
    (he : effect (addListed ctx owner group o) s = .ok (u, s')) (clock : Nat) :
    effect (addListed ⟨ctx.config, clock⟩ owner group o) s' = .ok (u, s') := by
  rw [effect_addListed] at he ⊢
  split at he
  · cases he
  next hpath =>
    obtain ⟨users, husers, e⟩ := map_eq_ok.1 he
    cases e
    dsimp only
    rw [if_neg hpath, listed_congr (users_addMembers s ctx.clock group users), husers]
    dsimp only [Except.map]
    rw [addMembers_again]

/-- Members that are removed all at once or by a filter are gone the second time. -/
theorem effect_removeListed_again (h : ctx.config.IsStandard) {o : PatchOperation}
    (hnamed : ¬(o.path = some "members" ∧ o.value.isSome = true)) {u : Unit}
    (he : effect (removeListed ctx owner group o) s = .ok (u, s')) (clock : Nat) :
    effect (removeListed ⟨ctx.config, clock⟩ owner group o) s' = .ok (u, s') := by
  rw [effect_removeListed] at he ⊢
  split at he
  next hpath =>
    rw [if_pos hpath]
    split at he
    next =>
      cases he
      rw [clearMembers_again]
    next hvalue => exact absurd ⟨beq_iff_eq.1 hpath, by rw [hvalue, Option.isSome_some]⟩ hnamed
  next hpath =>
    rw [if_neg hpath]
    obtain ⟨filter, hfilter, he⟩ := bind_eq_ok.1 he
    obtain ⟨users, husers, he⟩ := bind_eq_ok.1 he
    obtain ⟨s₁, hremoved, e⟩ := map_eq_ok.1 he
    cases e
    obtain ⟨-, rfl⟩ := removeMembers_eq_ok.1 hremoved
    have hagain := matchingMembers_again (column_of_memberFilter h (eq_ok_of_mapError hfilter)) husers
    dsimp only
    rw [hfilter]
    dsimp only [Except.bind]
    rw [hagain]
    dsimp only [Except.bind]
    rw [removeMembers_nil]
    rfl

/-- The members are replaced by the same, or the attributes are. -/
theorem effect_replaceInGroup_again (h : ctx.config.IsStandard) {group' : Row .group}
    (hgroup : group ∈ s.owned .group owner) {o : PatchOperation}
    (he : effect (replaceInGroup ctx owner group o) s = .ok (group', s')) (clock : Nat) :
    ∃ updated s'', effect (replaceInGroup ⟨ctx.config, clock⟩ owner group' o) s' =
        .ok ({ group' with updated }, s'') ∧
      (if o.path == some "members" then s'.retimed clock group' else s').Rewrites group' { group' with updated }
        s'' := by
  simp only [effect_replaceInGroup] at he ⊢
  split at he
  next hpath =>
    obtain ⟨users, husers, e⟩ := map_eq_ok.1 he
    cases e
    have hsame : ((s.clearMembers group).addMembers ctx.clock group users).users = s.users :=
      users_addMembers (s.clearMembers group) ctx.clock group users
    have hmem : group ∈ ((((s.clearMembers group).addMembers ctx.clock group users).retimed clock group).table
        .group).rows := by
      rw [addMembers_eq]
      exact mem_rows_of_owned hgroup
    refine ⟨group.updated, ((s.clearMembers group).addMembers ctx.clock group users).retimed clock group, ?_, ?_⟩
    · rw [if_pos hpath, listed_congr hsame, husers]
      dsimp only [Except.map]
      rw [replaceMembers_again rfl rfl]
    · rw [if_pos hpath]
      exact .refl hmem
  next hpath =>
    have hdiffer : Kind.group = Kind.user → s.AddressesDiffer owner := fun hk => nomatch hk
    obtain ⟨updated, s'', hagain, hrewrites⟩ := effect_replaceAttributes_again h hdiffer hgroup he clock
    refine ⟨updated, s'', ?_, ?_⟩
    · rw [if_neg hpath]
      exact hagain
    · rw [if_neg hpath]
      exact hrewrites

end Members

/-- An operation that has been carried out is carried out again, unless it removes members that it names. -/
theorem effect_applyOperation_again (h : ctx.config.IsStandard) (hdiffer : k = .user → s.AddressesDiffer owner)
    (hr : r ∈ s.owned k owner) {o : PatchOperation}
    (hnamed : ¬(o.name = "remove" ∧ o.path = some "members" ∧ o.value.isSome = true))
    (he : effect (applyOperation ctx owner k r o) s = .ok (r', s')) (clock : Nat) :
    ∃ updated s'', effect (applyOperation ⟨ctx.config, clock⟩ owner k r' o) s' = .ok ({ r' with updated }, s'') ∧
      (if o.setsMembers then s'.retimed clock r' else s').Rewrites r' { r' with updated } s'' := by
  have hpatches : s.Patches owner k r r' s' := .of_applyOperation h (mem_rows_of_owned hr) he
  have hmem : r' ∈ (s'.table k).rows := mem_rows_of_owned (hpatches.mem_owned hr)
  cases k with
  | user =>
    simp only [applyOperation] at he ⊢
    split at he
    next hreplace =>
      obtain ⟨updated, s'', hagain, hrewrites⟩ := effect_replaceAttributes_again h hdiffer hr he clock
      refine ⟨updated, s'', ?_, ?_⟩
      · rw [if_pos hreplace]
        exact hagain
      · -- The memberships of a user have no part in an edit of the user.
        rw [Store.retimed, ite_self]
        exact hrewrites
    next => cases he
  | group =>
    simp only [applyOperation] at he ⊢
    split at he
    next hreplace =>
      rw [if_pos hreplace, PatchOperation.setsMembers_of_replace hreplace]
      exact effect_replaceInGroup_again h hr he clock
    next hreplace =>
      rw [if_neg hreplace, PatchOperation.setsMembers_of_ne hreplace, if_neg Bool.false_ne_true]
      split at he
      next hadd =>
        rw [effect_bind _ (local_addListed ctx owner r o) fun _ => local_pure r] at he
        obtain ⟨⟨⟨⟩, s₁⟩, hadded, hpure⟩ := bind_eq_ok.1 he
        cases hpure
        refine ⟨r.updated, s₁, ?_, .refl hmem⟩
        rw [if_pos hadd, effect_bind _ (local_addListed ⟨ctx.config, clock⟩ owner r o) fun _ => local_pure r,
          effect_addListed_again hadded clock]
        rfl
      next hadd =>
        rw [if_neg hadd]
        split at he
        next hremove =>
          rw [effect_bind _ (local_removeListed ctx owner r o) fun _ => local_pure r] at he
          obtain ⟨⟨⟨⟩, s₁⟩, hremoved, hpure⟩ := bind_eq_ok.1 he
          cases hpure
          refine ⟨r.updated, s₁, ?_, .refl hmem⟩
          rw [if_pos hremove, effect_bind _ (local_removeListed ⟨ctx.config, clock⟩ owner r o) fun _ => local_pure r,
            effect_removeListed_again h (fun hpath => hnamed ⟨hremove, hpath⟩) hremoved clock]
          rfl
        next => cases he

/-- What a resource shows does not depend on when it has last changed. -/
theorem document_of_updated {updated : Nat} (hw : s.Rewrites r { r with updated } s') :
    s'.document k { r with updated } = s.document k r := by
  obtain ⟨t, rfl, -⟩ := hw.store
  obtain ⟨_, _, _, profile, _, _, _⟩ := r
  cases profile <;> rfl

/-- Nor does it depend on when those who are members have become so. -/
theorem document_of_repeated {updated clock : Nat} {anew : Bool}
    (hw : (if anew then s.retimed clock r else s).Rewrites r { r with updated } s') :
    s'.document k { r with updated } = s.document k r := by
  rw [document_of_updated hw]
  split
  · exact document_retimed s clock r
  · rfl

end Store

/-! ## Requests again -/

/-- The edit replaces a resource, or it is a single operation that does not remove members by their names. -/
def Edit.IsReplayable : Edit → Prop
  | .replace _ => True
  | .patch [o] => ¬(o.name = "remove" ∧ o.path = some "members" ∧ o.value.isSome = true)
  | .patch _ => False

theorem Store.edited_again (h : ctx.config.IsStandard) (hdiffer : k = .user → s.AddressesDiffer owner)
    (hr : r ∈ s.owned k owner) {e : Edit} (hreplayable : e.IsReplayable)
    (hedited : s.edited ctx owner r e = (.ok r', s')) (clock : Nat) :
    ∃ updated s'', s'.edited ⟨ctx.config, clock⟩ owner r' e = (.ok { r' with updated }, s'') ∧
      (if e.setsMembers then s'.retimed clock r' else s').Rewrites r' { r' with updated } s'' := by
  match e with
  | .replace payload =>
    obtain ⟨updated, s'', hagain, hrewrites⟩ := rewritten_again h hdiffer hr (edited_replace_eq_ok.1 hedited) clock
    exact ⟨updated, s'', edited_replace_eq_ok.2 hagain, hrewrites⟩
  | .patch [o] =>
    obtain ⟨updated, s'', hagain, hrewrites⟩ :=
      effect_applyOperation_again h hdiffer hr hreplayable (edited_patch_eq_ok.1 hedited) clock
    have hsets : (Edit.patch [o]).setsMembers = o.setsMembers := Bool.or_false _
    rw [hsets]
    exact ⟨updated, s'', edited_patch_eq_ok.2 hagain, hrewrites⟩

/-- Two directories are the same, but a resource of a company may have changed last at another time, and if it is a
group whose members an edit sets its memberships have begun at a reading of the clock. -/
structure Directory.SameButTimes (d : Directory) (owner : Company) (k : Kind) (identifier : Json) (e : Edit)
    (clock : Nat) (d' : Directory) : Prop where
  row : ∃ r ∈ d.store.owned k owner, r.uuid = identifier.text ∧ ∃ updated : Nat,
    (if e.setsMembers then d.store.retimed clock r else d.store).Rewrites r { r with updated } d'.store
  drawn : d'.drawn = d.drawn
  kept : d'.kept = d.kept

/-- A request that has replaced a resource, or has carried out a single operation other than to remove members by
their names, answers the same when it is sent again at any time, and changes nothing but the time at which the
resource has last changed and, where it sets the members of a group, those at which its memberships begin; a resource
that it has archived keeps its archive time. -/
theorem edit_replays {s : Settings} {c : Config} (hb : Config.build s = .ok c) (hs : s.customUserAttributes = [])
    (d : Directory) (owner : Company) (hdiffer : k = .user → d.store.AddressesDiffer owner) (identifier : Json)
    {e : Edit} (hreplayable : e.IsReplayable) (clock clock' : Nat) {answer : Json}
    (hanswer : (d.perform ⟨c, clock⟩ owner (e.request k identifier)).result = .ok answer) :
    ((d.afterCall c ⟨clock, owner, e.request k identifier⟩).perform ⟨c, clock'⟩ owner
        (e.request k identifier)).result = .ok answer ∧
      (d.afterCall c ⟨clock, owner, e.request k identifier⟩).SameButTimes owner k identifier e clock'
        ((d.afterCall c ⟨clock, owner, e.request k identifier⟩).afterCall c
          ⟨clock', owner, e.request k identifier⟩) := by
  have h : (Context.mk c clock).config.IsStandard := Config.isStandard_of_build hb hs
  have h' : (Context.mk c clock').config.IsStandard := h
  cases hfound : d.store.found c owner k identifier with
  | error failure =>
    rw [Directory.result_edit_of_error h hfound e] at hanswer
    cases hanswer
  | ok r =>
    obtain ⟨hresult, hdirectory⟩ := Directory.perform_edit_of_ok h hfound e
    rw [hresult] at hanswer
    obtain ⟨r', hr', rfl⟩ := map_eq_ok.1 hanswer
    obtain ⟨hserve, hget⟩ := Store.found_eq_ok.1 hfound
    obtain ⟨hplain, hmem, huuid⟩ := (d.store.get_eq_ok h owner).1 hget
    generalize hs' : (d.store.edited ⟨c, clock⟩ owner r e).2 = s' at hdirectory hresult ⊢
    have hedited : d.store.edited ⟨c, clock⟩ owner r e = (.ok r', s') := Prod.ext hr' hs'
    have hfirst : d.afterCall c ⟨clock, owner, e.request k identifier⟩ = { d with store := s' } := hdirectory
    have hfoundAgain : s'.found c owner k identifier = .ok r' := by
      obtain ⟨hmem', huuid'⟩ := Store.mem_owned_of_edited h hmem hedited
      exact Store.found_eq_ok.2 ⟨hserve, (s'.get_eq_ok h owner).2 ⟨hplain, hmem', huuid'.trans huuid⟩⟩
    obtain ⟨updated, s'', hagain, hrewrites⟩ := Store.edited_again h hdiffer hmem hreplayable hedited clock'
    obtain ⟨hresult', hdirectory'⟩ := Directory.perform_edit_of_ok h' (d := { d with store := s' }) hfoundAgain e
    dsimp only at hresult' hdirectory'
    rw [hagain] at hresult' hdirectory'
    have hdocument : s''.document k { r' with updated } = s'.document k r' := Store.document_of_repeated hrewrites
    rw [hfirst, Directory.afterCall]
    dsimp only
    rw [hresult', hdirectory']
    refine ⟨congrArg Except.ok hdocument, ?_, rfl, rfl⟩
    obtain ⟨hmem', huuid'⟩ := Store.mem_owned_of_edited h hmem hedited
    exact ⟨r', hmem', huuid'.trans huuid, updated, hrewrites⟩

/-- Archives a user and gives it a number and a truth value for its names, which the store keeps as texts. -/
private def retirement : Edit :=
  .patch [⟨"replace", none, some (.obj [
    ("name", .obj [("givenName", .int 7), ("familyName", .bool true)]),
    ("active", .bool false)])⟩]

/-- The values are written once more, so that the time of the last change is another one; the archive time is not. -/
theorem edit_replays_sample :
    ((Sample.directory.afterCall (Sample.config true) ⟨5, Sample.acme, retirement.request .user (.str "u1")⟩).perform
          ⟨Sample.config true, 9⟩ Sample.acme (retirement.request .user (.str "u1"))).result =
        (Sample.directory.perform ⟨Sample.config true, 5⟩ Sample.acme (retirement.request .user (.str "u1"))).result ∧
      (((Sample.directory.afterCall (Sample.config true)
          ⟨5, Sample.acme, retirement.request .user (.str "u1")⟩).afterCall (Sample.config true)
            ⟨9, Sample.acme, retirement.request .user (.str "u1")⟩).store.users.rows.map fun u =>
              (u.archived, u.updated)) = [(some 5, 9), (none, 0), (none, 0)] := by
  refine ⟨?_, by decide +kernel⟩
  have hok : (Sample.directory.perform ⟨Sample.config true, 5⟩ Sample.acme
      (retirement.request .user (.str "u1"))).result.isOk = true := by decide +kernel
  have hdiffer : Sample.directory.store.AddressesDiffer Sample.acme := by
    unfold Store.AddressesDiffer
    decide +kernel
  have hreplayable : retirement.IsReplayable := by
    rintro ⟨hname, -⟩
    exact absurd hname (by decide)
  cases hanswer : (Sample.directory.perform ⟨Sample.config true, 5⟩ Sample.acme
      (retirement.request .user (.str "u1"))).result with
  | error e =>
    rw [hanswer] at hok
    cases hok
  | ok answer =>
    exact (edit_replays (Sample.build_config true) rfl Sample.directory Sample.acme (fun _ => hdiffer) (.str "u1")
      hreplayable 5 9 hanswer).1

/-- Makes the one member of the group its only member. -/
private def sameMembers : Edit :=
  .replace (.obj [("displayName", .str "Staff"), ("email", .str "all@acme.example"),
    ("members", Members.ofTexts ["u1"])])

/-- When a group is replaced once more, its members become members anew. -/
theorem not_edit_replays :
    ¬∀ {s : Settings} {c : Config}, Config.build s = .ok c → s.customUserAttributes = [] →
      ∀ (d : Directory), d.store.Sound → ∀ (owner : Company) (k : Kind),
        (k = .user → d.store.AddressesDiffer owner) → ∀ (identifier : Json) (e : Edit), e.IsReplayable →
          ∀ clock clock' : Nat, clock ≤ clock' →
            (d.perform ⟨c, clock⟩ owner (e.request k identifier)).result.isOk = true →
            let first := d.afterCall c ⟨clock, owner, e.request k identifier⟩
            let second := first.afterCall c ⟨clock', owner, e.request k identifier⟩
            ∃ r ∈ first.store.owned k owner, r.uuid = identifier.text ∧ ∃ updated : Nat,
              first.store.Rewrites r { r with updated } second.store := by
  intro hall
  obtain ⟨r, -, -, updated, hrewrites⟩ := hall (Sample.build_config true) rfl Sample.directory sound_sample Sample.acme
    .group nofun (.str "g1") sameMembers trivial 5 9 (by decide) (by decide +kernel)
  have hdiffer : ((Sample.directory.afterCall (Sample.config true)
      ⟨5, Sample.acme, sameMembers.request .group (.str "g1")⟩).afterCall (Sample.config true)
        ⟨9, Sample.acme, sameMembers.request .group (.str "g1")⟩).store.memberships ≠
      (Sample.directory.afterCall (Sample.config true)
        ⟨5, Sample.acme, sameMembers.request .group (.str "g1")⟩).store.memberships := by decide +kernel
  exact hdiffer hrewrites.memberships

end Roster
