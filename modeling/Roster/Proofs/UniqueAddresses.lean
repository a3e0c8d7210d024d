import Roster.Proofs.Frame
import Roster.Proofs.NaturalKeys
import Roster.Proofs.Runs
import Roster.Proofs.Sample

/-!
Addresses of users over whole runs.

No two users of a company have the same address in any case, as long as the addresses that are written are texts
of ASCII characters. A new user takes the place of the one with its address, and no user is given the address of
another one. Both look only at the first user with the address; there is never a second one.
-/

set_option autoImplicit false

namespace Roster

open Step

variable {s s' : Store} {owner : Company} {u u' : Row .user}

/-- The value is a text of ASCII characters. -/
def Json.isAscii : Json → Bool
  | .str text => Text.isAscii text.toList
  | _ => false

private theorem exists_of_isAscii {value : Json} (h : value.isAscii = true) :
    ∃ text, value = .str text ∧ Text.isAscii text.toList = true := by
  cases value
  case str text => exact ⟨text, rfl, h⟩
  all_goals cases h

/-- The value that an operation gives for the address of a user. -/
def PatchOperation.address? (room : Nat) (o : PatchOperation) : Option Json :=
  match o.document room (Schema.writable .user) with
  | .ok document => ((Schema.writable .user).extractPresent document).lookup "email"
  | .error _ => none

namespace Store

/-- Addresses are texts of ASCII characters, and no two users of a company have the same one in any case. -/
structure UniqueAddresses (s : Store) : Prop where
  ascii : ∀ u ∈ s.users.rows, Text.isAscii u.key.toList = true
  unique : ∀ u ∈ s.users.rows, ∀ v ∈ s.users.rows, u.company = v.company →
    Text.lowerPlain u.key.toList = Text.lowerPlain v.key.toList → u = v

/-- Nobody else in a company has an address. -/
def IsFreeFor (s : Store) (owner : Company) (u : Row .user) (address : String) : Prop :=
  ∀ v ∈ s.owned .user owner, Text.lowerPlain v.key.toList = Text.lowerPlain address.toList → v.id = u.id

/-- The operations of a PATCH request that are carried out, up to the first that is refused. -/
def carried (ctx : Context) (owner : Company) {k : Kind} :
    Store → Row k → List PatchOperation → List PatchOperation
  | _, _, [] => []
  | s, r, o :: rest =>
    match effect (applyOperation ctx owner k r o) s with
    | .ok (r', s') => o :: s'.carried ctx owner r' rest
    | .error _ => []

namespace UniqueAddresses

theorem isFreeFor (hs : s.UniqueAddresses) (hu : u ∈ s.owned .user owner) : s.IsFreeFor owner u u.key := by
  obtain ⟨hmem, hcompany⟩ := mem_owned.1 hu
  intro v hv hkey
  obtain ⟨hvmem, hvcompany⟩ := mem_owned.1 hv
  rw [hs.unique v hvmem u hmem (hvcompany.trans hcompany.symm) hkey]

theorem of_rewrites (hs : s.UniqueAddresses) (hu : u ∈ s.owned .user owner) (hw : s.Rewrites u u' s')
    (hascii : Text.isAscii u'.key.toList = true) (hfree : s.IsFreeFor owner u u'.key) : s'.UniqueAddresses := by
  have hcompany := (mem_owned.1 hu).2
  have hrows : ∀ x ∈ s'.users.rows, x = u' ∨ x ∈ s.users.rows ∧ x.id ≠ u'.id := by
    intro x hx
    change x ∈ (s'.table .user).rows at hx
    rw [hw.rows] at hx
    exact Table.mem_overwritten hx
  -- A row that is left has not the address of the new one.
  have hother : ∀ x ∈ s.users.rows, x.id ≠ u'.id → x.company = u'.company →
      Text.lowerPlain x.key.toList ≠ Text.lowerPlain u'.key.toList := by
    intro x hx hne hsame hkey
    rw [hw.company, hcompany] at hsame
    have hid := hfree x (mem_owned.2 ⟨hx, hsame⟩) hkey
    exact hne (hid.trans hw.id.symm)
  constructor
  · intro x hx
    rcases hrows x hx with rfl | ⟨hx, -⟩
    · exact hascii
    · exact hs.ascii x hx
  · intro x hx y hy hsame hkey
    rcases hrows x hx with rfl | ⟨hx, hxid⟩ <;> rcases hrows y hy with rfl | ⟨hy, hyid⟩
    · rfl
    · exact absurd hkey.symm (hother y hy hyid hsame.symm)
    · exact absurd hkey (hother x hx hxid hsame)
    · exact hs.unique x hx y hy hsame hkey

theorem of_insert (hs : s.UniqueAddresses) {t : Table .user} (ht : s.users.insert? u = some t)
    (hcompany : u.company = .integer owner.id) (hascii : Text.isAscii u.key.toList = true)
    (hfree : ∀ v ∈ s.owned .user owner, Text.lowerPlain v.key.toList ≠ Text.lowerPlain u.key.toList) :
    (s.withTable .user t).UniqueAddresses := by
  have hrows : ∀ x ∈ t.rows, x = u ∨ x ∈ s.users.rows := by
    intro x hx
    rw [(Table.rows_of_insert? ht).2] at hx
    exact Table.mem_placed hx
  have hother : ∀ x ∈ s.users.rows, x.company = u.company →
      Text.lowerPlain x.key.toList ≠ Text.lowerPlain u.key.toList := by
    intro x hx hsame
    exact hfree x (mem_owned.2 ⟨hx, hsame.trans hcompany⟩)
  constructor
  · intro x hx
    rcases hrows x hx with rfl | hx
    · exact hascii
    · exact hs.ascii x hx
  · intro x hx y hy hsame hkey
    rcases hrows x hx with rfl | hx <;> rcases hrows y hy with rfl | hy
    · rfl
    · exact absurd hkey.symm (hother y hy hsame.symm)
    · exact absurd hkey (hother x hx hsame)
    · exact hs.unique x hx y hy hsame hkey

/-- Fewer users have fewer addresses. -/
theorem of_subset (hs : s.UniqueAddresses) (hrows : ∀ x ∈ s'.users.rows, x ∈ s.users.rows) : s'.UniqueAddresses where
  ascii x hx := hs.ascii x (hrows x hx)
  unique x hx y hy := hs.unique x (hrows x hx) y (hrows y hy)

/-- On such texts it makes no difference how case is folded. -/
theorem unique_lower (hs : s.UniqueAddresses) (hu : u ∈ s.users.rows) (hu' : u' ∈ s.users.rows)
    (hcompany : u.company = u'.company) (hkey : Text.lower u.key.toList = Text.lower u'.key.toList) : u = u' := by
  rw [lower_of_ascii (hs.ascii u hu), lower_of_ascii (hs.ascii u' hu')] at hkey
  exact hs.unique u hu u' hu' hcompany hkey

theorem of_settled (hs : s.UniqueAddresses) (hu : u ∈ s.owned .user owner) {clock : Nat} {status : Option Bool}
    (h : s.settled clock u status = .ok (u', s')) : s'.UniqueAddresses := by
  have hkey := key_of_settled h
  have hw : s.Rewrites u u' s' := .of_settled (mem_rows_of_owned hu) h
  apply hs.of_rewrites hu hw
  · rw [hkey]
    exact hs.ascii u (mem_rows_of_owned hu)
  · rw [hkey]
    exact hs.isFreeFor hu

private theorem recognises_iff {address text : String} (hascii : Text.isAscii text.toList = true) :
    recognises .user address text = true ↔ Text.lowerPlain address.toList = Text.lowerPlain text.toList := by
  rw [recognises, lower_of_ascii hascii, beq_iff_eq]

section Standard

variable {ctx : Context} (h : ctx.config.IsStandard)

include h

/-- The first user with an address is the only one. -/
private theorem isFreeFor_of_checkKey (hs : s.UniqueAddresses) {attributes : Schema.Values}
    (hcheck : s.checkKey ctx.config owner u attributes = .ok ()) {address : String}
    (hvalue : attributes.lookup "email" = some (.str address)) (hascii : Text.isAscii address.toList = true) :
    s.IsFreeFor owner u address := by
  have hsole := ((s.checkKey_user_eq_ok h owner u attributes).1 hcheck (.str address) hvalue Json.noConfusion).2
  intro v hv hkey
  have hrecognised := (recognises_iff hascii).2 hkey
  cases hother : (s.owned .user owner).find? fun r => recognises .user r.key address with
  | none =>
    have hnone := List.find?_eq_none.1 hother v hv
    exact absurd hrecognised hnone
  | some other =>
    have hid := hsole other hother
    have hmem := List.mem_of_find?_eq_some hother
    have hrecognised' : recognises .user other.key address = true := by simpa using List.find?_some hother
    have hkey' := (recognises_iff hascii).1 hrecognised'
    obtain ⟨hmem, hcompany⟩ := mem_owned.1 hmem
    obtain ⟨hvmem, hvcompany⟩ := mem_owned.1 hv
    have hsame : v = other :=
      hs.unique v hvmem other hmem (hvcompany.trans hcompany.symm) (hkey.trans hkey'.symm)
    rw [hsame, hid]

theorem of_update (hs : s.UniqueAddresses) (hu : u ∈ s.owned .user owner) {attributes : Schema.Values}
    (hprofile : ProfileOnly .user attributes) (hnodup : (attributes.map Prod.fst).Nodup)
    (hcheck : s.checkKey ctx.config owner u attributes = .ok ()) {clock : Nat}
    (hupdate : s.update clock u attributes = .ok (u', s'))
    (hvalue : ∀ value, attributes.lookup "email" = some value → value.isAscii = true) : s'.UniqueAddresses := by
  have hw : s.Rewrites u u' s' := .of_update (mem_rows_of_owned hu) hprofile hupdate
  cases hlookup : attributes.lookup "email" with
  | none =>
    have hget := get_of_update hnodup hupdate (c := .email) (by decide)
    have hname : (Column.email : Column .user).name = "email" := rfl
    rw [hname, hlookup] at hget
    have hkey : u'.key = u.key := key_eq_of_get (hget.trans (get_key u))
    apply hs.of_rewrites hu hw
    · rw [hkey]
      exact hs.ascii u (mem_rows_of_owned hu)
    · rw [hkey]
      exact hs.isFreeFor hu
  | some value =>
    obtain ⟨address, rfl, hascii⟩ := exists_of_isAscii (hvalue value hlookup)
    have hkey : u'.key = address := key_eq_of_get (get_of_update_str hnodup hupdate rfl hlookup)
    apply hs.of_rewrites hu hw
    · rw [hkey]
      exact hascii
    · rw [hkey]
      exact isFreeFor_of_checkKey h hs hcheck hlookup hascii

private theorem of_applyOperation (hs : s.UniqueAddresses) (hu : u ∈ s.owned .user owner) {o : PatchOperation}
    (he : effect (applyOperation ctx owner .user u o) s = .ok (u', s'))
    (hvalue : ∀ value, o.address? ctx.config.room = some value → value.isAscii = true) : s'.UniqueAddresses := by
  rw [applyOperation] at he
  split at he
  · rw [effect_replaceAttributes, h.mutableSchema] at he
    obtain ⟨document, hdocument, he⟩ := bind_eq_ok.1 he
    split at he
    · obtain ⟨status, -, he⟩ := bind_eq_ok.1 he
      obtain ⟨⟨u₁, s₁⟩, hwritten, hsettled⟩ := bind_eq_ok.1 he
      rw [PatchOperation.address?, hdocument] at hvalue
      rw [written] at hwritten
      split at hwritten
      · cases hwritten
        exact hs.of_settled hu hsettled
      · obtain ⟨⟨⟩, hcheck, hupdate⟩ := bind_eq_ok.1 hwritten
        have hprofile := profileOnly_extractPresent .user document
        have hnodup := (Schema.writable .user).nodup_extractPresent document
        have hw : s.Rewrites u u₁ s₁ := .of_update (mem_rows_of_owned hu) hprofile hupdate
        have hs₁ := hs.of_update h hu hprofile hnodup hcheck hupdate hvalue
        exact hs₁.of_settled (hw.mem_owned hu) hsettled
    · cases he
  · cases he

theorem patched (hs : s.UniqueAddresses) (hu : u ∈ s.owned .user owner) (operations : List PatchOperation)
    (hvalues : ∀ o ∈ s.carried ctx owner u operations, ∀ value, o.address? ctx.config.room = some value →
      value.isAscii = true) :
    (s.patched ctx owner u operations).2.UniqueAddresses := by
  induction operations generalizing s u with
  | nil => exact hs
  | cons o rest ih =>
    rw [carried] at hvalues
    rw [Store.patched]
    cases he : effect (applyOperation ctx owner .user u o) s with
    | error e => exact hs
    | ok p =>
      obtain ⟨u', s'⟩ := p
      rw [he] at hvalues
      have hs' : s'.UniqueAddresses := of_applyOperation h hs hu he (hvalues o List.mem_cons_self)
      have hp : s.Patches owner .user u u' s' := .of_applyOperation h (mem_rows_of_owned hu) he
      apply ih hs' (hp.mem_owned hu)
      intro o' ho'
      exact hvalues o' (List.mem_cons_of_mem o ho')

theorem created (hs : s.UniqueAddresses) {uuid : String} {payload : Json}
    (hc : s.created ctx owner .user uuid payload = .ok (u', s'))
    (hvalue : ∀ value, ((Schema.writable .user).extract payload).lookup "email" = some value → value.isAscii = true) :
    s'.UniqueAddresses := by
  obtain ⟨p, hp, hc⟩ := bind_eq_ok.1 hc
  obtain ⟨hcomplete, -, -, -, key, hkey, hexisting⟩ := creation_eq_ok.1 hp
  have hprofile := h.profileOnly_complete hcomplete
  obtain ⟨-, hattributes⟩ := ResourceConfig.eq_extract_of_complete hcomplete
  rw [h.mutableSchema] at hattributes
  have hname : (ctx.config.resource .user).naturalKey = "email" := h.naturalKey .user
  rw [hname] at hkey
  have hnodup : (p.attributes.map Prod.fst).Nodup := by
    rw [hattributes]
    exact (Schema.writable .user).nodup_extract payload
  rw [← hattributes] at hvalue
  obtain ⟨address, rfl, hascii⟩ := exists_of_isAscii (hvalue key hkey)
  rw [Store.findBy_key h] at hexisting
  obtain ⟨⟨u₁, s₁⟩, hupserted, hc⟩ := bind_eq_ok.1 hc
  have hfound : ∀ found, p.existing = some found → found ∈ s.owned .user owner := by
    intro found hfound
    exact List.mem_of_find?_eq_some ((Except.ok.inj hexisting).trans hfound)
  have hnew : u₁.key = address :=
    key_eq_of_get (get_of_upserted_str hnodup hupserted (isProfile_key .user) hkey)
  have hmem : u₁ ∈ s₁.owned .user owner := (writes_of_upserted hprofile hfound hupserted).mem
  have hs₁ : s₁.UniqueAddresses := by
    rcases upserted_cases hprofile hupserted with ⟨found, hsome, hupdate⟩ | ⟨hnone, profile, t, rfl, ht, rfl⟩
    · have hfind := (Except.ok.inj hexisting).trans hsome
      have hw : s.Rewrites found u₁ s₁ := .of_update (mem_rows_of_owned (hfound found hsome)) hprofile hupdate
      have hrecognised : recognises .user found.key address = true := by simpa using List.find?_some hfind
      have hsame := (recognises_iff hascii).1 hrecognised
      apply hs.of_rewrites (hfound found hsome) hw
      · rw [hnew, hascii]
      · intro v hv hkey
        rw [hnew, ← hsame] at hkey
        exact hs.isFreeFor (hfound found hsome) v hv hkey
    · have hfind := (Except.ok.inj hexisting).trans hnone
      apply hs.of_insert ht rfl
      · rw [hnew, hascii]
      · intro v hv hkey
        rw [hnew] at hkey
        exact List.find?_eq_none.1 hfind v hv ((recognises_iff hascii).2 hkey)
  obtain ⟨⟨u₂, s₂⟩, hsettled, e⟩ := map_eq_ok.1 hc
  cases e
  exact hs₁.of_settled hmem hsettled

theorem replaced (hs : s.UniqueAddresses) {identifier payload : Json}
    (hc : s.replaced ctx owner .user identifier payload = .ok (u', s'))
    (hvalue : ∀ value, ((Schema.writable .user).extract payload).lookup "email" = some value → value.isAscii = true) :
    s'.UniqueAddresses := by
  obtain ⟨found, hget, hc⟩ := bind_eq_ok.1 hc
  obtain ⟨users, -, hc⟩ := bind_eq_ok.1 hc
  obtain ⟨status, -, hc⟩ := bind_eq_ok.1 hc
  obtain ⟨attributes, hcomplete, hc⟩ := bind_eq_ok.1 hc
  obtain ⟨⟨⟩, hcheck, hc⟩ := bind_eq_ok.1 hc
  obtain ⟨⟨u₁, s₁⟩, hupdate, hc⟩ := bind_eq_ok.1 hc
  have hmem := mem_owned_of_get h hget
  have hcomplete := eq_ok_of_mapError hcomplete
  have hprofile := h.profileOnly_complete hcomplete
  obtain ⟨-, hattributes⟩ := ResourceConfig.eq_extract_of_complete hcomplete
  rw [h.mutableSchema] at hattributes
  rw [← hattributes] at hvalue
  have hnodup : (attributes.map Prod.fst).Nodup := by
    rw [hattributes]
    exact (Schema.writable .user).nodup_extract payload
  have hw : s.Rewrites found u₁ s₁ := .of_update (mem_rows_of_owned hmem) hprofile hupdate
  have hs₁ := hs.of_update h hmem hprofile hnodup hcheck hupdate hvalue
  obtain ⟨⟨u₂, s₂⟩, hsettled, e⟩ := map_eq_ok.1 hc
  cases e
  exact hs₁.of_settled (hw.mem_owned hmem) hsettled

end Standard

end UniqueAddresses

end Store

/-! ## Runs -/

namespace Directory

variable (c : Config)

/-- The values that a call gives for addresses of users and that are written. A request that is refused writes
none, but those of the operations that come before the one that is refused unless PATCH is atomic. -/
def addressesWritten (d : Directory) (call : Call) : List Json :=
  let answered := (d.perform ⟨c, call.clock⟩ call.owner call.request).result.isOk
  match call.request with
  | .create .user payload | .replace .user _ payload =>
    if answered then (((Schema.writable .user).extract payload).lookup "email").toList else []
  | .patch .user identifier operations =>
    match c.serve .user, d.store.get c .user call.owner identifier with
    | .ok _, .ok u =>
      if answered || !c.atomicPatch then
        (d.store.carried ⟨c, call.clock⟩ call.owner u operations).filterMap (PatchOperation.address? c.room)
      else []
    | _, _ => []
  | _ => []

/-- All addresses that are written in a run are texts of ASCII characters. -/
def WritesAscii : Directory → List Call → Prop
  | _, [] => True
  | d, call :: rest =>
    (∀ value ∈ d.addressesWritten c call, value.isAscii = true) ∧ WritesAscii (d.afterCall c call) rest

variable {c} {d : Directory}

/-- Requests on groups leave all users as they are. -/
private theorem uniqueAddresses_of_spares (hd : d.store.UniqueAddresses) {id : Int} {s' : Store} {owner : Company}
    (hs : d.store.Spares owner .group id s') : s'.UniqueAddresses := by
  have husers : s'.users = d.store.users := hs.others .user (by decide)
  apply hd.of_subset
  rw [husers]
  exact fun x hx => hx

/-! The addresses that a request writes are those that it gives. -/

section Written

variable {clock : Nat} {owner : Company} {value : Json}

private theorem mem_of_create {payload : Json}
    (hanswered : (d.perform ⟨c, clock⟩ owner (.create .user payload)).result.isOk = true)
    (hvalue : ((Schema.writable .user).extract payload).lookup "email" = some value) :
    value ∈ d.addressesWritten c ⟨clock, owner, .create .user payload⟩ := by
  rw [addressesWritten]
  dsimp only
  rw [if_pos hanswered, hvalue]
  exact List.mem_singleton_self value

private theorem mem_of_replace {identifier payload : Json}
    (hanswered : (d.perform ⟨c, clock⟩ owner (.replace .user identifier payload)).result.isOk = true)
    (hvalue : ((Schema.writable .user).extract payload).lookup "email" = some value) :
    value ∈ d.addressesWritten c ⟨clock, owner, .replace .user identifier payload⟩ := by
  rw [addressesWritten]
  dsimp only
  rw [if_pos hanswered, hvalue]
  exact List.mem_singleton_self value

private theorem mem_of_patch {identifier : Json} {operations : List PatchOperation} {u : Row .user} {pager : Pager}
    (hserve : c.serve .user = .ok pager) (hget : d.store.get c .user owner identifier = .ok u)
    (hkept : ((d.perform ⟨c, clock⟩ owner (.patch .user identifier operations)).result.isOk || !c.atomicPatch) = true)
    {o : PatchOperation} (ho : o ∈ d.store.carried ⟨c, clock⟩ owner u operations)
    (hvalue : o.address? c.room = some value) :
    value ∈ d.addressesWritten c ⟨clock, owner, .patch .user identifier operations⟩ := by
  rw [addressesWritten]
  dsimp only
  rw [hserve, hget]
  dsimp only
  rw [if_pos hkept]
  exact List.mem_filterMap.2 ⟨o, ho, hvalue⟩

end Written

variable (h : c.IsStandard)

include h

private theorem uniqueAddresses_afterCall (hd : d.store.UniqueAddresses) (call : Call)
    (hwritten : ∀ value ∈ d.addressesWritten c call, value.isAscii = true) :
    (d.afterCall c call).store.UniqueAddresses := by
  obtain ⟨clock, owner, request⟩ := call
  have hctx : (Context.mk c clock).config.IsStandard := h
  cases d.carries h ⟨clock, owner, request⟩ with
  | nothing hstore =>
    rw [hstore]
    exact hd
  | @create k payload r hrequest hanswered hcreated =>
    obtain rfl : request = _ := hrequest
    cases k with
    | user => exact hd.created hctx hcreated fun value hvalue => hwritten value (mem_of_create hanswered hvalue)
    | group => exact uniqueAddresses_of_spares hd (Store.alters_of_created hctx hcreated).toSpares
  | @replace k identifier payload r hrequest hanswered hreplaced =>
    obtain rfl : request = _ := hrequest
    cases k with
    | user => exact hd.replaced hctx hreplaced fun value hvalue => hwritten value (mem_of_replace hanswered hvalue)
    | group => exact uniqueAddresses_of_spares hd (Store.alters_of_replaced hctx hreplaced).toSpares
  | @patch k identifier operations r pager hrequest hserve hget hkept hpatched =>
    obtain rfl : request = _ := hrequest
    have hmem := Store.mem_owned_of_get h hget
    rw [hpatched]
    cases k with
    | user =>
      exact hd.patched hctx hmem operations fun o ho value hvalue =>
        hwritten value (mem_of_patch hserve hget hkept ho hvalue)
    | group =>
      have halters := (Store.Alters.of_mem hmem).patched hctx hmem rfl operations
      exact uniqueAddresses_of_spares hd halters.toSpares
  | @delete k identifier r hrequest hdeleted =>
    obtain ⟨found, hget, e⟩ := map_eq_ok.1 hdeleted
    obtain ⟨rfl, hstore⟩ := Prod.mk.inj e
    rw [← hstore]
    cases k with
    | user => exact hd.of_subset fun x hx => (List.mem_filter.1 hx).1
    | group => exact uniqueAddresses_of_spares hd (.of_erase (Store.mem_owned_of_get h hget))

omit h in
private theorem uniqueAddresses_after (h : c.IsStandard) (hd : d.store.UniqueAddresses) (calls : List Call)
    (hwritten : d.WritesAscii c calls) : (d.after c calls).store.UniqueAddresses := by
  induction calls generalizing d with
  | nil => exact hd
  | cons call rest ih =>
    obtain ⟨hcall, hrest⟩ := hwritten
    exact ih (uniqueAddresses_afterCall h hd call hcall) hrest

end Directory

/-- No two users of a company come to have the same address in any case, archived or not, whatever requests are
made, as long as the addresses that are written are texts of ASCII characters. -/
theorem addresses_unique_after {s : Settings} {c : Config} (hb : Config.build s = .ok c)
    (hs : s.customUserAttributes = []) (d : Directory) (hd : d.store.UniqueAddresses) (calls : List Call)
    (hwritten : d.WritesAscii c calls) :
    (d.after c calls).store.UniqueAddresses ∧
      ∀ u ∈ (d.after c calls).store.users.rows, ∀ v ∈ (d.after c calls).store.users.rows,
        u.company = v.company → Text.lower u.key.toList = Text.lower v.key.toList → u = v := by
  have h := Config.isStandard_of_build hb hs
  have hafter := Directory.uniqueAddresses_after h hd calls hwritten
  refine ⟨hafter, ?_⟩
  intro u hu v hv hcompany hkey
  exact hafter.unique_lower hu hv hcompany hkey

private def addressed (email : String) : Json := .obj [
  ("name", .obj [("givenName", .str "Ann"), ("familyName", .str "Lee")]),
  ("emails", .arr [.obj [("value", .str email)]])]

private def readdress (email : String) : PatchOperation := ⟨"replace", some "emails.value", some (.str email)⟩

/-- Two companies create users with the address of the first user in other case, and the second user is refused
that address. -/
private def addressRun : List Call := [
  ⟨5, Sample.acme, .create .user (addressed "ADA@acme.example")⟩,
  ⟨6, Sample.other, .create .user (addressed "Ada@ACME.example")⟩,
  ⟨7, Sample.acme, .patch .user (.str "u2") [readdress "ray@acme.example", readdress "aDA@acme.example"]⟩]

theorem addresses_unique_after_sample :
    (Sample.directory.after (Sample.config false) addressRun).store.users.rows.map (fun u => (u.company, u.key)) =
        [(.integer 1, "ADA@acme.example"), (.integer 1, "ray@acme.example"), (.integer 2, "eve@other.example"),
          (.integer 2, "Ada@ACME.example")] ∧
      (Sample.directory.after (Sample.config false) addressRun).store.UniqueAddresses := by
  have hunique : Sample.store.UniqueAddresses := ⟨by decide +kernel, by decide +kernel⟩
  have hwritten : Sample.directory.WritesAscii (Sample.config false) addressRun :=
    ⟨by decide +kernel, by decide +kernel, by decide +kernel, trivial⟩
  have hafter := addresses_unique_after (Sample.build_config false) rfl Sample.directory hunique addressRun hwritten
  exact ⟨by decide +kernel, hafter.1⟩

end Roster
