import Mathlib.Data.List.Perm.Subperm
import Roster.Proofs.Edits
import Roster.Proofs.Renumbering
import Roster.Proofs.RowOrder
import Roster.Proofs.Sample
import Roster.Proofs.WrittenOrders

/-!
Lists in pages.

A list is asked for page by page, each page starting where the one before ends. As nothing changes in between, the
pages are cut from one list: the resources of the company that the filter selects, in the order of the
configuration. So nothing is lost between two pages, and nothing is shown twice.
-/

set_option autoImplicit false

namespace Roster

open Number (maxInt64 fitsInt64)

variable {k : Kind}

/-! ## Cutting a list -/

/-- The first pages of a list, as many as are asked for; those after its end are empty. -/
def pagesOf {α : Type} (size : Nat) : Nat → List α → List (List α)
  | 0, _ => []
  | n + 1, items => items.take size :: pagesOf size n (items.drop size)

section Cutting

variable {α : Type} {size n : Nat} {items : List α}

@[simp] theorem length_pagesOf : (pagesOf size n items).length = n := by
  induction n generalizing items with
  | zero => rfl
  | succ n ih => simp [pagesOf, ih]

/-- One after the other, pages are the beginning of the list. -/
theorem flatten_pagesOf : (pagesOf size n items).flatten = items.take (n * size) := by
  induction n generalizing items with
  | zero => simp [pagesOf]
  | succ n ih =>
    have hlength : (n + 1) * size = size + n * size := by rw [Nat.add_mul, Nat.one_mul, Nat.add_comm]
    rw [pagesOf, List.flatten_cons, ih, hlength, List.take_add]

theorem getElem_pagesOf {number : Nat} (h : number < (pagesOf size n items).length) :
    (pagesOf size n items)[number] = (items.drop (number * size)).take size := by
  induction n generalizing items number with
  | zero => simp [pagesOf] at h
  | succ n ih =>
    cases number with
    | zero => simp [pagesOf]
    | succ number =>
      have hstart : size + number * size = (number + 1) * size := by rw [Nat.add_mul, Nat.one_mul, Nat.add_comm]
      simp only [pagesOf, List.getElem_cons_succ]
      rw [ih, List.drop_drop, hstart]

end Cutting

/-! ## The window of a page -/

theorem fitsInt64_of_le {n : Int} (h : 0 ≤ n) (h' : n ≤ maxInt64) : fitsInt64 n = true := by
  have hmin : Number.minInt64 ≤ 0 := by decide
  rw [fitsInt64, Bool.and_eq_true, decide_eq_true_eq, decide_eq_true_eq]
  omega

namespace Pager

theorem clampStart_eq {first : Int} (hfirst : 1 ≤ first) (hfits : first ≤ maxInt64) :
    clampStart (some first) = first := by
  rw [clampStart]
  omega

theorem clampCount_eq {p : Pager} {size : Int} (hsize : 0 ≤ size) (hmax : ∀ n, p.maxCount = some n → size ≤ n) :
    p.clampCount (some size) = min size maxInt64 := by
  have hpositive : max size 0 = size := by omega
  rw [clampCount]
  cases hgreatest : p.maxCount with
  | none => simp [hpositive]
  | some n =>
    have hn := hmax n hgreatest
    have hsmaller : min size n = size := by omega
    simp [hpositive, hsmaller]

theorem window_eq {p : Pager} {start count : Json} {first size : Int}
    (hstart : integer "startIndex" start = .ok (some first)) (hcount : integer "count" count = .ok (some size))
    (hfirst : 1 ≤ first) (hfits : first ≤ maxInt64) (hsize : 0 ≤ size)
    (hmax : ∀ n, p.maxCount = some n → size ≤ n) :
    p.window start count = .ok ⟨first, first - 1, min size maxInt64⟩ := by
  rw [window, hstart, ok_bind, hcount, ok_bind, clampStart_eq hfirst hfits, clampCount_eq hsize hmax]
  rfl

end Pager

/-- A part of a list that the store gives is the page of a number. -/
theorem slice_eq {α : Type} {items : List α} {size number : Nat}
    (h : (size : Int) ≤ maxInt64 ∨ (items.length : Int) ≤ maxInt64) :
    Store.slice (number * size) (some (min (size : Int) maxInt64)) items = (items.drop (number * size)).take size := by
  have hoffset : ((number : Int) * size).toNat = number * size := by
    rw [← Int.natCast_mul, Int.toNat_natCast]
  have hlimit : ¬min (size : Int) maxInt64 < 0 := by
    have : (0 : Int) ≤ maxInt64 := by decide
    omega
  rw [Store.slice, hoffset, if_neg hlimit]
  rcases h with h | h
  · have hsame : (min (size : Int) maxInt64).toNat = size := by omega
    rw [hsame]
  · -- Neither bound cuts anything off.
    have hlength : (items.drop (number * size)).length ≤ items.length := by simp
    rw [List.take_eq_take_iff]
    omega

/-! ## What is listed -/

/-- A filter selects a row by the text in the column that it is about. -/
def Filter.Expression.SelectsRow (e : Filter.Expression) (r : Row k) : Prop :=
  ∃ c : Column k, c.name = e.column ∧ ∃ text, r.get c = .text text ∧ e.selects text = true

namespace Store

/-- The rows of a list: those of the company that the filter selects, each once, in the order of the configuration. -/
structure Lists (s : Store) (c : Config) (owner : Company) (filter : Option Filter.Expression)
    (rows : List (Row k)) : Prop where
  nodup : rows.Nodup
  mem : ∀ r, r ∈ rows ↔ r ∈ s.owned k owner ∧ ∀ e, filter = some e → e.SelectsRow r
  ordered : rows.Pairwise (Row.Precedes (c.resource k).listOrder)

variable {s : Store} {c : Config} {owner : Company} {filter : Option Filter.Expression}

/-- There is no other list of these rows. -/
theorem Lists.unique {rows rows' : List (Row k)} (h : s.Lists c owner filter rows)
    (h' : s.Lists c owner filter rows') : rows = rows' := by
  have hperm : rows.Perm rows' := by
    rw [List.perm_ext_iff_of_nodup h.nodup h'.nodup]
    intro r
    rw [h.mem, h'.mem]
  refine hperm.eq_of_pairwise ?_ h.ordered h'.ordered
  intro a b _ _ hab hba
  exact absurd (hab.trans hba) (Row.Precedes.irrefl _ a)

/-- A filter on a column of texts selects rows as long as its pattern is not too long to be tried on them. -/
theorem exists_selected (hcolumn : ∀ e, filter = some e → ∃ x : Column k, x.name = e.column ∧ x.isProfile = true)
    (hlong : ∀ e, filter = some e → e.isTooLong = false ∨ s.owned k owner = []) :
    ∃ found, s.selected k owner filter = .ok found ∧ found.Nodup ∧
      ∀ r, r ∈ found ↔ r ∈ s.owned k owner ∧ ∀ e, filter = some e → e.SelectsRow r := by
  cases filter with
  | none =>
    refine ⟨s.owned k owner, rfl, s.nodup_owned k owner, fun r => ?_⟩
    simp
  | some e =>
    obtain ⟨x, hname, hprofile⟩ := hcolumn e rfl
    have htype := type_of_isProfile hprofile
    obtain ⟨holds, hpredicate, htext, hnull⟩ := exists_predicate_of_text hname htype
    have htried : (isTooLong k e && !(s.owned k owner).isEmpty) = false := by
      rw [isTooLong_of_text hname htype]
      rcases hlong e rfl with h | h <;> simp [h]
    have hselected : s.selected k owner (some e) = .ok ((s.owned k owner).filter fun r => holds (r.get x)) := by
      rw [selected, hpredicate, ok_bind]
      dsimp only
      rw [htried]
      rfl
    refine ⟨_, hselected, (s.nodup_owned k owner).filter _, fun r => ?_⟩
    rw [List.mem_filter]
    refine and_congr_right fun hr => ?_
    have hcell := Row.isOf_get (mem_owned.1 hr).2 x
    rw [htype] at hcell
    constructor
    · rintro h e' ⟨⟩
      refine ⟨x, hname, ?_⟩
      cases hget : r.get x with
      | text text =>
        rw [hget, htext] at h
        exact ⟨text, rfl, h⟩
      | null =>
        rw [hget, hnull] at h
        cases h
      | _ =>
        rw [hget] at hcell
        cases hcell
    · intro h
      obtain ⟨y, hy, text, hget, hselects⟩ := h e rfl
      have hxy : y = x := Column.eq_of_name (hy.trans hname.symm)
      rw [← hxy, hget, htext]
      exact hselects

/-- Every part of a list that the store is asked for is cut from the same rows, and comes with their number, if the
order is short enough for one statement. -/
theorem exists_lists (horder : ∀ o ∈ (c.resource k).listOrder, (Column.ofName? k o.column).isSome = true)
    (hcriteria : criteria (c.resource k).listOrder ≤ maxCriteria)
    (hcolumn : ∀ e, filter = some e → ∃ x : Column k, x.name = e.column ∧ x.isProfile = true)
    (hlong : ∀ e, filter = some e → e.isTooLong = false ∨ s.owned k owner = []) :
    ∃ rows, s.Lists c owner filter rows ∧ ∀ offset limit, fitsInt64 offset = true → fitsInt64 limit = true →
      s.query k owner filter (c.resource k).listOrder offset (some limit) =
        .ok ⟨slice offset (some limit) rows, rows.length⟩ := by
  obtain ⟨found, hfound, hnodup, hmem⟩ := exists_selected hcolumn hlong
  obtain ⟨keys, hkeys⟩ := exists_orderKeys horder
  have hperm : (sortRows (keys ++ [(.id, false)]) found).Perm found := List.mergeSort_perm found _
  refine ⟨sortRows (keys ++ [(.id, false)]) found, ⟨?_, ?_, ?_⟩, ?_⟩
  · exact hperm.nodup_iff.2 hnodup
  · intro r
    rw [hperm.mem_iff, hmem]
  · exact pairwise_sortRows hkeys (fun r hr => ((hmem r).1 hr).1) hnodup
  · intro offset limit hoffset hlimit
    have hends : (fitsInt64 offset && Option.all fitsInt64 (some limit)) = true := by simp [hoffset, hlimit]
    rw [query_eq, hfound, sortKeys_eq hkeys]
    dsimp only [Except.bind]
    rw [if_neg (Nat.not_lt.2 hcriteria), if_pos hends, hperm.length_eq]

end Store

/-! ## Asking for one page after the other -/

/-- A call asks for the page of a number, counted from zero, of a list in pages of a size. -/
structure Call.AsksForPage (call : Call) (owner : Company) (k : Kind) (filter : Json) (size number : Nat) : Prop where
  company : call.owner = owner
  request : ∃ start count, call.request = .list k filter start count ∧
    Pager.integer "startIndex" start = .ok (some (1 + number * size)) ∧ Pager.integer "count" count = .ok (some size)
  fits : (1 : Int) + number * size ≤ maxInt64

/-- A company is shown a list in pages of a size. There are rows that are those of the list, each of which is shown by
the same document when it is asked for by its identifier. However many pages are asked for one after the other, each
comes with the number of all rows and is as long as can be; together they are the beginning of the list, and all of it
once they reach its end; and nothing has changed. -/
def Directory.ListsInPages (d : Directory) (c : Config) (owner : Company) (k : Kind) (filter : Json)
    (expression : Option Filter.Expression) (size : Nat) : Prop :=
  ∃ rows : List (Row k), d.store.Lists c owner expression rows ∧
    (∀ clock, ∀ r ∈ rows,
      (d.perform ⟨c, clock⟩ owner (.show k (.str r.uuid))).result = .ok (d.store.document k r)) ∧
    ∀ calls : List Call,
      (∀ number (h : number < calls.length), calls[number].AsksForPage owner k filter size number) →
      d.after c calls = d ∧ ∃ pages : List (List (Row k)),
        d.results c calls = pages.mapIdx (fun number page => .ok (listAnswer rows.length (1 + number * size)
          (min size maxInt64) (page.map (d.store.document k)))) ∧
        (∀ number (h : number < pages.length), pages[number].length = min size (rows.length - number * size)) ∧
        pages.flatten = rows.take (calls.length * size)

namespace Directory

variable {c : Config} {d : Directory} {owner : Company} {filter : Json} {size : Nat}

/-- Requests for a list leave the directory as it is. -/
theorem perform_list {ctx : Context} (h : ctx.config.IsStandard) {pager : Pager}
    (hserve : ctx.config.serve k = .ok pager) (d : Directory) (owner : Company) (filter start count : Json) :
    (d.perform ctx owner (.list k filter start count)).result =
        d.store.listing ctx.config owner pager k filter start count ∧
      (d.perform ctx owner (.list k filter start count)).directory = d := by
  exact perform_of_serve h d owner (.list k filter start count) hserve

/-- Calls that leave the directory as it is are all answered from it. -/
theorem results_of_unchanged {calls : List Call} (h : ∀ call ∈ calls, d.afterCall c call = d) :
    d.after c calls = d ∧
      d.results c calls = calls.map fun call => (d.perform ⟨c, call.clock⟩ call.owner call.request).result := by
  induction calls with
  | nil => exact ⟨rfl, rfl⟩
  | cons call rest ih =>
    have hcall := h call List.mem_cons_self
    obtain ⟨hafter, hresults⟩ := ih fun call' hcall' => h call' (List.mem_cons_of_mem call hcall')
    constructor
    · rw [after, List.foldl_cons, hcall]
      exact hafter
    · rw [results, hcall, hresults, List.map_cons]

section Served

variable {rows : List (Row k)} {expression : Option Filter.Expression} {pager : Pager} (h : c.IsStandard)
  (hserve : c.serve k = .ok pager) (hexpression : Request.filterOf (c.resource k).queryable filter = .ok expression)
  (hmax : ∀ n, c.maxPageSize = some n → (size : Int) ≤ n)
  (hfits : (size : Int) ≤ maxInt64 ∨ (rows.length : Int) ≤ maxInt64)
  (hquery : ∀ offset limit, fitsInt64 offset = true → fitsInt64 limit = true →
    d.store.query k owner expression (c.resource k).listOrder offset (some limit) =
      .ok ⟨Store.slice offset (some limit) rows, rows.length⟩)

include h hserve hexpression hmax hfits hquery

/-- A call for a page is answered with this page, and leaves the directory as it is. -/
theorem perform_page {call : Call} {number : Nat} (hcall : call.AsksForPage owner k filter size number) :
    (d.perform ⟨c, call.clock⟩ call.owner call.request).result =
        .ok (listAnswer rows.length (1 + number * size) (min size maxInt64)
          (((rows.drop (number * size)).take size).map (d.store.document k))) ∧
      d.afterCall c call = d := by
  obtain ⟨clock, caller, request⟩ := call
  obtain ⟨rfl, ⟨start, count, rfl, hstart, hcount⟩, hbound⟩ := hcall
  have hctx : (Context.mk c clock).config.IsStandard := h
  obtain ⟨hresult, hdirectory⟩ := perform_list hctx hserve d caller filter start count
  have hoffset : (0 : Int) ≤ number * size := Int.mul_nonneg (Int.natCast_nonneg number) (Int.natCast_nonneg size)
  have hwindow : pager.window start count =
      .ok ⟨1 + number * size, number * size, min size maxInt64⟩ := by
    have hmax' : ∀ n, pager.maxCount = some n → (size : Int) ≤ n := by
      rw [Config.maxCount_of_serve hserve]
      exact hmax
    have hwindow := Pager.window_eq hstart hcount (by omega) hbound (Int.natCast_nonneg size) hmax'
    rw [hwindow, Int.add_comm 1, Int.add_sub_cancel]
  have hfirst : fitsInt64 ((number : Int) * size) = true := fitsInt64_of_le hoffset (by omega)
  have hlast : fitsInt64 (min (size : Int) maxInt64) = true := by
    have hpositive : (0 : Int) ≤ maxInt64 := by decide
    exact fitsInt64_of_le (by omega) (by omega)
  refine ⟨?_, hdirectory⟩
  change ((d.perform ⟨c, clock⟩ caller (.list k filter start count)).result) = _
  rw [hresult, Store.listing, hwindow, ok_bind, hexpression, ok_bind, hquery _ _ hfirst hlast, ok_bind,
    slice_eq hfits]
  rfl

/-- Calls for one page after the other are answered with the pages of one list. -/
theorem results_pages {calls : List Call}
    (hcalls : ∀ number (h : number < calls.length), calls[number].AsksForPage owner k filter size number) :
    d.after c calls = d ∧
      d.results c calls = (pagesOf size calls.length rows).mapIdx fun number page =>
        .ok (listAnswer rows.length (1 + number * size) (min size maxInt64) (page.map (d.store.document k))) := by
  have hunchanged : ∀ call ∈ calls, d.afterCall c call = d := by
    intro call hcall
    obtain ⟨number, hnumber, rfl⟩ := List.getElem_of_mem hcall
    exact (perform_page h hserve hexpression hmax hfits hquery (hcalls number hnumber)).2
  obtain ⟨hafter, hresults⟩ := results_of_unchanged hunchanged
  refine ⟨hafter, hresults.trans (List.ext_getElem (by simp) ?_)⟩
  intro number hleft hright
  have hnumber : number < calls.length := by simpa using hleft
  rw [List.getElem_map, List.getElem_mapIdx, getElem_pagesOf]
  exact (perform_page h hserve hexpression hmax hfits hquery (hcalls number hnumber)).1

end Served

end Directory

/-- Whatever the order of lists is as long as one statement can sort by it, and whatever the filter unless its pattern
is too long to be tried on a resource of the company: a list is shown in pages of every size that the configuration
allows, without a loss and without a repetition. -/
theorem lists_in_pages {s : Settings} {c : Config} (hb : Config.build s = .ok c) (hs : s.customUserAttributes = [])
    (hdefault : 0 ≤ s.defaultPageSize) (hgreatest : ∀ n, s.maxPageSize = some n → 0 ≤ n) (d : Directory)
    (owner : Company) (k : Kind) (hcriteria : Store.criteria (c.resource k).listOrder ≤ Store.maxCriteria)
    {filter : Json} {expression : Option Filter.Expression}
    (hexpression : Request.filterOf (c.resource k).queryable filter = .ok expression)
    (hlong : ∀ e, expression = some e → e.isTooLong = false ∨ d.store.owned k owner = []) {size : Nat}
    (hmax : ∀ n, c.maxPageSize = some n → (size : Int) ≤ n)
    (hfits : (size : Int) ≤ maxInt64 ∨ ((d.store.owned k owner).length : Int) ≤ maxInt64) :
    d.ListsInPages c owner k filter expression size := by
  have h : c.IsStandard := Config.isStandard_of_build hb hs
  obtain ⟨pager, hserve⟩ := Config.exists_serve hb hdefault hgreatest k
  have hcolumn : ∀ e, expression = some e → ∃ x : Column k, x.name = e.column ∧ x.isProfile = true := by
    rintro e rfl
    exact h.column_of_filterOf hexpression
  obtain ⟨rows, hrows, hquery⟩ := Store.exists_lists (Config.namesKnown_of_build hb k).listOrder hcriteria hcolumn
    hlong
  have hlength : (size : Int) ≤ maxInt64 ∨ (rows.length : Int) ≤ maxInt64 := by
    have hle : rows.length ≤ (d.store.owned k owner).length :=
      (List.subperm_of_subset hrows.nodup fun r hr => ((hrows.mem r).1 hr).1).length_le
    omega
  refine ⟨rows, hrows, ?_, ?_⟩
  · intro clock r hr
    have hctx : (Context.mk c clock).config.IsStandard := h
    have hget : d.store.get c k owner (.str r.uuid) = .ok r :=
      (d.store.get_eq_ok h owner).2 ⟨rfl, ((hrows.mem r).1 hr).1, rfl⟩
    exact Directory.result_show hctx (Store.found_eq_ok.2 ⟨⟨pager, hserve⟩, hget⟩)
  · intro calls hcalls
    obtain ⟨hafter, hresults⟩ := Directory.results_pages h hserve hexpression hmax hlength hquery hcalls
    refine ⟨hafter, pagesOf size calls.length rows, hresults, ?_, flatten_pagesOf⟩
    intro number hnumber
    simp [getElem_pagesOf]

/-- The users of the company whose address contains a text. -/
private def colleagues : Json := .str "userName co \"acme\""

/-- Both users of the company are listed, on a page each. -/
theorem lists_in_pages_sample :
    Sample.store.Lists (Sample.config true) Sample.acme (some ⟨"email", .co, "acme"⟩) [Sample.ada, Sample.bob] ∧
      Sample.directory.ListsInPages (Sample.config true) Sample.acme .user colleagues
        (some ⟨"email", .co, "acme"⟩) 1 := by
  have hselects (r : Row .user) (hr : r ∈ [Sample.ada, Sample.bob]) :
      (Filter.Expression.mk "email" .co "acme").SelectsRow r := by
    simp only [List.mem_cons, List.not_mem_nil, or_false] at hr
    rcases hr with rfl | rfl
    · exact ⟨.email, rfl, "ada@acme.example", rfl, by decide +kernel⟩
    · exact ⟨.email, rfl, "bob@acme.example", rfl, by decide +kernel⟩
  have howned : Sample.store.owned .user Sample.acme = [Sample.ada, Sample.bob] := by decide
  constructor
  · constructor
    · decide
    · intro r
      rw [howned]
      refine ⟨fun hr => ⟨hr, ?_⟩, fun h => h.1⟩
      rintro e ⟨⟩
      exact hselects r hr
    · have hprecedes : Sample.ada.Precedes [⟨"id", false⟩] Sample.bob := ⟨.id, rfl, .inl (.integer (by decide))⟩
      exact List.pairwise_pair.2 hprecedes
  · refine lists_in_pages (Sample.build_config true) rfl (by decide) ?_ Sample.directory Sample.acme .user (by decide)
      rfl ?_ ?_ ?_
    · rintro n ⟨⟩
      decide
    · rintro e ⟨⟩
      exact .inl (by decide +kernel)
    · rintro n ⟨⟩
      decide
    · exact .inl (by decide)

/-! ## Lists that the store refuses -/

theorem utf8ByteSize_ofList_cons (c : Char) (s : List Char) :
    (String.ofList (c :: s)).utf8ByteSize = c.utf8Size + (String.ofList s).utf8ByteSize := by
  have hcons : String.ofList (c :: s) = String.ofList [c] ++ String.ofList s := by
    rw [← String.ofList_append]
    rfl
  rw [hcons, String.utf8ByteSize_append, ← String.singleton_eq_ofList, String.utf8ByteSize_singleton]

theorem Like.length_le_utf8ByteSize_containing (text : List Char) :
    text.length ≤ (String.ofList (Like.containing text)).utf8ByteSize := by
  have hoctets (s : List Char) : s.length ≤ (String.ofList s).utf8ByteSize := by
    induction s with
    | nil => simp
    | cons c rest ih =>
      have hc := c.utf8Size_pos
      rw [utf8ByteSize_ofList_cons, List.length_cons]
      omega
  have hescape : text.length ≤ (Like.escape text).length := by
    induction text with
    | nil => simp
    | cons c rest ih =>
      rw [Like.escape, List.flatMap_cons, List.length_append]
      change rest.length ≤ (List.flatMap _ rest).length at ih
      have hc : 1 ≤ (if (c == '/' || c == '%' || c == '_') = true then ['/', c] else [c]).length := by
        split <;> simp
      simp only [List.length_cons]
      omega
  have hcontaining := hoctets (Like.containing text)
  simp only [Like.containing, List.length_append, List.length_cons] at hcontaining ⊢
  omega

namespace Directory

section Refused

variable {ctx : Context} (h : ctx.config.IsStandard) {pager : Pager} (hserve : ctx.config.serve k = .ok pager)
  {d : Directory} {owner : Company} {filter start count : Json} {window : Window}
  (hwindow : pager.window start count = .ok window)

include h hserve hwindow

/-- What makes every query of the store fail makes every request for a page fail. -/
theorem result_list_of_query {expression : Option Filter.Expression} {failure : Failure}
    (hexpression : Request.filterOf (ctx.config.resource k).queryable filter = .ok expression)
    (hquery : ∀ offset limit, d.store.query k owner expression (ctx.config.resource k).listOrder offset (some limit) =
      .error failure) :
    (d.perform ctx owner (.list k filter start count)).result = .error failure := by
  rw [(perform_list h hserve d owner filter start count).1, Store.listing, hwindow, ok_bind, hexpression, ok_bind,
    hquery]
  rfl

/-- A filter whose pattern is too long makes every request for a page fail as soon as there is a resource that it would
have to be tried on. -/
theorem result_list_of_isTooLong {e : Filter.Expression}
    (he : Request.filterOf (ctx.config.resource k).queryable filter = .ok (some e)) (hlong : e.isTooLong = true)
    (howned : d.store.owned k owner ≠ []) :
    (d.perform ctx owner (.list k filter start count)).result = .error (.fault .store) := by
  obtain ⟨x, hname, hprofile⟩ := h.column_of_filterOf he
  have htype := Store.type_of_isProfile hprofile
  obtain ⟨holds, hpredicate, -, -⟩ := exists_predicate_of_text hname htype
  have htried : (Store.isTooLong k e && !(d.store.owned k owner).isEmpty) = true := by
    rw [isTooLong_of_text hname htype, hlong]
    simpa using howned
  have hselected : d.store.selected k owner (some e) = .error (.fault .store) := by
    rw [Store.selected, hpredicate, ok_bind]
    dsimp only
    rw [htried]
    rfl
  refine result_list_of_query h hserve hwindow he fun offset limit => ?_
  rw [Store.query_eq, hselected]
  rfl

/-- An order with more criteria than one statement sorts by makes every request for a page fail. -/
theorem result_list_of_maxCriteria_lt
    (hexpression : Request.filterOf (ctx.config.resource k).queryable filter = .ok none)
    (horder : ∀ o ∈ (ctx.config.resource k).listOrder, (Column.ofName? k o.column).isSome = true)
    (hmany : Store.maxCriteria < Store.criteria (ctx.config.resource k).listOrder) :
    (d.perform ctx owner (.list k filter start count)).result = .error (.fault .store) := by
  obtain ⟨keys, hkeys⟩ := Store.exists_orderKeys horder
  refine result_list_of_query h hserve hwindow hexpression fun offset limit => ?_
  rw [Store.query_eq, Store.selected, Store.sortKeys_eq hkeys]
  dsimp only [Except.bind]
  rw [if_pos hmany]

end Refused

/-- A list that is shown in pages has no first page that is an error. -/
theorem ListsInPages.result_ne_error {c : Config} {d : Directory} {owner : Company} {filter : Json}
    {expression : Option Filter.Expression} {size : Nat} (h : d.ListsInPages c owner k filter expression size)
    {call : Call} (hcall : call.AsksForPage owner k filter size 0) (failure : Failure) :
    (d.perform ⟨c, call.clock⟩ call.owner call.request).result ≠ .error failure := by
  intro herror
  obtain ⟨rows, -, -, hpages⟩ := h
  have hcalls : ∀ number (hnumber : number < [call].length),
      [call][number].AsksForPage owner k filter size number := by
    intro number hnumber
    obtain rfl : number = 0 := by simpa using hnumber
    exact hcall
  obtain ⟨-, pages, hresults, -⟩ := hpages [call] hcalls
  have hanswers : d.results c [call] = [.error failure] := congrArg (· :: []) herror
  rw [hanswers] at hresults
  cases pages with
  | nil => cases hresults
  | cons page rest =>
    rw [List.mapIdx_cons] at hresults
    cases hresults

end Directory

/-- A filter for the users whose address contains a letter as many times as are given, and once more. -/
private def repeated (n : Nat) : String :=
  String.ofList (['u', 's', 'e', 'r', 'N', 'a', 'm', 'e', ' ', 'c', 'o', ' '] ++ List.replicate (n + 1) 'a')

private theorem parse_repeated (n : Nat) :
    Filter.parse Schema.userQueryable (repeated n) =
      .ok ⟨"email", .co, String.ofList (List.replicate (n + 1) 'a')⟩ := by
  generalize hstart : ['u', 's', 'e', 'r', 'N', 'a', 'm', 'e', ' ', 'c', 'o', ' '] = start
  have htrim : Text.trim (start ++ List.replicate (n + 1) 'a') = start ++ List.replicate (n + 1) 'a' := by
    have hleft : Text.trimLeft (start ++ List.replicate (n + 1) 'a') = start ++ List.replicate (n + 1) 'a' := by
      subst hstart
      rfl
    have hlast : (start ++ List.replicate (n + 1) 'a').reverse = 'a' :: (List.replicate n 'a' ++ start.reverse) := by
      rw [List.reverse_append, List.reverse_replicate, List.replicate_succ, List.cons_append]
    have hblank : Text.isBlank 'a' = false := by decide
    rw [Text.trim, hleft, Text.trimRight, hlast, List.dropWhile_cons, hblank, if_neg Bool.false_ne_true, ← hlast,
      List.reverse_reverse]
  have hsplit : Filter.split? (start ++ List.replicate (n + 1) 'a') =
      some ⟨['u', 's', 'e', 'r', 'N', 'a', 'm', 'e'], ['c', 'o'], List.replicate (n + 1) 'a'⟩ := by
    rw [Filter.split?, htrim]
    subst hstart
    rfl
  rw [Filter.parse, repeated, String.toList_ofList, hstart, htrim, hsplit]
  subst hstart
  rfl

private theorem filterOf_repeated (n : Nat) :
    Request.filterOf Schema.userQueryable (.str (repeated n)) =
      .ok (some ⟨"email", .co, String.ofList (List.replicate (n + 1) 'a')⟩) := by
  have hne : repeated n ≠ "" := by
    intro hempty
    have htoList := congrArg String.toList hempty
    rw [repeated, String.toList_ofList] at htoList
    cases htoList
  have htext : Request.filterText (.str (repeated n)) = .ok (some (repeated n)) := by
    rw [Request.filterText]
    exact hne
  rw [Request.filterOf, htext, ok_bind]
  dsimp only
  rw [parse_repeated]
  rfl

private theorem isTooLong_repeated {n : Nat} (h : Like.maxOctets ≤ n) :
    (Filter.Expression.mk "email" .co (String.ofList (List.replicate (n + 1) 'a'))).isTooLong = true := by
  have hlength := Like.length_le_utf8ByteSize_containing (List.replicate (n + 1) 'a')
  rw [List.length_replicate] at hlength
  rw [Filter.Expression.isTooLong, Store.pattern?, String.toList_ofList, Option.any_some, Like.isTooLong,
    decide_eq_true_eq]
  omega

/-- An order that names the number of the row as many times as are given, and once more. -/
private def tiresome (n : Nat) : List OrderBy :=
  List.replicate (n + 1) ⟨"id", false⟩

private def tiresomeSettings (n : Nat) : Settings :=
  { usersListOrder := String.ofList ([','].intercalate ((tiresome n).map ListOrder.written)) }

private def tiresomeConfig (n : Nat) : Config :=
  { Sample.config true with users := Config.userResource (tiresomeSettings n) (tiresome n) }

private theorem forall_mem_tiresome {p : OrderBy → Prop} (h : p ⟨"id", false⟩) (n : Nat) : ∀ o ∈ tiresome n, p o := by
  intro o ho
  rw [List.eq_of_mem_replicate ho]
  exact h

private theorem build_tiresome (n : Nat) : Config.build (tiresomeSettings n) = .ok (tiresomeConfig n) := by
  have hname : ListOrder.IsName "id".toList :=
    ⟨by decide, by decide, by decide, by rintro c ⟨⟩; rfl, by rintro c ⟨⟩; rfl⟩
  have hlists := ListOrder.lists_written (forall_mem_tiresome (p := fun o => ListOrder.IsName o.column.toList) hname n)
  have hparse : ListOrder.parse (tiresomeSettings n).usersListOrder = .ok (tiresome n) :=
    ListOrder.parse_intercalate (List.cons_ne_nil _ _) hlists
      (forall_mem_tiresome (p := fun o => ',' ∉ o.column.toList) (by decide) n)
  have hknown : Config.checkFields .user true "User list order" ((tiresome n).map OrderBy.column) = .ok () := by
    have hnone : ((tiresome n).map OrderBy.column).find? (fun name => !Config.isKnown .user true name) = none := by
      rw [List.find?_eq_none]
      intro name hname
      obtain ⟨o, ho, rfl⟩ := List.mem_map.1 hname
      exact forall_mem_tiresome (p := fun o => ¬(!Config.isKnown .user true o.column) = true) (by decide) n o ho
    rw [Config.checkFields, hnone]
  have hchecked : Config.checkResource .user (Config.userResource (tiresomeSettings n) (tiresome n)) = .ok () := by
    change (Config.checkFields .user true "User list order" ((tiresome n).map OrderBy.column) >>= fun _ => .ok ()) = _
    rw [hknown, ok_bind]
  have hgroups : ListOrder.parse "id" = .ok [⟨"id", false⟩] := by decide +kernel
  have hsame : (tiresomeSettings n).groupsListOrder = "id" := rfl
  rw [Config.build, hparse, ok_bind, hsame, hgroups, ok_bind]
  dsimp only
  rw [hchecked, ok_bind]
  rfl

/-- Two conditions cannot be left out. With a filter for a text of more than fifty thousand letters nothing is listed,
not even the page without resources that no match would give, and nothing is listed in an order of more than two
thousand criteria, though it names nothing but a column. -/
theorem not_lists_in_pages :
    (¬∀ (s : Settings) (c : Config) (d : Directory) (owner : Company) (k : Kind) (filter : Json)
      (expression : Option Filter.Expression) (size : Nat), Config.build s = .ok c → s.customUserAttributes = [] →
      0 ≤ s.defaultPageSize → (∀ n, s.maxPageSize = some n → 0 ≤ n) →
      Store.criteria (c.resource k).listOrder ≤ Store.maxCriteria →
      Request.filterOf (c.resource k).queryable filter = .ok expression →
      1 ≤ size → (∀ n, c.maxPageSize = some n → (size : Int) ≤ n) →
      ((size : Int) ≤ maxInt64 ∨ ((d.store.owned k owner).length : Int) ≤ maxInt64) →
      d.ListsInPages c owner k filter expression size) ∧
    ¬∀ (s : Settings) (c : Config) (d : Directory) (owner : Company) (k : Kind) (filter : Json)
      (expression : Option Filter.Expression) (size : Nat), Config.build s = .ok c → s.customUserAttributes = [] →
      0 ≤ s.defaultPageSize → (∀ n, s.maxPageSize = some n → 0 ≤ n) →
      Request.filterOf (c.resource k).queryable filter = .ok expression →
      (∀ e, expression = some e → e.isTooLong = false ∨ d.store.owned k owner = []) →
      1 ≤ size → (∀ n, c.maxPageSize = some n → (size : Int) ≤ n) →
      ((size : Int) ≤ maxInt64 ∨ ((d.store.owned k owner).length : Int) ≤ maxInt64) →
      d.ListsInPages c owner k filter expression size := by
  have hwindow : (Pager.mk 100 (some 1000)).window (.int 1) (.int 5) = .ok ⟨1, 0, 5⟩ := rfl
  have hgreatest : ∀ n, some (1000 : Int) = some n → ((5 : Nat) : Int) ≤ n := by
    rintro n ⟨⟩
    decide
  have hpositive : ∀ n, some (1000 : Int) = some n → 0 ≤ n := by
    rintro n ⟨⟩
    decide
  have hcall (filter : Json) : (Call.mk 0 Sample.acme (.list .user filter (.int 1) (.int 5))).AsksForPage
      Sample.acme .user filter 5 0 :=
    ⟨rfl, ⟨.int 1, .int 5, rfl, rfl, rfl⟩, by decide⟩
  constructor
  · intro hall
    have hb := Sample.build_config true
    have h : (Context.mk (Sample.config true) 0).config.IsStandard := Config.isStandard_of_build hb rfl
    have hfilter := filterOf_repeated Like.maxOctets
    have hlists := hall { atomicPatch := true } (Sample.config true) Sample.directory Sample.acme .user
      (.str (repeated Like.maxOctets)) _ 5 hb rfl (by decide) hpositive (by decide) hfilter (by decide) hgreatest
      (.inl (by decide))
    have hlong := isTooLong_repeated (Nat.le_refl Like.maxOctets)
    exact hlists.result_ne_error (hcall _) (.fault .store)
      (Directory.result_list_of_isTooLong h rfl hwindow hfilter hlong (by decide))
  · intro hall
    have hb := build_tiresome Store.maxCriteria
    have h : (Context.mk (tiresomeConfig Store.maxCriteria) 0).config.IsStandard := Config.isStandard_of_build hb rfl
    have hlists := hall (tiresomeSettings Store.maxCriteria) (tiresomeConfig Store.maxCriteria) Sample.directory
      Sample.acme .user .null none 5 hb rfl (by decide) hpositive rfl nofun (by decide) hgreatest (.inl (by decide))
    have hmany : Store.maxCriteria < Store.criteria (tiresome Store.maxCriteria) := by
      rw [Store.criteria, tiresome, List.length_replicate]
      split <;> omega
    exact hlists.result_ne_error (hcall _) (.fault .store)
      (Directory.result_list_of_maxCriteria_lt h rfl hwindow rfl (Config.namesKnown_of_build hb .user).listOrder hmany)

end Roster
