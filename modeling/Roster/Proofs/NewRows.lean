import Roster.Proofs.ReplacedRows

/-!
Rows that are new.

A new row is a blank one that takes the attributes that a document gives. It has the next number and the identifier
that has been drawn for it, so that it can be inserted unless another row has this identifier; it comes between the
rows that are there.
-/

set_option autoImplicit false

namespace Roster

variable {k : Kind} {s s' : Store} {clock : Nat} {owner : Company} {uuid : String} {r r' : Row k} {document : Json}

/-- The row of a company that has a number and an identifier and has been made by now, and says nothing else. -/
def Row.blank (k : Kind) (id : Int) (uuid : String) (owner : Company) (clock : Nat) : Row k :=
  ⟨id, uuid, .integer owner.id, .blank k, none, clock, clock⟩

theorem Row.written_blank (id : Int) :
    (blank k id uuid owner clock).written clock document =
      { blank k id uuid owner clock with profile := (Profile.blank k).replaced document } := by
  rw [written]
  split
  next h => exact congrArg (fun profile => (⟨id, uuid, .integer owner.id, profile, none, clock, clock⟩ : Row k)) h.symm
  next => rfl

/-- A new row has a number of its own, so that only its identifier can be in use. -/
theorem Table.isFree_blank (t : Table k) (uuid : String) (owner : Company) (clock : Nat) (document : Json) :
    t.isFree ((Row.blank k t.nextId uuid owner clock).written clock document) =
      !t.rows.any fun x => x.uuid == uuid := by
  rw [Row.written_blank, Table.isFree, List.not_any_eq_all_not, Bool.eq_iff_iff, List.all_eq_true, List.all_eq_true]
  refine forall₂_congr fun x hx => ?_
  have hid : (x.id != t.nextId) = true := bne_iff_ne.2 (id_ne_nextId hx)
  change (x.id != t.nextId && x.uuid != uuid) = true ↔ (x.uuid != uuid) = true
  rw [hid, Bool.true_and]

namespace Store

/-- A row is new in a store: none before it has its number or its identifier. It is among the others, and everything
else in the store is the same. -/
structure Inserts (s : Store) (r : Row k) (s' : Store) : Prop where
  fresh : ∀ x ∈ (s.table k).rows, x.id ≠ r.id ∧ x.uuid ≠ r.uuid
  store : ∃ t : Table k, s' = s.withTable k t ∧
    ∃ before after, (s.table k).rows = before ++ after ∧ t.rows = before ++ r :: after

namespace Inserts

theorem of_insert? {t : Table k} (ht : (s.table k).insert? r = some t) : s.Inserts r (s.withTable k t) where
  fresh x hx := by
    have hfree := List.all_eq_true.1 (Table.rows_of_insert? ht).1 x hx
    rw [Bool.and_eq_true, bne_iff_ne, bne_iff_ne] at hfree
    exact hfree
  store := ⟨t, rfl, Table.exists_of_insert? ht⟩

theorem mem (h : s.Inserts r s') : r ∈ (s'.table k).rows := by
  obtain ⟨t, rfl, before, after, -, ht⟩ := h.store
  rw [table_withTable, ht]
  exact List.mem_append_right before List.mem_cons_self

/-- A new row that is written is still new. -/
theorem rewrites {t : Store} (h : s.Inserts r t) (hw : t.Rewrites r r' s') : s.Inserts r' s' where
  fresh := by
    rw [hw.id, hw.uuid]
    exact h.fresh
  store := by
    obtain ⟨t, rfl, before, after, hbefore, ht⟩ := h.store
    obtain ⟨u, rfl, hu⟩ := hw.store
    rw [table_withTable, Table.overwritten_append ht hw.id] at hu
    exact ⟨u, by rw [withTable_withTable], before, after, hbefore, hu⟩

end Inserts

/-! ## Inserting what a document gives -/

/-- A text is no null, so that no attribute is left to its default. -/
private theorem filter_attributes (htexts : ∀ p ∈ document.attributes k, p.2.isText = true) :
    (document.attributes k).filter (fun p => !p.2.isNull) = document.attributes k := by
  refine List.filter_eq_self.2 fun p hp => ?_
  have htext := htexts p hp
  obtain ⟨c, value⟩ := p
  cases value
  case str | torn => rfl
  all_goals cases htext

/-- What a new row says that is given no values. -/
private def defaults (id : Int) (uuid : String) (owner : Company) (clock : Nat) : List (Column k × Cell) :=
  [(.id, .integer id), (.uuid, .text uuid), (.company, .integer owner.id), (.created, .time clock),
    (.updated, .time clock)]

/-- The cells that texts become make the new row that says them. -/
private theorem make_of_texts (htexts : ∀ p ∈ document.attributes k, ∃ text, p.2 = .str text)
    {given : List (Column k × Cell)} (hgiven : cells (document.attributes k) = .ok given) (id : Int) (uuid : String)
    (owner : Company) (clock : Nat) :
    Row.make (fun c => ((given ++ defaults id uuid owner clock).lookup c).getD .null) =
      some ((Row.blank k id uuid owner clock).written clock document) := by
  rw [Row.written_blank]
  let new : Row k := { Row.blank k id uuid owner clock with profile := (Profile.blank k).replaced document }
  have hget : (fun c => ((given ++ defaults id uuid owner clock).lookup c).getD .null) = new.get := by
    funext c
    have hcells := lookup_cells hgiven c
    rw [List.lookup_append]
    cases hvalue : (document.attributes k).lookup c with
    | none =>
      rw [hvalue] at hcells
      rw [hcells, Option.none_or]
      cases k <;> cases c <;> first | rfl | cases hvalue
    | some value =>
      obtain ⟨text, rfl⟩ := htexts _ (mem_of_lookup hvalue)
      rw [hvalue] at hcells
      obtain ⟨cell, hcell, hlookup⟩ := hcells
      rw [type_of_isProfile (document.isProfile_attributes _ (mem_of_lookup hvalue))] at hcell
      cases hcell
      have hupdated : c ≠ .updated := by
        rintro rfl
        cases k <;> cases hvalue
      have hnew : new.get c = _ := get_replaced (Row.blank k id uuid owner clock) clock document hupdated
      rw [hlookup, Option.some_or, hnew, hvalue]
      rfl
  rw [hget]
  exact make_get Cell.noConfusion

/-- A new row with texts is inserted unless its identifier is in use. -/
theorem insert_attributes (htexts : ∀ p ∈ document.attributes k, ∃ text, p.2 = .str text) :
    s.insert clock owner uuid (document.attributes k) =
      match (s.table k).insert? ((Row.blank k (s.table k).nextId uuid owner clock).written clock document) with
      | some t => .ok ((Row.blank k (s.table k).nextId uuid owner clock).written clock document, s.withTable k t)
      | none => .error (.fault .store) := by
  obtain ⟨given, hgiven⟩ := exists_cells_eq_ok document.isProfile_attributes htexts
  have hfilter : (document.attributes k).filter (fun p => !p.2.isNull) = document.attributes k := by
    refine filter_attributes fun p hp => ?_
    obtain ⟨text, htext⟩ := htexts p hp
    rw [htext]
    rfl
  have hmake := make_of_texts htexts hgiven (s.table k).nextId uuid owner clock
  rw [defaults] at hmake
  rw [insert, hfilter, hgiven]
  dsimp only
  rw [hmake, Option.bind_some]
  cases (s.table k).insert? ((Row.blank k (s.table k).nextId uuid owner clock).written clock document) <;> rfl

end Store

end Roster
