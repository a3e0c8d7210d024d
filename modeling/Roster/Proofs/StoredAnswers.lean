import Roster.Proofs.Edits
import Roster.Proofs.NaturalKeys
import Roster.Proofs.Sample

/-!
Answers to requests that write.

A request that writes a resource answers with a document of the row that it has written. This row is in the store
that it leaves, as the store has read it back: a client that asks for the resource is shown the same document.
-/

set_option autoImplicit false

namespace Roster

variable {k : Kind}

/-- A request that writes a resource: it creates one, replaces it or patches it. -/
def Request.writes : Request → Bool
  | .create _ _ | .replace _ _ _ | .patch _ _ _ => true
  | .list _ _ _ _ | .show _ _ | .delete _ _ => false

/-- An answer is what a client is shown who asks for the resource that the answer identifies. -/
def Directory.Shows (d : Directory) (c : Config) (owner : Company) (k : Kind) (body : Json) : Prop :=
  ∃ identifier, body.field? "id" = some (.str identifier) ∧
    ∀ clock, (d.perform ⟨c, clock⟩ owner (.show k (.str identifier))).result = .ok body

namespace Store

theorem id_document (s : Store) (r : Row k) : (s.document k r).field? "id" = some (.str r.uuid) := by
  cases k <;> rfl

end Store

namespace Directory

/-- A row of a company is shown by its document. -/
theorem shows_document {c : Config} (h : c.IsStandard) {pager : Pager} (hserve : c.serve k = .ok pager)
    {d : Directory} {owner : Company} {r : Row k} (hr : r ∈ d.store.owned k owner) :
    d.Shows c owner k (d.store.document k r) := by
  refine ⟨r.uuid, d.store.id_document r, fun clock => ?_⟩
  have hctx : (Context.mk c clock).config.IsStandard := h
  have hget : d.store.get c k owner (.str r.uuid) = .ok r := (Store.get_eq_ok h _ _).2 ⟨rfl, hr, rfl⟩
  exact result_show hctx (Store.found_eq_ok.2 ⟨⟨pager, hserve⟩, hget⟩)

variable {ctx : Context} (h : ctx.config.IsStandard) {d : Directory} {owner : Company} {body : Json}

include h

private theorem shows_created {payload : Json}
    (hbody : (d.perform ctx owner (.create k payload)).result = .ok body) :
    (d.perform ctx owner (.create k payload)).directory.Shows ctx.config owner k body := by
  rcases perform_cases h d owner (.create k payload) with ⟨e, -, hresult, -⟩ | ⟨pager, hserve, hresult, hleft⟩
  · rw [hresult] at hbody
    cases hbody
  · rw [hresult] at hbody
    rw [hleft]
    dsimp only [answer, changed] at hbody ⊢
    obtain ⟨⟨r, s⟩, hcreated, rfl⟩ := map_eq_ok.1 hbody
    rw [hcreated]
    exact shows_document h hserve (Store.mem_owned_of_created h hcreated)

private theorem shows_edited {identifier : Json} {e : Edit}
    (hbody : (d.perform ctx owner (e.request k identifier)).result = .ok body) :
    (d.perform ctx owner (e.request k identifier)).directory.Shows ctx.config owner k body := by
  rw [result_edit h] at hbody
  rw [directory_edit h]
  cases hfound : d.store.found ctx.config owner k identifier with
  | error failure =>
    rw [Store.attempted_of_error hfound] at hbody
    cases hbody
  | ok r =>
    rw [Store.attempted_of_ok hfound] at hbody ⊢
    obtain ⟨⟨pager, hserve⟩, hget⟩ := Store.found_eq_ok.1 hfound
    obtain ⟨r', hr', rfl⟩ := map_eq_ok.1 hbody
    have hmem := Store.mem_owned_of_edited h (Store.mem_owned_of_get h hget) (Prod.ext hr' rfl)
    exact shows_document h hserve hmem.1

end Directory

/-- A request that writes and succeeds answers with what is stored: a client that asks for the resource, at any
time, is shown the same document, and is sent the same body. -/
theorem answers_with_what_is_stored {s : Settings} {c : Config} (hb : Config.build s = .ok c)
    (hs : s.customUserAttributes = []) (d : Directory) (clock : Nat) (owner : Company) {request : Request}
    (hwrites : request.writes = true) {body : Json}
    (hbody : (d.perform ⟨c, clock⟩ owner request).result = .ok body) :
    (d.perform ⟨c, clock⟩ owner request).directory.Shows c owner request.kind body ∧
      ∀ identifier, ((Request.show request.kind identifier).answer (.ok body)).body =
        (request.answer (.ok body)).body := by
  have h : (Context.mk c clock).config.IsStandard := Config.isStandard_of_build hb hs
  have hsent (status : Nat) : (Answer.ofResult 200 body).body = (Answer.ofResult status body).body := by
    unfold Answer.ofResult
    split <;> rfl
  cases request with
  | create k payload => exact ⟨Directory.shows_created h hbody, fun _ => hsent 201⟩
  | replace k identifier payload =>
    exact ⟨Directory.shows_edited (e := .replace payload) h hbody, fun _ => hsent 200⟩
  | patch k identifier operations =>
    exact ⟨Directory.shows_edited (e := .patch operations) h hbody, fun _ => hsent 200⟩
  | list => cases hwrites
  | «show» => cases hwrites
  | delete => cases hwrites

private def unquoted : Json := .obj [
  ("name", .obj [("givenName", .int 5), ("familyName", .bool true)]),
  ("emails", .arr [.obj [("value", .int (-12))]]),
  ("active", .bool false)]

private def quoted : Json := .obj [
  ("schemas", .arr [.str Schema.userUrn]),
  ("id", .str (Uuid.numbered 4)),
  ("userName", .str "-12"),
  ("name", .obj [("givenName", .str "5"), ("familyName", .str "1")]),
  ("emails", .arr [.obj [("value", .str "-12"), ("primary", .bool true)]]),
  ("active", .bool false),
  ("meta", .obj [("resourceType", .str "User")])]

/-- Numbers and truth values are stored as texts, and are answered as such. -/
theorem answers_with_what_is_stored_sample :
    ((Sample.directory.perform ⟨Sample.config true, 5⟩ Sample.acme (.create .user unquoted)).directory.perform
      ⟨Sample.config true, 9⟩ Sample.acme (.show .user (.str (Uuid.numbered 4)))).result = .ok quoted := by
  have hbody : (Sample.directory.perform ⟨Sample.config true, 5⟩ Sample.acme
      (.create .user unquoted)).result = .ok quoted := by decide +kernel
  obtain ⟨⟨identifier, hid, hshown⟩, -⟩ := answers_with_what_is_stored (Sample.build_config true) rfl
    Sample.directory 5 Sample.acme rfl hbody
  cases hid
  exact hshown 9

end Roster
