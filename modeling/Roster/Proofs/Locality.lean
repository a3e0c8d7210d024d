import Roster.Service.Request
import Roster.Proofs.Session

/-!
Which parts of a request work on the copy alone.

Everything that reads or writes rows and members does, and so does every single operation of a PATCH
request; all operations together do if the request is atomic. Requests that only read commit nothing.
-/

set_option autoImplicit false

namespace Roster

open Step

variable {k : Kind} (ctx : Context) (owner : Company)

theorem local_listedUsers (members : Json) (expected : String) :
    Local (listedUsers ctx owner members expected) := by
  unfold listedUsers
  exact (local_check _).bind fun _ => local_look _

theorem local_replaceMembers (group : Row .group) (users : List (Row .user)) :
    Local (replaceMembers ctx group users) :=
  local_modifyStore _

theorem local_updateAttributes (r : Row k) (attributes : Schema.Values) :
    Local (updateAttributes ctx owner r attributes) :=
  local_change _

theorem local_applyStatus (r : Row k) (status : Option Bool) : Local (applyStatus ctx r status) := by
  cases status with
  | none => exact local_pure r
  | some active => exact local_change fun s => s.setActive ctx.clock r active

theorem local_replaceAttributes (r : Row k) (o : PatchOperation) :
    Local (replaceAttributes ctx owner r o) := by
  unfold replaceAttributes
  refine (local_attempt _).bind fun document => ?_
  have hwrite (attributes : Schema.Values) : Local (do
      let status ← attempt (PatchOperation.status ctx.config.room document)
      let r ← if attributes.isEmpty then pure r else updateAttributes ctx owner r attributes
      applyStatus ctx r status) := by
    refine (local_attempt _).bind fun status => ?_
    dsimp only
    split
    · exact (local_pure r).bind fun r => local_applyStatus ctx r status
    · exact (local_updateAttributes ctx owner r attributes).bind fun r => local_applyStatus ctx r status
  dsimp only
  split
  · exact (local_refuse _).bind fun _ => hwrite _
  · exact hwrite _

theorem local_addListed (group : Row .group) (o : PatchOperation) :
    Local (addListed ctx owner group o) := by
  unfold addListed
  have hadd : Local (do
      let users ← listedUsers ctx owner o.addedMembers Members.patchExpectation
      modifyStore fun s => s.addMembers ctx.clock group users) :=
    (local_listedUsers ctx owner _ _).bind fun _ => local_modifyStore _
  dsimp only
  split
  · exact (local_refuse _).bind fun _ => hadd
  · exact hadd

theorem local_removeUsers (group : Row .group) (users : List (Row .user)) : Local (removeUsers group users) :=
  local_change _

theorem local_removeListed (group : Row .group) (o : PatchOperation) :
    Local (removeListed ctx owner group o) := by
  unfold removeListed
  split
  · split
    · exact local_modifyStore _
    · exact (local_check _).bind fun _ => (local_look _).bind fun users => local_removeUsers group users
  · exact (local_check _).bind fun _ => (local_look _).bind fun users => local_removeUsers group users

theorem local_replaceInGroup (group : Row .group) (o : PatchOperation) :
    Local (replaceInGroup ctx owner group o) := by
  unfold replaceInGroup
  split
  · exact (local_listedUsers ctx owner _ _).bind fun users =>
      (local_replaceMembers ctx group users).bind fun _ => local_pure group
  · exact local_replaceAttributes ctx owner group o

/-- One operation of a PATCH request works on the copy alone. -/
theorem local_applyOperation (r : Row k) (o : PatchOperation) :
    Local (applyOperation ctx owner k r o) := by
  cases k with
  | user =>
    rw [applyOperation]
    split
    · exact local_replaceAttributes ctx owner r o
    · exact local_refuse _
  | group =>
    rw [applyOperation]
    split
    · exact local_replaceInGroup ctx owner r o
    · split
      · exact (local_addListed ctx owner r o).bind fun _ => local_pure r
      · split
        · exact (local_removeListed ctx owner r o).bind fun _ => local_pure r
        · exact local_refuse _

/-- The operations of an atomic PATCH request work on the copy alone. -/
theorem local_applyOperations (atomic : ctx.config.atomicPatch = true) (r : Row k)
    (operations : List PatchOperation) : Local (applyOperations ctx owner r operations) := by
  induction operations generalizing r with
  | nil => exact local_pure r
  | cons o rest ih =>
    rw [applyOperations]
    refine (local_applyOperation ctx owner r o).bind fun r => ?_
    simp only [atomic, Bool.not_true, Bool.false_eq_true, if_false]
    exact ih r

theorem local_newMembers (payload : Json) : Local (Request.newMembers ctx owner k payload) := by
  unfold Request.newMembers
  split
  · exact local_pure _
  · exact local_pure _
  · exact local_listedUsers ctx owner _ _

theorem local_addNewMembers (users : List (Row .user)) (r : Row k) :
    Local (Request.addNewMembers ctx users k r) := by
  cases k with
  | user => exact local_pure _
  | group => exact local_modifyStore _

theorem local_overwriteResource (r : Row k) (attributes : Schema.Values) :
    Local (Request.overwriteResource ctx r attributes) := by
  unfold Request.overwriteResource
  exact (local_change _).bind fun _ => local_pure _

theorem local_replacedMembers (payload : Json) :
    Local (Request.replacedMembers ctx owner k payload) := by
  cases k with
  | user => exact local_pure _
  | group => exact local_listedUsers ctx owner _ _

theorem local_setMembers (users : List (Row .user)) (r : Row k) :
    Local (Request.setMembers ctx users k r) := by
  cases k with
  | user => exact local_pure _
  | group => exact local_replaceMembers ctx r users

/-! ## Requests that read -/

theorem uncommitted_render (attached : List (String × Json)) (rows : List (Row k)) :
    Uncommitted (Request.render ctx k attached rows) := by
  intro σ
  have hexec : exec (Request.render ctx k attached rows) σ = Request.render ctx k attached rows σ := rfl
  rw [hexec, Request.render]
  split <;> rfl

theorem uncommitted_renderOne (attached : List (String × Json)) (r : Row k) :
    Uncommitted (Request.renderOne ctx k attached r) := by
  unfold Request.renderOne
  refine (uncommitted_render ctx attached [r]).bind fun answers => ?_
  split
  · exact uncommitted_pure _
  · exact uncommitted_attempt _

theorem uncommitted_runList (pager : Pager) (filter start count : Json) :
    Uncommitted (Request.runList ctx owner pager k filter start count) := by
  unfold Request.runList
  refine (uncommitted_notify _).bind fun _ => (uncommitted_attempt _).bind fun window => ?_
  refine (uncommitted_attempt _).bind fun expression => (uncommitted_look _).bind fun page => ?_
  refine (uncommitted_notify _).bind fun _ => (uncommitted_render ctx _ _).bind fun rendered => ?_
  dsimp only
  split
  · exact uncommitted_attempt _
  · split
    · exact uncommitted_attempt _
    · exact uncommitted_pure _

theorem uncommitted_runShow (identifier : Json) :
    Uncommitted (Request.runShow ctx owner k identifier) := by
  unfold Request.runShow
  refine (uncommitted_notify _).bind fun _ => (uncommitted_look _).bind fun r => ?_
  exact (uncommitted_notify _).bind fun _ => uncommitted_renderOne ctx [] r

end Roster
