import Roster.Json.Shape
import Roster.Service.Request
import Roster.Proofs.Configuration
import Roster.Proofs.Session

/-!
Answers of standard configurations.

Every resource can be shown: its answer is a document that depends on its row and, for a group, on the users
that are its members.
-/

set_option autoImplicit false

namespace Roster

/-- The answer that shows a user. -/
def Row.userDocument (r : Row .user) : Json := .obj [
  ("schemas", .arr [.str Schema.userUrn]),
  ("id", .str r.uuid),
  ("userName", (r.get .email).json),
  ("name", .obj [("givenName", (r.get .firstName).json), ("familyName", (r.get .lastName).json)]),
  ("emails", .arr [.obj [("value", (r.get .email).json), ("primary", .bool true)]]),
  ("active", .bool r.isActive),
  ("meta", .obj [("resourceType", .str "User")])]

/-- The item that shows a user as a member. -/
def Row.memberDocument (r : Row .user) : Json := .obj [("value", .str r.uuid)]

/-- The answer that shows a group with members. -/
def Row.groupDocument (r : Row .group) (members : List (Row .user)) : Json := .obj [
  ("schemas", .arr [.str Schema.groupUrn]),
  ("id", .str r.uuid),
  ("displayName", (r.get .displayName).json),
  ("email", (r.get .email).json),
  ("members", .arr (members.map Row.memberDocument)),
  ("meta", .obj [("resourceType", .str "Group")])]

/-- The answer that shows a resource of a store. -/
def Store.document (s : Store) : (k : Kind) → Row k → Json
  | .user, r => r.userDocument
  | .group, r => r.groupDocument (s.membersOf r)

private theorem render_group (r : Row .group) : r.render [] Schema.group = .ok (r.groupDocument []) := rfl

private theorem hides_user : Schema.user.hides .user [] = false := by decide +kernel

private theorem hides_group : Schema.group.hides .group [] = false := by decide +kernel

private theorem hides_member : Schema.member.hides .user [] = false := by decide +kernel

private theorem keepsMembers_group : Schema.group.keepsMembers = false := rfl

variable {c : Config} {k : Kind}

private theorem groupParts_eq (h : c.IsStandard) (s : Store) (r : Row .group) :
    s.groupParts c [] r = .ok (r.groupDocument [], (s.membersOf r).map Row.memberDocument) := by
  have hmembers : (s.membersOf r).mapM (fun m => m.render [] Schema.member) =
      .ok ((s.membersOf r).map Row.memberDocument) := mapM_ok Row.memberDocument _
  have hschema : c.groups.schema = Schema.group := h.schema .group
  rw [Store.groupParts, hschema, h.member, render_group, ok_bind, hmembers]
  rfl

theorem Store.render_eq (h : c.IsStandard) (s : Store) (kept : List Json) (rows : List (Row k)) :
    s.render c kept [] k rows = .ok (rows.map (s.document k), kept) := by
  cases k with
  | user =>
    have hschema : c.users.schema = Schema.user := h.schema .user
    have hrows : rows.mapM (fun r => r.render [] Schema.user) = .ok (rows.map Row.userDocument) :=
      mapM_ok Row.userDocument rows
    rw [Store.render, hschema, hrows]
    rfl
  | group =>
    have hschema : c.groups.schema = Schema.group := h.schema .group
    let parts := fun r : Row .group => (r.groupDocument [], (s.membersOf r).map Row.memberDocument)
    have hparts : rows.mapM (s.groupParts c []) = .ok (rows.map parts) := by
      rw [funext (groupParts_eq h s)]
      exact mapM_ok parts rows
    have hextend : (rows.map parts).mapM (fun p => p.1.extend "members" p.2) =
        .ok (rows.map fun r => r.groupDocument (s.membersOf r)) := by
      rw [List.mapM_map]
      exact mapM_ok (fun r : Row .group => r.groupDocument (s.membersOf r)) rows
    rw [Store.render, Store.renderGroups, hparts, ok_bind, hschema, keepsMembers_group,
      if_neg Bool.false_ne_true, hextend]
    rfl

theorem Store.hides_eq (h : c.IsStandard) (s : Store) (kept : List Json) (rows : List (Row k)) :
    s.hides c kept [] k rows = false := by
  cases k with
  | user =>
    have hschema : c.users.schema = Schema.user := h.schema .user
    rw [Store.hides, hschema, hides_user, Bool.and_false]
  | group =>
    have hschema : c.groups.schema = Schema.group := h.schema .group
    rw [Store.hides, hschema, hides_group, h.member, hides_member]
    simp

theorem Step.exec_render (h : c.IsStandard) (clock : Nat) (rows : List (Row k)) (σ : Session) :
    exec (Request.render ⟨c, clock⟩ k [] rows) σ = (.ok (rows.map (σ.current.document k), false), σ) := by
  have hexec : exec (Request.render ⟨c, clock⟩ k [] rows) σ = Request.render ⟨c, clock⟩ k [] rows σ := rfl
  rw [hexec, Request.render]
  dsimp only
  rw [Store.render_eq h]
  simp only [Store.hides_eq h]

theorem Step.exec_renderOne (h : c.IsStandard) (clock : Nat) (r : Row k) (σ : Session) :
    exec (Request.renderOne ⟨c, clock⟩ k [] r) σ = (.ok (σ.current.document k r), σ) := by
  have hrender : exec (Request.render ⟨c, clock⟩ k [] [r]) σ =
      (.ok ([σ.current.document k r], false), σ) := exec_render h clock [r] σ
  rw [Request.renderOne, exec_bind_ok hrender]
  rfl

/-- The answer may be sent: it is an object of few enough levels. -/
def Json.Sendable (j : Json) : Prop :=
  j.isObject = true ∧ j.height ≤ 5

private theorem Cell.height_json (cell : Cell) : cell.json.height = 1 := by
  cases cell <;> rfl

private theorem heightItems_members (members : List (Row .user)) :
    Json.heightItems (members.map Row.memberDocument) ≤ 2 := by
  induction members with
  | nil => exact Nat.zero_le 2
  | cons u rest ih =>
    have hu : u.memberDocument.height = 2 := rfl
    rw [List.map_cons, Json.heightItems, hu]
    exact Nat.max_le.2 ⟨Nat.le_refl 2, ih⟩

theorem Store.sendable_document (s : Store) (r : Row k) : (s.document k r).Sendable := by
  cases k with
  | user =>
    refine ⟨rfl, ?_⟩
    simp [Store.document, Row.userDocument, Json.height, Json.heightFields, Json.heightItems,
      Cell.height_json]
  | group =>
    have hmembers := heightItems_members (s.membersOf r)
    refine ⟨rfl, ?_⟩
    simp [Store.document, Row.groupDocument, Json.height, Json.heightFields, Json.heightItems,
      Cell.height_json]
    omega

theorem Step.succeeds_renderOne (h : c.IsStandard) (clock : Nat) (r : Row k) :
    Succeeds Json.Sendable (Request.renderOne ⟨c, clock⟩ k [] r) := by
  intro σ
  rw [exec_renderOne h]
  exact ⟨_, rfl, σ.current.sendable_document r⟩

end Roster
