import Mathlib.Data.List.Nodup
import Roster.Config.Build
import Roster.Web.Exchange

/-!
A small directory under the configuration of the default settings: one company with two users and a group,
and another company with one user.
-/

set_option autoImplicit false

namespace Roster.Sample

def acme : Company := ⟨1, "acme", "secret"⟩

def other : Company := ⟨2, "other", "hidden"⟩

def ada : Row .user :=
  ⟨1, "u1", .integer 1, .user "Ada" "King" "ada@acme.example" none, none, 0, 0⟩

def bob : Row .user :=
  ⟨2, "u2", .integer 1, .user "Bob" "Ray" "bob@acme.example" none, none, 0, 0⟩

def eve : Row .user :=
  ⟨3, "u3", .integer 2, .user "Eve" "Low" "eve@other.example" none, none, 0, 0⟩

def staff : Row .group := ⟨1, "g1", .integer 1, .group "Staff" "staff@acme.example", none, 0, 0⟩

/-- The group has one of the two users of its company as a member. -/
def store : Store where
  companies := [acme, other]
  users := ⟨[ada, bob, eve], by decide, by decide⟩
  groups := ⟨[staff], by decide, by decide⟩
  memberships := [⟨1, 1, 0⟩]

def directory : Directory := ⟨store, 3, []⟩

/-- What is built from settings that differ from the default ones at most in how PATCH is committed. -/
def config (atomic : Bool) : Config where
  users := Config.userResource { atomicPatch := atomic } [⟨"id", false⟩]
  groups := Config.groupResource { atomicPatch := atomic } [⟨"id", false⟩]
  memberSchema := Schema.member
  provider := Config.providerDescription
  defaultPageSize := 100
  maxPageSize := some 1000
  atomicPatch := atomic
  room := 961

theorem build_config (atomic : Bool) : Config.build { atomicPatch := atomic } = .ok (config atomic) := by
  cases atomic <;> rfl

/-- What is built from settings that order lists as the default ones do. -/
def built (s : Settings) : Config where
  users := Config.userResource s [⟨"id", false⟩]
  groups := Config.groupResource s [⟨"id", false⟩]
  memberSchema := Schema.member
  provider := Config.providerDescription
  defaultPageSize := s.defaultPageSize
  maxPageSize := s.maxPageSize
  atomicPatch := s.atomicPatch
  room := s.room

/-- The directory on the web, without a prefix. -/
def site (atomic : Bool) : Site := ⟨config atomic, Section.all []⟩

/-- An operation that makes a user the only member of a group. -/
def replaceMembers (uuid : String) : PatchOperation :=
  ⟨"replace", some "members", some (.arr [.obj [("value", .str uuid)]])⟩

/-- An operation that removes a user from a group. -/
def removeMember (uuid : String) : PatchOperation :=
  ⟨"remove", some "members", some (.arr [.obj [("value", .str uuid)]])⟩

/-- Texts that are all different, one more of them than a statement takes besides the number of a company. -/
def crowd : List String :=
  (List.range Store.maxVariables).map fun n => String.ofList (List.replicate n 'a')

theorem length_crowd : crowd.length = Store.maxVariables := by
  rw [crowd, List.length_map, List.length_range]

theorem nodup_crowd : crowd.Nodup := by
  refine List.nodup_range.map fun n m h => ?_
  have hlength := congrArg (fun s : String => s.toList.length) h
  simpa using hlength

end Roster.Sample
