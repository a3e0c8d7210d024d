import Roster.Schema.Basic

/-!
The standard schemas of users, groups and group members.

Each kind has a schema for reading, a smaller one for the attributes that a client may write, and a list of
the attribute names that filters may use.
-/

set_option autoImplicit false

namespace Roster.Schema

def userUrn : String := "urn:ietf:params:scim:schemas:core:2.0:User"

def groupUrn : String := "urn:ietf:params:scim:schemas:core:2.0:Group"

/-- How users are read. -/
def user : Schema := compile <| .object [
  ("schemas", .array [.value (.str userUrn)]),
  ("id", .tree (.field "uuid")),
  ("userName", .tree (.field "email")),
  ("name", .object [
    ("givenName", .tree (.field "first_name")),
    ("familyName", .tree (.field "last_name"))]),
  ("emails", .array [.object [
    ("value", .tree (.field "email")),
    ("primary", .value (.bool true))]]),
  ("active", .tree (.field "active")),
  ("meta", .object [("resourceType", .value (.str "User"))])]

/-- What a client writes of a user. -/
def userMutable : Schema := compile <| .object [
  ("name", .object [
    ("givenName", .tree (.field "first_name")),
    ("familyName", .tree (.field "last_name"))]),
  ("emails", .array [.object [("value", .tree (.field "email"))]])]

/-- The attributes of users that filters may use, with their columns. -/
def userQueryable : List (String × String) := [
  ("userName", "email"),
  ("email", "email"),
  ("emails.value", "email"),
  ("givenName", "first_name"),
  ("name.givenName", "first_name"),
  ("familyName", "last_name"),
  ("name.familyName", "last_name")]

/-- How groups are read; the members are added to the empty list. -/
def group : Schema := compile <| .object [
  ("schemas", .array [.value (.str groupUrn)]),
  ("id", .tree (.field "uuid")),
  ("displayName", .tree (.field "display_name")),
  ("email", .tree (.field "email")),
  ("members", .array []),
  ("meta", .object [("resourceType", .value (.str "Group"))])]

/-- What a client writes of a group. -/
def groupMutable : Schema := compile <| .object [
  ("displayName", .tree (.field "display_name")),
  ("email", .tree (.field "email"))]

/-- The attributes of groups that filters may use, with their columns. -/
def groupQueryable : List (String × String) := [("displayName", "display_name")]

/-- How a member of a group is read. -/
def member : Schema := compile <| .object [("value", .tree (.field "uuid"))]

end Roster.Schema
