import Roster.Config.Basic
import Roster.Config.Settings
import Roster.Schema.Standard
import Roster.Store.Row

/-!
Building the configuration from settings.

The standard schemas are combined with the settings, and every name of a field is checked against the
columns of its kind. Only the read schema may refer to the status, which is no column.
-/

set_option autoImplicit false

namespace Roster.Config

/-- A field that a schema or a setting may refer to. -/
def isKnown (k : Kind) (columnsOnly : Bool) (name : String) : Bool :=
  (Column.ofName? k name).isSome || (!columnsOnly && name == "active")

/-- All names are known, or the first that is not. -/
def checkFields (k : Kind) (columnsOnly : Bool) (source : String) (names : List String) :
    Except ConfigurationError Unit :=
  match names.find? fun name => !isKnown k columnsOnly name with
  | some name => .error (.unknownReference source k name)
  | none => .ok ()

/-- All names in the configuration of a kind are known. -/
def checkResource (k : Kind) (r : ResourceConfig) : Except ConfigurationError Unit := do
  checkFields k false (r.name ++ " schema") r.schema.fields
  checkFields k true (r.name ++ " mutable schema") r.mutableSchema.fields
  checkFields k true (r.name ++ " queryable attributes") (r.queryable.map (·.2))
  checkFields k true (r.name ++ " list order") (r.listOrder.map (·.column))
  checkFields k true (r.name ++ " keys") [r.naturalKey, r.lookupField]
  checkFields k true (r.name ++ " custom attributes") (r.customAttributes.map (·.1))

/-- The member schema is an object with a field as its value. -/
def checkMember (schema : Schema) : Except ConfigurationError Unit :=
  match schema with
  | .object children =>
    match children.lookup "value" with
    | some (.field _) => .ok ()
    | _ => .error .memberValue
  | _ => .error .memberValue

/-- What the directory tells clients of its abilities. -/
def providerDescription : Json := .obj [
  ("schemas", .arr [.str "urn:ietf:params:scim:schemas:core:2.0:ServiceProviderConfig"]),
  ("documentationUri", .str "https://tools.ietf.org/html/rfc7644"),
  ("patch", .obj [("supported", .bool true)]),
  ("bulk", .obj [("supported", .bool false), ("maxOperations", .int 0), ("maxPayloadSize", .int 0)]),
  ("filter", .obj [("supported", .bool true), ("maxResults", .int 1000)]),
  ("changePassword", .obj [("supported", .bool false)]),
  ("sort", .obj [("supported", .bool false)]),
  ("etag", .obj [("supported", .bool false)]),
  ("authenticationSchemes", .arr [.obj [
    ("type", .str "httpbasic"),
    ("name", .str "HTTP Basic"),
    ("description", .str "Authentication scheme using the HTTP Basic Standard"),
    ("specUri", .str "https://tools.ietf.org/html/rfc2617"),
    ("primary", .bool true)]]),
  ("meta", .obj [("resourceType", .str "ServiceProviderConfig"), ("version", .str "v1")])]

def userResource (s : Settings) (order : List OrderBy) : ResourceConfig where
  name := "User"
  schema := Schema.user
  mutableSchema := Schema.userMutable
  queryable := Schema.userQueryable
  required := Schema.userMutable.fields.eraseDups
  naturalKey := "email"
  ignoreCase := true
  uniqueKey := true
  lookupField := "uuid"
  listOrder := order
  preventUpdate := s.userPreventUpdate
  customAttributes := s.customUserAttributes

def groupResource (s : Settings) (order : List OrderBy) : ResourceConfig where
  name := "Group"
  schema := Schema.group
  mutableSchema := Schema.groupMutable
  queryable := Schema.groupQueryable
  required := Schema.groupMutable.fields.eraseDups
  naturalKey := "display_name"
  ignoreCase := false
  uniqueKey := false
  lookupField := "uuid"
  listOrder := order
  preventUpdate := s.groupPreventUpdate
  customAttributes := []

/-- The configuration that settings describe, or the first mistake in it. -/
def build (s : Settings) : Except ConfigurationError Config := do
  let users := userResource s (← ListOrder.parse s.usersListOrder)
  let groups := groupResource s (← ListOrder.parse s.groupsListOrder)
  checkResource .user users
  checkResource .group groups
  checkFields .user true "Group member schema" Schema.member.fields
  checkMember Schema.member
  return {
    users
    groups
    memberSchema := Schema.member
    provider := providerDescription
    defaultPageSize := s.defaultPageSize
    maxPageSize := s.maxPageSize
    atomicPatch := s.atomicPatch
    room := s.room }

end Roster.Config
