import Roster.ListOrder
import Roster.Paging
import Roster.Schema.Basic

/-!
The configuration of a directory.

For each kind of resource it says how resources are read and written, which attributes are required, which
one is the natural key that a second creation is recognised by, and how lists are ordered. A service for a
kind can be opened only if the page sizes and the schema of members make sense.
-/

set_option autoImplicit false

namespace Roster

structure ResourceConfig where
  name : String
  schema : Schema
  mutableSchema : Schema
  queryable : List (String × String)
  required : List String
  naturalKey : String
  ignoreCase : Bool
  uniqueKey : Bool
  lookupField : String
  listOrder : List OrderBy
  preventUpdate : Bool
  customAttributes : List (String × Json)

structure Config where
  users : ResourceConfig
  groups : ResourceConfig
  memberSchema : Schema
  provider : Json
  defaultPageSize : Int
  maxPageSize : Option Int
  atomicPatch : Bool
  room : Nat

namespace Config

def resource (c : Config) : Kind → ResourceConfig
  | .user => c.users
  | .group => c.groups

/-- The attributes of members that filters may use, with their columns. -/
def memberAttributes (c : Config) : List (String × String) :=
  c.memberSchema.fieldMap

/-- The field of a user that identifies a member; empty only where no service for groups can be opened. -/
def memberField (c : Config) : String :=
  (c.memberAttributes.lookup "value").getD ""

/-- The page sizes of a service for a kind, if it can be opened. -/
def serve (c : Config) (k : Kind) : Except ConfigurationError Pager := do
  let pager ← Pager.make c.defaultPageSize c.maxPageSize
  if k = .group && (c.memberAttributes.lookup "value").isNone then throw .memberValue
  return pager

end Config

end Roster
