import Roster.Config.Basic
import Roster.Schema.Read
import Roster.Store.Basic

/-!
How resources are answered.

A user is rendered by its schema. A group is rendered by its schema, which has to give an object, and its
members are added to the list under `members`, which is made if the schema has none. Where that list, or the
whole object, is a constant of the schema, there is one list for all groups: it keeps the members of every
group that has been rendered, and each group shows it as it is in the end.
-/

set_option autoImplicit false

namespace Roster

variable {k : Kind}

/-- The schema refers to a trait that cannot be shown and has not been given a value. -/
def Schema.hides (schema : Schema) (k : Kind) (attached : List (String × Json)) : Bool :=
  schema.fields.any fun name =>
    Trait.ofName? k name == some .hidden && (attached.lookup name).isNone

/-- The value of a field, of what goes with a row first. -/
def Row.shown? (r : Row k) (attached : List (String × Json)) (name : String) : Option Json :=
  match attached.lookup name with
  | some value => some value
  | none => r.field? name

/-- A row, with what goes with it, rendered by a schema. Fields cannot be read once their reader has been
given another value. -/
def Row.render (r : Row k) (attached : List (String × Json)) (schema : Schema) : Except Failure Json :=
  if !schema.fields.isEmpty && (attached.lookup "read_field").isSome then .error (.fault .argument)
  else
    match schema.read (r.shown? attached) with
    | .ok value => .ok value
    | .error name => .error (.refused (.configuration (.unreadable k name)))

/-- The items of an array; what is none has no items. -/
def Json.items : Json → List Json
  | .arr items => items
  | _ => []

/-- Adds items to the list under a name of an object. -/
def Json.extend (name : String) (items : List Json) : Json → Except Failure Json
  | .obj fields =>
    let listed := ((fields.lookup name).getD .null).items
    .ok (.obj (setField name (.arr (listed ++ items)) fields))
  | _ => .error (.fault .internal)

/-- The schema of groups has one list of members for all groups. -/
def Schema.keepsMembers : Schema → Bool
  | .constant value => value.isObject
  | .object children =>
    match children.lookup "members" with
    | some (.constant (.arr _)) => true
    | _ => false
  | _ => false

namespace Store

/-- A group without its members, and its members. -/
def groupParts (s : Store) (config : Config) (attached : List (String × Json)) (r : Row .group) :
    Except Failure (Json × List Json) := do
  let rendered ← r.render attached config.groups.schema
  if !rendered.isObject then throw (.fault .internal)
  return (rendered, ← (s.membersOf r).mapM fun m => m.render [] config.memberSchema)

/-- The answers for groups, and the members kept in the one list for all groups after those kept before. -/
def renderGroups (s : Store) (config : Config) (kept : List Json) (attached : List (String × Json))
    (rows : List (Row .group)) : Except Failure (List Json × List Json) := do
  let parts ← rows.mapM (s.groupParts config attached)
  if config.groups.schema.keepsMembers then
    let kept := kept ++ parts.flatMap (·.2)
    return (← parts.mapM fun p => p.1.extend "members" kept, kept)
  else return (← parts.mapM fun p => p.1.extend "members" p.2, kept)

/-- The answers for resources, and the members kept afterwards. -/
def render (s : Store) (config : Config) (kept : List Json) (attached : List (String × Json)) :
    (k : Kind) → List (Row k) → Except Failure (List Json × List Json)
  | .user, rows => do return (← rows.mapM fun r => r.render attached config.users.schema, kept)
  | .group, rows => s.renderGroups config kept attached rows

/-- Some answer would have to show a trait that cannot be shown. -/
def hides (s : Store) (config : Config) (kept : List Json) (attached : List (String × Json)) :
    (k : Kind) → List (Row k) → Bool
  | .user, rows => !rows.isEmpty && config.users.schema.hides .user attached
  | .group, rows =>
    !rows.isEmpty &&
      (config.groups.schema.hides .group attached ||
        config.memberSchema.hides .user [] &&
          (!kept.isEmpty || rows.any fun r => !(s.membersOf r).isEmpty))

end Store

/-- The identifier of the form of list answers. -/
def listUrn : String := "urn:ietf:params:scim:api:messages:2.0:ListResponse"

/-- The answer for a list: the number of all that was found, the start and the size that were asked for,
and the resources of this page. -/
def listAnswer (total startIndex itemsPerPage : Int) (resources : List Json) : Json := .obj [
  ("schemas", .arr [.str listUrn]),
  ("totalResults", .int total),
  ("startIndex", .int startIndex),
  ("itemsPerPage", .int itemsPerPage),
  ("Resources", .arr resources)]

end Roster
