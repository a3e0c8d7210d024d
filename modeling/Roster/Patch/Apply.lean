import Roster.Json.Shape
import Roster.Patch.Basic
import Roster.Service.Attributes
import Roster.Service.Membership
import Roster.Schema.Nest
import Roster.Filter.Parser
import Roster.Status
import Roster.Text.Split

/-!
Applying PATCH operations.

Operations are applied in order, each to what the ones before have left, and the first that fails stops the
request. Attributes can be replaced; the members of a group can also be added to and removed, by listing
them, by a filter in brackets, or all at once. Unless a request is atomic, every operation is committed.
-/

set_option autoImplicit false

namespace Roster

open Step

variable {k : Kind}

/-- The names in a path. -/
def PatchOperation.names (path : String) : List String :=
  (Text.splitAt '.' path.toList).map String.ofList

/-- The document that an operation replaces attributes by: its value, or its value at the end of its path, which is
followed by nested calls. An empty path is no path. -/
def PatchOperation.document (room : Nat) (schema : Schema) (o : PatchOperation) : Except Failure Json :=
  match o.path with
  | none | some "" => .ok o.valueOrNull
  | some path =>
    if path.toList.any BracketPath.isBracket then .error (.refused (.patchPath o.path))
    else
      match Schema.nestWithin room (some schema) (names path) o.valueOrNull with
      | some document => .ok document
      | none => .error (.fault .internal)

/-- The status that the document of an operation asks for. To word a refusal takes a nested call for every level of
the value, and three more. -/
def PatchOperation.status (room : Nat) (document : Json) : Except Failure (Option Bool) :=
  match parseActive (document.fieldOrNull "active") with
  | .ok status => .ok status
  | .error cause =>
    if (document.fieldOrNull "active").height + 3 ≤ room then .error (.refused cause) else .error (.fault .internal)

/-- Replaces the attributes and the status that an operation has values for. -/
def replaceAttributes (ctx : Context) (owner : Company) (r : Row k) (o : PatchOperation) :
    Step (Row k) := do
  let schema := (ctx.config.resource k).mutableSchema
  let document ← attempt (o.document ctx.config.room schema)
  if !document.isObject then refuse .patchValue
  let attributes := schema.extractPresent document
  let status ← attempt (PatchOperation.status ctx.config.room document)
  let r ← if attributes.isEmpty then pure r else updateAttributes ctx owner r attributes
  applyStatus ctx r status

/-- The list of members that an operation adds: its value, or without a path the members in it. -/
def PatchOperation.addedMembers (o : PatchOperation) : Json :=
  match o.path, o.valueOrNull.field? "members" with
  | none, some members => members
  | _, _ => o.valueOrNull

def addListed (ctx : Context) (owner : Company) (group : Row .group) (o : PatchOperation) :
    Step Unit := do
  if o.path != none && o.path != some "members" then refuse (.patchPath o.path)
  let users ← listedUsers ctx owner o.addedMembers Members.patchExpectation
  modifyStore fun s => s.addMembers ctx.clock group users

/-- The filter that a path gives for the members of a group. -/
def memberFilter (config : Config) (path : Option String) : Except Error Filter.Expression :=
  match BracketPath.ofPath? (path.getD "").toList with
  | some bracket =>
    if bracket.name != "members".toList || !bracket.suffix.isEmpty then .error (.patchPath path)
    else
      match Filter.parse config.memberAttributes (String.ofList bracket.filter) with
      | .ok filter => .ok filter
      | .error cause => .error (.patchFilter cause)
  | none => .error (.patchPath path)

def removeUsers (group : Row .group) (users : List (Row .user)) : Step Unit :=
  change fun s => (s.removeMembers group users).map fun s => ((), s)

/-- Removes members of a group: those listed, all if no value is given, or those that a filter selects. -/
def removeListed (ctx : Context) (owner : Company) (group : Row .group) (o : PatchOperation) :
    Step Unit := do
  if o.path == some "members" then
    match o.value with
    | none => modifyStore fun s => s.clearMembers group
    | some members =>
      let identifiers ← check (Members.identifiers members Members.patchExpectation)
      let users ← look fun s => s.resolveMembers ctx.config group identifiers
      removeUsers group users
  else
    let filter ← check (memberFilter ctx.config o.path)
    let users ← look fun s => s.matchingMembers owner group filter
    removeUsers group users

/-- Replaces the members or the attributes of a group. -/
def replaceInGroup (ctx : Context) (owner : Company) (group : Row .group) (o : PatchOperation) :
    Step (Row .group) := do
  if o.path == some "members" then
    let users ← listedUsers ctx owner o.valueOrNull Members.patchExpectation
    replaceMembers ctx group users
    return group
  else replaceAttributes ctx owner group o

def applyOperation (ctx : Context) (owner : Company) :
    (k : Kind) → Row k → PatchOperation → Step (Row k)
  | .user, r, o =>
    if o.name = "replace" then replaceAttributes ctx owner r o else refuse (.patchOperation .user)
  | .group, r, o =>
    if o.name = "replace" then replaceInGroup ctx owner r o
    else if o.name = "add" then do
      addListed ctx owner r o
      return r
    else if o.name = "remove" then do
      removeListed ctx owner r o
      return r
    else refuse (.patchOperation .group)

/-- Applies operations to a resource, one after the other. -/
def applyOperations (ctx : Context) (owner : Company) (r : Row k) :
    List PatchOperation → Step (Row k)
  | [] => return r
  | o :: rest => do
    let r ← applyOperation ctx owner k r o
    if !ctx.config.atomicPatch then commit
    applyOperations ctx owner r rest

end Roster
