import Roster.Patch.Apply
import Roster.Service.Rendering

/-!
Requests of a company on its users and groups.

A resource can be listed, shown, created, replaced, patched and deleted. Creating a resource whose natural
key is in use overwrites that resource, unless this is prevented. Changes are committed once, at the end of
a request; the answer shows the resource as it has been stored.
-/

set_option autoImplicit false

namespace Roster

open Step

variable {k : Kind}

/-- A request on users or groups. -/
inductive Request
  | list (k : Kind) (filter start count : Json)
  | show (k : Kind) (identifier : Json)
  | create (k : Kind) (payload : Json)
  | replace (k : Kind) (identifier payload : Json)
  | patch (k : Kind) (identifier : Json) (operations : List PatchOperation)
  | delete (k : Kind) (identifier : Json)

namespace Request

def kind : Request → Kind
  | list k _ _ _ | .show k _ | create k _ | replace k _ _ | patch k _ _ | delete k _ => k

/-- The filter that a value asks for: a text that is not empty. Other values that are empty or zero ask for
none, and all the rest cannot be read. -/
def filterText : Json → Except Failure (Option String)
  | .str "" => .ok none
  | .str s => .ok (some s)
  | .null | .bool false | .int 0 | .arr [] | .obj [] => .ok none
  | .double x => if x.value == .ofInt 0 then .ok none else .error (.fault .internal)
  | _ => .error (.fault .internal)

def filterOf (attributes : List (String × String)) (value : Json) :
    Except Failure (Option Filter.Expression) := do
  match ← filterText value with
  | none => return none
  | some text =>
    match Filter.parse attributes text with
    | .ok expression => return some expression
    | .error cause => throw (.refused (.filter cause))

/-- The answers for resources of the working copy, and whether they would have to show what cannot be
shown. -/
def render (ctx : Context) (k : Kind) (attached : List (String × Json)) (rows : List (Row k)) :
    Step (List Json × Bool) :=
  fun session =>
    match session.current.render ctx.config session.kept attached k rows with
    | .ok (answers, kept) =>
      (.ok (answers, session.current.hides ctx.config kept attached k rows), { session with kept })
    | .error failure => (.error failure, session)

def renderOne (ctx : Context) (k : Kind) (attached : List (String × Json)) (r : Row k) : Step Json := do
  match ← render ctx k attached [r] with
  | ([answer], false) => return answer
  | _ => attempt (.error (.fault .internal))

def runList (ctx : Context) (owner : Company) (pager : Pager) (k : Kind) (filter start count : Json) :
    Step Json := do
  notify (.before (.obj [("filter", filter), ("startIndex", start), ("count", count)]))
  let resource := ctx.config.resource k
  let window ← attempt (pager.window start count)
  let expression ← attempt (filterOf resource.queryable filter)
  let page ← look fun s =>
    s.query k owner expression resource.listOrder window.offset (some window.limit)
  notify (.after .retrieved (.many (page.items.map (·.uuid))))
  let (resources, hides) ← render ctx k [] page.items
  if !resources.all Json.isObject then attempt (.error (.fault .result))
  else if hides then attempt (.error (.fault .internal))
  else return listAnswer page.total window.startIndex window.limit resources

def runShow (ctx : Context) (owner : Company) (k : Kind) (identifier : Json) : Step Json := do
  notify (.before (.obj [("id", identifier)]))
  let r ← look fun s => s.get ctx.config k owner identifier
  notify (.after .retrieved (.one r.uuid))
  renderOne ctx k [] r

/-- What listeners are told of the body of a request. -/
def announced (payload : Json) : Json :=
  if payload.isObject then payload else .obj []

/-- The users that a new resource has as members, if it is a group that lists any. -/
def newMembers (ctx : Context) (owner : Company) (k : Kind) (payload : Json) :
    Step (List (Row .user)) :=
  match k, payload.fieldOrNull "members" with
  | .user, _ | .group, .null => return []
  | .group, members => listedUsers ctx owner members Members.postExpectation

def addNewMembers (ctx : Context) (users : List (Row .user)) : (k : Kind) → Row k → Step Unit
  | .user, _ => return ()
  | .group, r => modifyStore fun s => s.addMembers ctx.clock r users

/-- Inserts a resource, and tells what goes with it. -/
def insertResource (ctx : Context) (owner : Company) (k : Kind) (attributes : Schema.Values) :
    Step (Row k × List (String × Json)) := do
  let draft ← attempt (Store.draft k attributes)
  let uuid ← if Store.needsUuid draft.values then drawUuid else pure ""
  let r ← change fun s => s.insert ctx.clock owner uuid draft.values
  return (r, draft.attached)

/-- Overwrites a resource; nothing goes with it. -/
def overwriteResource (ctx : Context) (r : Row k) (attributes : Schema.Values) :
    Step (Row k × List (String × Json)) := do
  let r ← change fun s => s.update ctx.clock r attributes
  return (r, [])

/-- Creates a resource, or overwrites the one with its natural key. -/
def runCreate (ctx : Context) (owner : Company) (k : Kind) (payload : Json) : Step Json := do
  notify (.before (announced payload))
  let resource := ctx.config.resource k
  let attributes ← check (resource.complete payload)
  let status ← check (parseActive (payload.fieldOrNull "active"))
  let members ← newMembers ctx owner k payload
  match attributes.lookup resource.naturalKey with
  | none => attempt (.error (.fault .internal))
  | some key =>
    let existing ← look fun s => s.findBy k owner resource.naturalKey key resource.ignoreCase
    let values := mergeFields resource.customAttributes attributes
    let (r, attached) ← match existing with
      | some found =>
        if resource.preventUpdate then refuse (.conflict resource.name resource.naturalKey key)
        else overwriteResource ctx found values
      | none => insertResource ctx owner k values
    let r ← applyStatus ctx r status
    addNewMembers ctx members k r
    commit
    notify (.after .created (.one r.uuid))
    renderOne ctx k attached r

/-- The users that a replaced resource has as members, if it is a group. -/
def replacedMembers (ctx : Context) (owner : Company) (k : Kind) (payload : Json) :
    Step (List (Row .user)) :=
  match k with
  | .user => return []
  | .group => listedUsers ctx owner (payload.fieldOrNull "members") Members.putExpectation

def setMembers (ctx : Context) (users : List (Row .user)) : (k : Kind) → Row k → Step Unit
  | .user, _ => return ()
  | .group, r => replaceMembers ctx r users

def runReplace (ctx : Context) (owner : Company) (k : Kind) (identifier payload : Json) :
    Step Json := do
  notify (.before (announced payload))
  let r ← look fun s => s.get ctx.config k owner identifier
  let members ← replacedMembers ctx owner k payload
  let status ← check (parseActive (payload.fieldOrNull "active"))
  let attributes ← check ((ctx.config.resource k).complete payload)
  let r ← updateAttributes ctx owner r attributes
  let r ← applyStatus ctx r status
  setMembers ctx members k r
  commit
  notify (.after .updated (.one r.uuid))
  renderOne ctx k [] r

def runPatch (ctx : Context) (owner : Company) (k : Kind) (identifier : Json)
    (operations : List PatchOperation) : Step Json := do
  notify (.before (.obj [("id", identifier), ("Operations", .arr (operations.map PatchOperation.json))]))
  let r ← look fun s => s.get ctx.config k owner identifier
  let r ← applyOperations ctx owner r operations
  commit
  notify (.after .updated (.one r.uuid))
  renderOne ctx k [] r

/-- Deletes a resource and its memberships. -/
def runDelete (ctx : Context) (owner : Company) (k : Kind) (identifier : Json) : Step Json := do
  notify (.before (.obj [("id", identifier)]))
  let r ← look fun s => s.get ctx.config k owner identifier
  modifyStore fun s => s.erase k r
  commit
  notify (.after .deleted (.one r.uuid))
  return .null

def steps (ctx : Context) (owner : Company) (request : Request) : Step Json := do
  let pager ← check ((ctx.config.serve request.kind).mapError .configuration)
  match request with
  | list k filter start count => runList ctx owner pager k filter start count
  | .show k identifier => runShow ctx owner k identifier
  | create k payload => runCreate ctx owner k payload
  | replace k identifier payload => runReplace ctx owner k identifier payload
  | patch k identifier operations => runPatch ctx owner k identifier operations
  | delete k identifier => runDelete ctx owner k identifier

end Request

/-- Performs a request of a company on a directory. -/
def Directory.perform (d : Directory) (ctx : Context) (owner : Company) (request : Request) :
    Outcome Json :=
  d.run (request.steps ctx owner)

end Roster
