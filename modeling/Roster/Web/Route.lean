import Roster.Kind
import Roster.Web.Template

/-!
Routes: what the paths of a directory stand for.

Routes come in sections that are searched in order: the pages about the directory, the health check, and then
under the path prefix the users, the groups, the abilities and the resource types. The prefix may have
parameters of its own. A section whose templates do not make sense is faulty, and so is every search that
comes to it. A known path with slashes after it leads to the path without them.
-/

set_option autoImplicit false

namespace Roster

/-- What a path stands for. Where the prefix hides the parameter for an identifier, the path gives none. -/
inductive Route
  | page
  | health
  | collection (k : Kind)
  | resource (k : Kind) (identifier : Option String)
  | provider
  | types
  | type (name : Option String)
  deriving DecidableEq, Repr

inductive Method
  | get
  | head
  | post
  | put
  | patch
  | delete
  deriving DecidableEq, Repr

/-- The method with a name, which is known in any case. -/
def Method.ofName? (name : String) : Option Method :=
  match String.ofList (name.toList.map Char.toUpper) with
  | "GET" => some .get
  | "HEAD" => some .head
  | "POST" => some .post
  | "PUT" => some .put
  | "PATCH" => some .patch
  | "DELETE" => some .delete
  | _ => none

namespace Route

def allows : Route → Method → Bool
  | page, m => m == .get || m == .head
  | collection _, m => m == .get || m == .post
  | resource _ _, m => m == .get || m == .put || m == .patch || m == .delete
  | _, m => m == .get

/-- The name of the parameter that identifies a resource. -/
def identifierName : Kind → String
  | .user => "user_id"
  | .group => "group_id"

/-- The name of the parameter that identifies a resource type. -/
def typeName : String := "name"

end Route

/-- A template and what its paths stand for, given the value of the parameter for an identifier. -/
structure Endpoint where
  template : Template
  parameter : String
  route : Option String → Route

namespace Endpoint

def plain (template : Template) (route : Route) : Endpoint := ⟨template, "", fun _ => route⟩

def route? (e : Endpoint) (path : List Char) : Option Route :=
  (e.template.read? path).map fun values =>
    e.route (if e.template.declares [e.parameter] then values.lookup e.parameter.toList else none)

end Endpoint

/-- A section of routes; a faulty one has no endpoints. -/
abbrev Section := Option (List Endpoint)

namespace Section

/-- The template of a path with a parameter as its last part. -/
def below (root : List Char) (parameter : String) : List Char :=
  root ++ '/' :: '\x7b' :: parameter.toList ++ ['\x7d']

def pages : Section :=
  ["/openapi.json", "/docs", "/docs/oauth2-redirect", "/redoc"].mapM fun path =>
    (Template.ofText? path.toList).map fun t => .plain t .page

def health : Section := do
  return [.plain (← Template.ofText? "/health".toList) .health]

/-- The path of the resources of a kind below the prefix. -/
def collectionPath : Kind → String
  | .user => "/Users"
  | .group => "/Groups"

/-- The resources of a kind. No parameter of the prefix has a name that is taken by a value of a request. -/
def resources (root : List Char) (k : Kind) : Section := do
  let path := root ++ (collectionPath k).toList
  let collection ← Template.ofText? path
  let resource ← Template.ofText? (below path (Route.identifierName k))
  if collection.declares ["filter", "start_index", "count", "payload"] then none
  else if resource.declares ["payload", "patch_request"] then none
  else return [.plain collection (.collection k), ⟨resource, Route.identifierName k, .resource k⟩]

def provider (root : List Char) : Section := do
  return [.plain (← Template.ofText? (root ++ "/ServiceProviderConfig".toList)) .provider]

def types (root : List Char) : Section := do
  let path := root ++ "/ResourceTypes".toList
  let types ← Template.ofText? path
  let type ← Template.ofText? (below path Route.typeName)
  return [.plain types .types, ⟨type, Route.typeName, .type⟩]

/-- All sections in the order of the search. -/
def all (root : List Char) : List Section :=
  [pages, health, resources root .user, resources root .group, provider root, types root]

end Section

/-- What a search among routes comes to. -/
inductive Destination
  | found (route : Route) (method : Method)
  | wrongMethod
  | moved
  | unknown
  | faulty
  deriving DecidableEq, Repr

namespace Destination

/-- The path without the slashes at its end, if it has any. -/
def withoutSlash? (path : List Char) : Option (List Char) :=
  if path.getLast? == some '/' && path != ['/'] then
    some (path.reverse.dropWhile (· == '/')).reverse
  else none

def isKnown (sections : List Section) (path : List Char) : Bool :=
  sections.any fun endpoints => (endpoints.getD []).any fun e => (e.route? path).isSome

/-- The first route of a path that answers a method. -/
def answering? (endpoints : List Endpoint) (method : Option Method) (path : List Char) :
    Option (Route × Method) :=
  method.bind fun m =>
    ((endpoints.filterMap (·.route? path)).find? (·.allows m)).map fun route => (route, m)

/-- Searches sections for a route that answers a method, and tells whether all were searched. -/
def search (method : Option Method) (path : List Char) : List Section → Option Destination
  | [] => none
  | none :: _ => some faulty
  | some endpoints :: rest =>
    match answering? endpoints method path with
    | some (route, m) => some (found route m)
    | none => search method path rest

/-- What a method and a path come to. -/
def of (sections : List Section) (method : Option Method) (path : List Char) : Destination :=
  match search method path sections with
  | some destination => destination
  | none =>
    if isKnown sections path then wrongMethod
    else if (withoutSlash? path).any (isKnown sections) then moved
    else unknown

end Destination

end Roster
