import Roster.Json.Reader
import Roster.Json.Shape
import Roster.Config.Settings
import Roster.Schema.Standard
import Roster.Service.Request
import Roster.Text.Split
import Roster.Web.Credentials
import Roster.Web.Encoding
import Roster.Web.Reference
import Roster.Web.Route

/-!
Exchanges: web requests and their answers.

The parts of a request are checked in a fixed order: the path and the method, the syntax of the body, the
credentials, the configuration of the service, and then the form of the body. What passes becomes a request
of a company on its resources. Refusals are answered with their status, type and wording, and faults with a
general error.
-/

set_option autoImplicit false

namespace Roster

open Text (trim lowerPlain splitFirst?)

/-- The body of a web request and its declared type. -/
structure Body where
  text : String
  mediaType : String

structure WebRequest where
  method : String
  path : String
  query : List (String × String)
  authorization : Option String
  body : Option Body

structure Answer where
  status : Nat
  body : Option Json
  challenge : Option String
  deriving DecidableEq

/-- What holds the directory of a site: nothing that can be reached, a place where no directory has been set
up, or a directory. -/
inductive Storage
  | unreachable
  | bare
  | ready (directory : Directory)

def Storage.directory? : Storage → Option Directory
  | ready d => some d
  | _ => none

def Storage.isReachable : Storage → Bool
  | unreachable => false
  | _ => true

/-- A directory on the web: its configuration and its routes. -/
structure Site where
  config : Config
  sections : List Section

namespace Answer

def ofJson (status : Nat) (body : Json) : Answer := ⟨status, some body, none⟩

def errorUrn : String := "urn:ietf:params:scim:api:messages:2.0:Error"

/-- The body of an error; an error without a type has no field for it. -/
def errorBody (status : Nat) (scimType : Option String) (detail : String) : Json :=
  let type := match scimType with
    | some t => [("scimType", Json.str t)]
    | none => []
  .obj ([("schemas", .arr [.str errorUrn]), ("status", .int status)] ++ type ++ [("detail", .str detail)])

/-- The answer to a refused request; missing credentials are asked for. -/
def refusal (cause : Error) : Answer where
  status := cause.status
  body := some (errorBody cause.status cause.scimType cause.message)
  challenge := if cause.status = 401 then some "Basic realm=\"SCIM\"" else none

/-- The answer to a request that failed beneath the service. -/
def general : Answer :=
  ofJson 500 (errorBody 500 none "Internal server error")

/-- The answer to a request that failed; a refusal that names a torn text cannot be worded. -/
def failure : Failure → Answer
  | .refused (.notFound (.torn _)) => general
  | .refused cause => refusal cause
  | .fault _ => general

/-- The answer to a body that is no JSON or has another form than the request asks for. -/
def invalidBody : Answer :=
  ofJson 400 (errorBody 400 (some "invalidSyntax") "Invalid request")

/-- The answer to a body whose text, numbers or depth are beyond the reader. -/
def unreadableBody : Answer :=
  ofJson 400 (.obj [("detail", .str "There was an error parsing the body")])

/-- The answer to credentials that cannot be decoded. -/
def undecodable : Answer :=
  ofJson 401 (errorBody 401 none "Not authenticated")

/-- The answer to a path or a method that is not known. -/
def unknown (status : Nat) (detail : String) : Answer :=
  ofJson status (.obj [("detail", .str detail)])

end Answer

/-- What a body holds: nothing, a text that is not declared as JSON, or a value. -/
inductive Content
  | nothing
  | plain
  | json (value : Json)
  deriving DecidableEq

namespace Body

/-- The declared type is JSON or built on it; without a declaration a body counts as JSON. -/
def isJson (mediaType : String) : Bool :=
  let declared := match splitFirst? ';' mediaType.toList with
    | some (type, _) => type
    | none => mediaType.toList
  match Text.splitAt '/' (lowerPlain (trim declared)) with
  | [main, sub] =>
    main == "application".toList && (sub == "json".toList || "+json".toList.isSuffixOf sub)
  | _ => mediaType.isEmpty

/-- The content of a body, if it can be read. -/
def content : Option Body → Except Answer Content
  | none => .ok .nothing
  | some b =>
    if b.text.isEmpty then .ok .nothing
    else if isJson b.mediaType then
      match (Encoding.documentText? b.text).map (Json.readWithin Json.maxLevels) with
      | some (.ok value) => .ok (.json value)
      | some (.error .malformed) => .error .invalidBody
      | some (.error .tooManyDigits) | some (.error .tooDeep) | none => .error .unreadableBody
    else .ok .plain

end Body

/-- The object that creating or replacing a resource needs. -/
def Content.object? : Content → Option Json
  | .json (.obj fields) => some (.obj fields)
  | _ => none

/-- The list of schemas of a PATCH request, which may be missing, holds texts only. -/
def validSchemas : Option Json → Bool
  | none => true
  | some (.arr items) => items.all fun
    | .str _ | .torn _ => true
    | _ => false
  | some _ => false

def Content.operations? : Content → Option (List PatchOperation)
  | .json (.obj fields) =>
    match validSchemas (fields.lookup "schemas"), fields.lookup "Operations" with
    | true, some (.arr items) => items.mapM PatchOperation.ofJson?
    | _, _ => none
  | _ => none

namespace WebRequest

/-- The value that the query has for a name; of several the last counts. -/
def parameter? (r : WebRequest) (name : String) : Option String :=
  r.query.reverse.lookup name

/-- A parameter of the query, null if it is missing. -/
def parameter (r : WebRequest) (name : String) : Json :=
  ((r.parameter? name).map Json.str).getD .null

/-- The identifier that the path gives, or else the query. -/
def identifier? (r : WebRequest) (k : Kind) (given : Option String) : Option Json :=
  (given <|> r.parameter? (Route.identifierName k)).map Json.str

/-- The request on resources that a method asks of a route, if it is identified and the content has the form
for it. -/
def request? (r : WebRequest) (content : Content) : Route → Method → Option Request
  | .collection k, .get =>
    some (.list k (r.parameter "filter") (r.parameter "startIndex") (r.parameter "count"))
  | .collection k, .post => content.object?.map (.create k)
  | .resource k given, method => do
    let id ← r.identifier? k given
    match method with
    | .get => return .show k id
    | .put => return .replace k id (← content.object?)
    | .patch => return .patch k id (← content.operations?)
    | .delete => return .delete k id
    | _ => none
  | _, _ => none

/-- The content that a method uses; the others do not look at the body. -/
def content (r : WebRequest) : Method → Except Answer Content
  | .get | .head | .delete => .ok .nothing
  | _ => Body.content r.body

/-- The directory, and the company that the credentials of a request authenticate. -/
def authenticate (r : WebRequest) (storage : Storage) : Except Answer (Directory × Company) :=
  match Credentials.ofHeader r.authorization, storage with
  | .missing, _ => .error (.refusal .credentials)
  | .unreadable, _ => .error .undecodable
  | .basic name password, .ready d =>
    match d.store.authenticate? name password with
    | some owner => .ok (d, owner)
    | none => .error (.refusal .credentials)
  | .basic _ _, _ => .error (.failure (.fault .store))

end WebRequest

/-- The most levels that an answer may have below its own: the writer of answers follows no more. -/
def maxAnswerLevels : Nat := 255

/-- The answer with a result, which has to be an object of not too many levels. -/
def Answer.ofResult (status : Nat) (value : Json) : Answer :=
  if value.isObject && value.height ≤ maxAnswerLevels + 1 then ofJson status value.finite
  else failure (.fault .result)

/-- The answer to a performed request; what is deleted has no body. -/
def Request.answer (request : Request) : Except Failure Json → Answer
  | .error failure => .failure failure
  | .ok value =>
    match request with
    | .delete _ _ => ⟨204, none, none⟩
    | .create _ _ => .ofResult 201 value
    | _ => .ofResult 200 value

def typeDescription (name endpoint description schema : String) : Json := .obj [
  ("schemas", .arr [.str "urn:ietf:params:scim:schemas:core:2.0:ResourceType"]),
  ("id", .str name),
  ("name", .str name),
  ("endpoint", .str endpoint),
  ("description", .str description),
  ("schema", .str schema),
  ("meta", .obj [
    ("location", .str ("/ResourceTypes/" ++ name)),
    ("resourceType", .str "ResourceType")])]

def resourceTypes : List (String × Json) := [
  ("User", typeDescription "User" "/Users" "User Account" Schema.userUrn),
  ("Group", typeDescription "Group" "/Groups" "Group" Schema.groupUrn)]

def healthAnswer (available : Bool) : Json := .obj [
  ("status", .str (if available then "healthy" else "degraded")),
  ("service", .str "scim-directory"),
  ("database", .str (if available then "ok" else "unavailable"))]

/-- What is left of an exchange. -/
structure Exchange where
  answer : Answer
  storage : Storage
  notices : List Notice

namespace Site

/-- The site under a prefix, from which slashes at its end are dropped. What is left has to be empty or to
start with a slash. -/
def make? (config : Config) (root : String) : Option Site :=
  match (root.toList.reverse.dropWhile (· == '/')).reverse with
  | [] => some ⟨config, Section.all []⟩
  | '/' :: rest => some ⟨config, Section.all ('/' :: rest)⟩
  | _ => none

/-- The site that settings describe, with a configuration of its own. -/
def ofSettings? (config : Config) (settings : Settings) : Option Site :=
  if settings.hasLogLevel then make? config settings.pathPrefix else none

variable (site : Site)

def serve (clock : Nat) (storage : Storage) (r : WebRequest) (route : Route) (k : Kind) (method : Method) :
    Exchange :=
  let checked : Except Answer (Directory × Company × Request) := do
    let content ← r.content method
    let (directory, owner) ← r.authenticate storage
    match site.config.serve k with
    | .error cause => throw (.refusal (.configuration cause))
    | .ok _ => pure ()
    match r.request? content route method with
    | some request => return (directory, owner, request)
    | none => throw .invalidBody
  match checked with
  | .error answer => ⟨answer, storage, []⟩
  | .ok (directory, owner, request) =>
    let outcome := directory.perform ⟨site.config, clock⟩ owner request
    ⟨request.answer outcome.result, .ready outcome.directory, outcome.notices⟩

/-- The description of a resource type, if the name is given. -/
def typeAnswer : Option String → Answer
  | none => .invalidBody
  | some name =>
    match resourceTypes.lookup name with
    | some description => .ofJson 200 description
    | none => .refusal (.notFound (.str name))

/-- The answers on a directory that do not depend on its contents. -/
def describe (storage : Storage) (r : WebRequest) : Route → Answer
  | .health => .ofJson 200 (healthAnswer storage.isReachable)
  | .provider => .ofJson 200 site.config.provider
  | .types =>
    .ofJson 200 (listAnswer resourceTypes.length 1 resourceTypes.length (resourceTypes.map (·.2)))
  | .type given => typeAnswer (given <|> r.parameter? Route.typeName)
  | _ => ⟨200, none, none⟩

/-- Answers a web request with what its path and its method come to. -/
def answer (clock : Nat) (storage : Storage) (r : WebRequest) (method : Option Method) : Exchange :=
  match Destination.of site.sections method (Reference.resolve r.path.toList) with
  | .unknown => ⟨.unknown 404 "Not Found", storage, []⟩
  | .wrongMethod => ⟨.unknown 405 "Method Not Allowed", storage, []⟩
  | .moved => ⟨⟨307, none, none⟩, storage, []⟩
  | .faulty => ⟨.failure (.fault .internal), storage, []⟩
  | .found route method =>
    match route with
    | .collection k | .resource k _ => site.serve clock storage r route k method
    | route => ⟨site.describe storage r route, storage, []⟩

/-- Answers a web request; an answer that is asked for without its body has none. -/
def handle (clock : Nat) (storage : Storage) (r : WebRequest) : Exchange :=
  let method := Method.ofName? r.method
  let x := site.answer clock storage r method
  if method = some .head then { x with answer := { x.answer with body := none } } else x

end Site

end Roster
