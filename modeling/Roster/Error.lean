import Roster.Filter.Basic
import Roster.Json.Display
import Roster.Kind

/-!
Why a request is refused.

Every refusal is a cause with the values that belong to it. The wording, the status and the error type that
clients see are functions of the cause. What goes wrong beneath the service, in the store or in the shape
of an argument, is a fault and has no wording.
-/

set_option autoImplicit false

namespace Roster

/-- A mistake in the configuration of a directory. -/
inductive ConfigurationError
  | direction (direction order : String)
  | noOrder
  | unknownReference (source : String) (kind : Kind) (field : String)
  | memberValue
  | pageSize
  | unreadable (kind : Kind) (field : String)
  | unknownColumn (kind : Kind) (column : String)
  deriving DecidableEq, Repr

/-- The wording of a mistake in the configuration. -/
def ConfigurationError.message : ConfigurationError → String
  | .direction found order =>
    "Invalid sort direction '" ++ found ++ "' in list order '" ++ order ++ "'"
  | .noOrder => "List order must name at least one column"
  | .unknownReference source kind field =>
    source ++ " references unknown " ++ kind.name ++ " field '" ++ field ++ "'"
  | .memberValue => "Group member schema must map 'value' to a user field"
  | .pageSize => "Page sizes must not be negative"
  | .unreadable kind field =>
    kind.name ++ " has no field '" ++ field ++ "' referenced by the SCIM schema"
  | .unknownColumn kind column => kind.name ++ " has no column '" ++ column ++ "'"

/-- The cause of a refusal. -/
inductive Error
  | credentials
  | notFound (identifier : Json)
  | noObject
  | missingAttributes (names : List String)
  | conflict (resource key : String) (value : Json)
  | members (expected : String)
  | active (value : Json)
  | patchValue
  | paginationTruth (parameter : String)
  | paginationNumber (parameter : String) (value : Json)
  | filter (cause : Filter.Error)
  | patchOperation (kind : Kind)
  | patchPath (path : Option String)
  | patchFilter (cause : Filter.Error)
  | configuration (cause : ConfigurationError)
  deriving DecidableEq, Repr

namespace Error

def message : Error → String
  | credentials => "Authorization failure. The authorization header is invalid or missing."
  | notFound identifier => "Resource " ++ identifier.text ++ " not found"
  | noObject => "Invalid request. The request body must be a JSON object."
  | missingAttributes names =>
    "Invalid request. Missing required attributes: " ++ ", ".intercalate names
  | conflict resource key value =>
    resource ++ " with " ++ key ++ " '" ++ value.text ++ "' already exists"
  | members expected => expected
  | active value =>
    "Invalid 'active' value: " ++ value.literal ++
      ". Expected true, false, \"true\", \"false\", 1 or 0."
  | patchValue =>
    "Invalid PATCH request. A 'replace' operation without a path requires an object value."
  | paginationTruth parameter => "'" ++ parameter ++ "' must be an integer"
  | paginationNumber parameter value =>
    "'" ++ parameter ++ "' must be an integer, got " ++ value.literal
  | filter cause => cause.message
  | patchOperation .user =>
    "Invalid PATCH request. This PATCH endpoint only supports 'replace' operations."
  | patchOperation .group =>
    "Invalid PATCH request. Supported operations are 'add', 'remove' and 'replace'."
  | patchPath path =>
    "Invalid PATCH request. Unsupported path: " ++ ((path.map Json.str).getD .null).literal
  | patchFilter cause => "Invalid PATCH request. " ++ cause.message
  | configuration cause => cause.message

/-- The status of the answer to a refused request. -/
def status : Error → Nat
  | credentials => 401
  | notFound _ => 404
  | conflict _ _ _ => 409
  | noObject | missingAttributes _ | patchOperation _ | patchPath _ | patchFilter _ => 422
  | members _ | active _ | patchValue | paginationTruth _ | paginationNumber _ _ | filter _ => 400
  | configuration _ => 500

/-- The error type that clients tell refusals apart by. -/
def scimType : Error → Option String
  | credentials | notFound _ => none
  | conflict _ _ _ => some "uniqueness"
  | noObject | missingAttributes _ | members _ | active _ | patchValue | paginationTruth _
  | paginationNumber _ _ => some "invalidValue"
  | filter _ | patchFilter _ => some "invalidFilter"
  | patchOperation _ => some "invalidSyntax"
  | patchPath _ => some "invalidPath"
  | configuration _ => some "configuration"

end Error

/-- What goes wrong beneath the service: the store rejects a statement or cannot be reached, a number is
too large for it, an argument does not fit, a value cannot be read, or the result has the wrong shape. -/
inductive Fault
  | store
  | overflow
  | argument
  | value
  | result
  | internal
  deriving DecidableEq, Repr

/-- A request fails by a refusal or by a fault. -/
inductive Failure
  | refused (cause : Error)
  | fault (cause : Fault)
  deriving DecidableEq, Repr

end Roster
