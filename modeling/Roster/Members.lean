import Roster.Json.Equality
import Roster.Error

/-!
Lists of members in requests.

A list of members is an array of objects, each with a value that identifies a user. Identifiers that count
as the same are listed once, at their first place.
-/

set_option autoImplicit false

namespace Roster.Members

/-- What a request to replace a group expects. -/
def putExpectation : String :=
  "Invalid PUT request. The 'members' attribute of the request must exist and be an array of objects " ++
    "with a 'value'."

def patchExpectation : String :=
  "Invalid PATCH request. The 'value' of a members operation must be an array of objects with a 'value'."

/-- What a request to create a group expects. -/
def postExpectation : String :=
  "Invalid POST request. The 'members' attribute of the request must be an array of objects with a 'value'."

def identifier? (member : Json) : Option Json :=
  match member.field? "value" with
  | some .null => none
  | value => value

/-- Adds an identifier unless one that counts as the same is listed. -/
def addIdentifier (listed : List Json) (identifier : Json) : List Json :=
  if listed.any (Json.same identifier) then listed else listed ++ [identifier]

/-- The distinct identifiers of a list of members. -/
def identifiers? : Json → Option (List Json)
  | .arr members => (members.mapM identifier?).map fun all => all.foldl addIdentifier []
  | _ => none

/-- The distinct identifiers of a list of members, or a refusal with what was expected. -/
def identifiers (members : Json) (expected : String) : Except Error (List Json) :=
  match identifiers? members with
  | some listed => .ok listed
  | none => .error (.members expected)

end Roster.Members
