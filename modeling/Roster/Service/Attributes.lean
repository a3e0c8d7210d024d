import Roster.Service.Session
import Roster.Schema.Extract

/-!
Attributes of resources in requests.

A complete resource has to have all required attributes, none of them empty. Where the natural key is
unique, an attribute cannot give a resource the key of another.
-/

set_option autoImplicit false

namespace Roster

open Step

variable {k : Kind}

/-- A value that leaves a required attribute missing. -/
def isMissing (value : Option Json) : Bool :=
  match value with
  | none | some .null | some (.str "") => true
  | some _ => false

/-- The attributes of a complete resource. -/
def ResourceConfig.complete (r : ResourceConfig) (payload : Json) : Except Error Schema.Values :=
  if payload.isObject then
    let attributes := r.mutableSchema.extract payload
    match r.required.filter fun name => isMissing (attributes.lookup name) with
    | [] => .ok attributes
    | missing => .error (.missingAttributes missing)
  else .error .noObject

/-- The resource of a company with an identifier. -/
def Store.get (s : Store) (config : Config) (k : Kind) (owner : Company) (identifier : Json) :
    Except Failure (Row k) := do
  match ← s.findBy k owner (config.resource k).lookupField identifier false with
  | some r => return r
  | none => throw (.refused (.notFound identifier))

/-- Another resource of the company has the natural key that the attributes give. -/
def Store.checkKey (s : Store) (config : Config) (owner : Company) (r : Row k)
    (attributes : Schema.Values) : Except Failure Unit := do
  let resource := config.resource k
  match attributes.lookup resource.naturalKey with
  | none | some .null => return ()
  | some value =>
    if resource.uniqueKey then
      match ← s.findBy k owner resource.naturalKey value resource.ignoreCase with
      | some other =>
        if other.id != r.id then throw (.refused (.conflict resource.name resource.naturalKey value))
      | none => return ()

/-- Writes attributes of a resource after the check of its natural key. -/
def updateAttributes (ctx : Context) (owner : Company) (r : Row k) (attributes : Schema.Values) :
    Step (Row k) :=
  change fun s => do
    s.checkKey ctx.config owner r attributes
    s.update ctx.clock r attributes

/-- Archives or restores a resource if a status is asked for. -/
def applyStatus (ctx : Context) (r : Row k) : Option Bool → Step (Row k)
  | none => return r
  | some active => change fun s => s.setActive ctx.clock r active

end Roster
