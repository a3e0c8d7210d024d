import Roster.Json.Display
import Roster.Kind

/-!
Traits: what every resource of a kind has besides its columns.

A schema may refer to a trait by its name. Some traits have a fixed value; the others are no data, so that a
resource has them but no answer can show them. A new resource may be given values under the names of traits:
the store knows nothing of them, and they count only for the request that creates the resource.
-/

set_option autoImplicit false

namespace Roster

/-- A trait has a value and its plain text, or cannot be shown. -/
inductive Trait
  | shown (value : Json) (text : String)
  | hidden
  deriving DecidableEq, Repr

namespace Trait

def ofText (s : String) : Trait := shown (.str s) s

/-- The name of the table of a kind. -/
def tableName : Kind → String
  | .user => "users"
  | .group => "groups"

def description : Kind → String
  | .user => "Пользователь каталога"
  | .group => "Группа каталога"

def valued (k : Kind) : List (String × Trait) := [
  ("__tablename__", ofText (tableName k)),
  ("__doc__", ofText (description k)),
  ("__module__", ofText "scim_directory.models.db"),
  ("_is_protocol", shown (.bool false) "False"),
  ("__slots__", shown (.arr []) "()"),
  ("__parameters__", shown (.arr []) "()")]

/-- The names of the traits that cannot be shown. -/
def hiddenNames : List String := [
  "registry", "metadata", "read_field", "_sa_instance_state", "_sa_class_manager", "_sa_registry",
  "__mapper__", "__table__", "__annotations__", "__class__", "__dict__", "__weakref__", "__orig_bases__",
  "__class_getitem__", "__init__", "__repr__", "__eq__", "__hash__", "__dir__", "__delattr__", "__format__",
  "__ge__", "__gt__", "__le__", "__lt__", "__ne__", "__new__", "__getattribute__", "__getstate__",
  "__init_subclass__", "__reduce__", "__reduce_ex__", "__setattr__", "__sizeof__", "__str__",
  "__subclasshook__"]

/-- Names that belong to a kind as such: a new resource may be given values under them, too, but no resource
has them otherwise. -/
def kindNames : List String := [
  "__name__", "__qualname__", "mro", "__mro__", "__bases__", "__base__", "__basicsize__", "__dictoffset__",
  "__flags__", "__itemsize__", "__text_signature__", "__weakrefoffset__", "__subclasses__",
  "__instancecheck__", "__subclasscheck__", "__prepare__", "__call__", "__or__", "__ror__"]

def ofName? (k : Kind) (name : String) : Option Trait :=
  match (valued k).lookup name with
  | some trait => some trait
  | none => if hiddenNames.contains name then some hidden else none

/-- The value of a trait in a rendered resource, null for what cannot be shown. -/
def json : Trait → Json
  | shown value _ => value
  | hidden => .null

/-- The plain text of a trait; what cannot be shown has one that is no identifier. -/
def text : Trait → String
  | shown _ text => text
  | hidden => "<hidden>"

/-- A new resource may be given a value under the name. -/
def accepts (k : Kind) (name : String) : Bool :=
  (ofName? k name).isSome || kindNames.contains name

end Trait

end Roster
