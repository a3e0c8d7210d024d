import Roster.Kind
import Roster.Store.Cell
import Roster.Store.Trait

/-!
Rows of users and groups.

A row has a number, a public identifier, the company that it belongs to, the attributes of its kind, and
three times. Its columns are known by name; a row is determined by what its columns say, so that a row with
some columns changed is again made from its columns.
-/

set_option autoImplicit false

namespace Roster

/-- The attributes of a user or a group. Only the alternate address of a user may be missing. -/
inductive Profile : Kind → Type
  | user (firstName lastName email : String) (alternateEmail : Option String) : Profile .user
  | group (displayName email : String) : Profile .group
  deriving DecidableEq, Repr

structure Row (k : Kind) where
  id : Int
  uuid : String
  company : Cell
  profile : Profile k
  archived : Option Nat
  created : Nat
  updated : Nat
  deriving DecidableEq, Repr

inductive Column : Kind → Type
  | id {k : Kind} : Column k
  | uuid {k : Kind} : Column k
  | company {k : Kind} : Column k
  | firstName : Column .user
  | lastName : Column .user
  | displayName : Column .group
  | email {k : Kind} : Column k
  | alternateEmail : Column .user
  | archived {k : Kind} : Column k
  | created {k : Kind} : Column k
  | updated {k : Kind} : Column k
  deriving DecidableEq, Repr

namespace Column

def all : (k : Kind) → List (Column k)
  | .user => [id, uuid, company, firstName, lastName, email, alternateEmail, archived, created, updated]
  | .group => [id, uuid, company, displayName, email, archived, created, updated]

def name {k : Kind} : Column k → String
  | id => "id"
  | uuid => "uuid"
  | company => "company_id"
  | firstName => "first_name"
  | lastName => "last_name"
  | displayName => "display_name"
  | email => "email"
  | alternateEmail => "alternate_email"
  | archived => "archived_at"
  | created => "created_at"
  | updated => "updated_at"

def type {k : Kind} : Column k → ColumnType
  | id | company => .integer
  | uuid | firstName | lastName | displayName | email | alternateEmail => .text
  | archived | created | updated => .time

def ofName? (k : Kind) (s : String) : Option (Column k) :=
  (all k).find? fun c => c.name == s

theorem mem_all {k : Kind} (c : Column k) : c ∈ all k := by
  cases k <;> cases c <;> decide

theorem ofName?_name {k : Kind} (c : Column k) : ofName? k c.name = some c := by
  cases k <;> cases c <;> decide

theorem name_of_ofName? {k : Kind} {s : String} {c : Column k} (h : ofName? k s = some c) :
    c.name = s := by
  have := List.find?_some h
  simpa using this

end Column

/-- A cell that must hold a text. -/
def Cell.text? : Cell → Option String
  | .text s => some s
  | _ => none

/-- A cell that must hold an integer. -/
def Cell.integer? : Cell → Option Int
  | .integer n => some n
  | _ => none

/-- A cell that must hold a reading of the clock. -/
def Cell.time? : Cell → Option Nat
  | .time t => some t
  | _ => none

/-- A cell that holds nothing or passes a test. -/
def Cell.optional? {α : Type} (read : Cell → Option α) (c : Cell) : Option (Option α) :=
  if c = .null then some none else (read c).map some

/-- The attributes that the columns say, if every required one is there. -/
def Profile.make : (k : Kind) → (Column k → Cell) → Option (Profile k)
  | .user, get => do
    return .user (← (get .firstName).text?) (← (get .lastName).text?) (← (get .email).text?)
      (← (get .alternateEmail).optional? Cell.text?)
  | .group, get => do
    return .group (← (get .displayName).text?) (← (get .email).text?)

namespace Row

variable {k : Kind}

/-- The row whose columns say what is given, if every required one is there. -/
def make (get : Column k → Cell) : Option (Row k) := do
  let company := get .company
  if company = .null then none
  return {
    id := ← (get .id).integer?
    uuid := ← (get .uuid).text?
    company
    profile := ← Profile.make k get
    archived := ← (get .archived).optional? Cell.time?
    created := ← (get .created).time?
    updated := ← (get .updated).time? }

/-- What a column of a row says. -/
def get (r : Row k) : Column k → Cell
  | .id => .integer r.id
  | .uuid => .text r.uuid
  | .company => r.company
  | .firstName => match r.profile with | .user firstName _ _ _ => .text firstName
  | .lastName => match r.profile with | .user _ lastName _ _ => .text lastName
  | .displayName => match r.profile with | .group displayName _ => .text displayName
  | .email => match r.profile with
    | .user _ _ email _ => .text email
    | .group _ email => .text email
  | .alternateEmail => match r.profile with
    | .user _ _ _ none => .null
    | .user _ _ _ (some email) => .text email
  | .archived => (r.archived.map Cell.time).getD .null
  | .created => .time r.created
  | .updated => .time r.updated

/-- A row is active unless it has been archived. -/
def isActive (r : Row k) : Bool :=
  r.archived.isNone

/-- The value of a field for the schema: a column, the status, or a trait. -/
def field? (r : Row k) (name : String) : Option Json :=
  if name = "active" then some (.bool r.isActive)
  else
    match Column.ofName? k name with
    | some c => some (r.get c).json
    | none => (Trait.ofName? k name).map Trait.json

/-- The value of a field as a plain text. -/
def fieldText? (r : Row k) (name : String) : Option String :=
  if name = "active" then some (Json.bool r.isActive).text
  else
    match Column.ofName? k name with
    | some c => some (r.get c).display
    | none => (Trait.ofName? k name).map Trait.text

end Row

end Roster
