import Roster.Config.WholeNumber
import Roster.Text.Lower

/-!
Settings of a directory.

Settings come from named values or from the environment, where they are texts. A whole number may be given
as a number, a truth value or its text; a truth value as such, as one or zero, or as one of twelve words.
Unknown names are ignored, and what does not fit makes the settings invalid. One more setting is never given: how
deeply calls may be nested where the path of an operation is followed, which is up to the host.
-/

set_option autoImplicit false

namespace Roster

open Text (lowerPlain)

structure Settings where
  databaseUrl : String := "sqlite+aiosqlite:///./scim_directory.db"
  databaseEcho : Bool := false
  createTables : Bool := true
  serverHost : String := "0.0.0.0"
  serverPort : Int := 8000
  pathPrefix : String := "/scim/v2"
  logLevel : String := "INFO"
  corsOrigins : String := "*"
  defaultPageSize : Int := 100
  maxPageSize : Option Int := some 1000
  usersListOrder : String := "id"
  groupsListOrder : String := "id"
  userPreventUpdate : Bool := false
  groupPreventUpdate : Bool := false
  customUserAttributes : List (String × Json) := []
  atomicPatch : Bool := true
  /-- A host that nests at most a thousand calls has this many left in a request for a PATCH. -/
  room : Nat := 961

namespace Settings

/-- Settings cannot be read, are nested beyond the reader, or a value does not fit its setting. -/
inductive Invalid
  | unreadable
  | tooDeep
  | unfit
  deriving DecidableEq, Repr

/-- The whole number that a double gives: it has no other part, and its amount has a place in 64 bits. -/
def wholeNumber? (x : Number.Double) : Option Int :=
  x.truncate?.bind fun n =>
    if Number.Value.ofInt n == x.value && Number.minInt64 < n && n ≤ Number.maxInt64 then some n else none

def integer? : Json → Option Int
  | .int n => some n
  | .bool b => some (if b then 1 else 0)
  | .double x => wholeNumber? x
  | .str s => WholeNumber.ofText? s
  | _ => none

def truthWord? (s : String) : Option Bool :=
  let word := String.ofList (lowerPlain s.toList)
  if ["true", "1", "yes", "on", "t", "y"].contains word then some true
  else if ["false", "0", "no", "off", "f", "n"].contains word then some false
  else none

def truth? : Json → Option Bool
  | .bool b => some b
  | .str s => truthWord? s
  | value =>
    match integer? value with
    | some 1 => some true
    | some 0 => some false
    | _ => none

def text? : Json → Option String
  | .str s => some s
  | _ => none

def attributes? : Json → Option (List (String × Json))
  | .obj fields => some fields
  | _ => none

/-- The whole number, or none for null. -/
def optionalInteger? : Json → Option (Option Int)
  | .null => some none
  | value => (integer? value).map some

/-- The name in lower case; settings are known in any case. -/
def plainName (name : String) : String :=
  String.ofList (lowerPlain name.toList)

/-- One setting: the first value that is named, if it fits, or the default. -/
def given {α : Type} (fields : List (String × Json)) (name : String) (read : Json → Option α)
    (default : α) : Option α :=
  match fields.find? fun field => plainName field.1 == name with
  | none => some default
  | some (_, value) => read value

/-- The settings that named values give; a setting that is not named has its default. -/
def ofFields? (fields : List (String × Json)) : Option Settings := do
  let d : Settings := {}
  return {
    databaseUrl := ← given fields "database_url" text? d.databaseUrl
    databaseEcho := ← given fields "database_echo" truth? d.databaseEcho
    createTables := ← given fields "create_tables" truth? d.createTables
    serverHost := ← given fields "server_host" text? d.serverHost
    serverPort := ← given fields "server_port" integer? d.serverPort
    pathPrefix := ← given fields "scim_path_prefix" text? d.pathPrefix
    logLevel := ← given fields "log_level" text? d.logLevel
    corsOrigins := ← given fields "cors_origins" text? d.corsOrigins
    defaultPageSize := ← given fields "default_page_size" integer? d.defaultPageSize
    maxPageSize := ← given fields "max_page_size" optionalInteger? d.maxPageSize
    usersListOrder := ← given fields "scim_users_list_order" text? d.usersListOrder
    groupsListOrder := ← given fields "scim_groups_list_order" text? d.groupsListOrder
    userPreventUpdate := ← given fields "scim_user_prevent_update_on_create" truth? d.userPreventUpdate
    groupPreventUpdate := ← given fields "scim_group_prevent_update_on_create" truth? d.groupPreventUpdate
    customUserAttributes := ← given fields "custom_user_attributes" attributes? d.customUserAttributes
    atomicPatch := ← given fields "atomic_patch" truth? d.atomicPatch }

/-- A character in upper case; of the letters beyond ASCII those are known that become letters of ASCII. -/
def upperChar (c : Char) : List Char :=
  if c == 'ı' then ['I']
  else if c == 'ſ' then ['S']
  else if c == 'ﬅ' || c == 'ﬆ' then ['S', 'T']
  else [c.toUpper]

def logLevels : List String :=
  ["CRITICAL", "FATAL", "ERROR", "WARNING", "WARN", "INFO", "DEBUG", "NOTSET", "BASIC_FORMAT", "_STYLES"]

/-- The level of the log is one that is known, in any case. -/
def hasLogLevel (s : Settings) : Bool :=
  logLevels.contains (String.ofList (s.logLevel.toList.flatMap upperChar))

def fields (s : Settings) : List (String × Json) := [
  ("database_url", .str s.databaseUrl),
  ("database_echo", .bool s.databaseEcho),
  ("create_tables", .bool s.createTables),
  ("server_host", .str s.serverHost),
  ("server_port", .int s.serverPort),
  ("scim_path_prefix", .str s.pathPrefix),
  ("log_level", .str s.logLevel),
  ("cors_origins", .str s.corsOrigins),
  ("default_page_size", .int s.defaultPageSize),
  ("max_page_size", (s.maxPageSize.map Json.int).getD .null),
  ("scim_users_list_order", .str s.usersListOrder),
  ("scim_groups_list_order", .str s.groupsListOrder),
  ("scim_user_prevent_update_on_create", .bool s.userPreventUpdate),
  ("scim_group_prevent_update_on_create", .bool s.groupPreventUpdate),
  ("custom_user_attributes", .obj s.customUserAttributes),
  ("atomic_patch", .bool s.atomicPatch)]

/-- The value of a variable: the custom attributes are a JSON document, where null stands for no value, and
all others are texts. -/
def ofVariable (name value : String) : Except Invalid (Option Json) :=
  if name = "custom_user_attributes" then
    match Json.readWithin Json.maxLevels value.toList with
    | .ok .null => .ok none
    | .ok document => .ok (some document)
    | .error .tooDeep => .error .tooDeep
    | .error _ => .error .unreadable
  else .ok (some (.str value))

/-- The variables of an environment by their names in lower case; of two with one name the last counts. -/
def named (environment : List (String × String)) : List (String × String) :=
  environment.foldl (fun done v => setField (plainName v.1) v.2 done) []

def ofEnvironment (environment : List (String × String)) : Except Invalid Settings := do
  let values ← (named environment).mapM fun (name, value) => do
    return (← ofVariable name value).map fun value => (name, value)
  match ofFields? (values.filterMap id) with
  | some settings => return settings
  | none => throw .unfit

end Settings

end Roster
