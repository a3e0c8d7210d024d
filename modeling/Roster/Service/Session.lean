import Roster.Store.Write
import Roster.Config.Basic
import Roster.Uuid

/-!
Sessions: how a request works on the store.

A request works on a copy of the store, which becomes the contents of the directory only when it is
committed; a request that fails leaves behind what was committed before. Identifiers that were drawn stay
drawn, and members that were kept stay kept. Listeners are told about a request before it starts and after it has
succeeded; what they find in the directory when they are told is what has been committed until then.
-/

set_option autoImplicit false

namespace Roster

/-- What has happened to the resources of a request. -/
inductive Event
  | retrieved
  | created
  | updated
  | deleted
  deriving DecidableEq, Repr

inductive Subject
  | one (uuid : String)
  | many (uuids : List String)
  deriving DecidableEq, Repr

/-- What listeners are told. -/
inductive Notice
  | before (parameters : Json)
  | after (event : Event) (subject : Subject)
  deriving DecidableEq, Repr

/-- A notice, and what listeners found committed when they were given it. -/
structure Telling where
  notice : Notice
  committed : Store
  deriving DecidableEq

/-- A directory: its store, the number of identifiers drawn, and the members kept in the one list for all
groups, if their schema has one. -/
structure Directory where
  store : Store
  drawn : Nat
  kept : List Json
  deriving DecidableEq

/-- The state of a request: what is committed, the copy it works on, the number of identifiers drawn, the
members kept, and what listeners were told. -/
structure Session where
  committed : Store
  current : Store
  drawn : Nat
  kept : List Json
  told : List Telling
  deriving DecidableEq

/-- A step of a request, which may fail. -/
abbrev Step (α : Type) := ExceptT Failure (StateM Session) α

namespace Step

variable {α : Type}

/-- A step that only computes. -/
def attempt (result : Except Failure α) : Step α :=
  fun session => (result, session)

/-- Refuses the request. -/
def refuse (cause : Error) : Step α :=
  attempt (.error (.refused cause))

/-- A step that may refuse the request. -/
def check (result : Except Error α) : Step α :=
  attempt (result.mapError .refused)

/-- Looks at the working copy. -/
def look (f : Store → Except Failure α) : Step α :=
  fun session => (f session.current, session)

/-- Changes the working copy; a step that fails leaves it. -/
def change (f : Store → Except Failure (α × Store)) : Step α :=
  fun session =>
    match f session.current with
    | .ok (result, store) => (.ok result, { session with current := store })
    | .error failure => (.error failure, session)

/-- Changes the working copy by a step that cannot fail. -/
def modifyStore (f : Store → Store) : Step Unit :=
  change fun s => .ok ((), f s)

/-- Makes the working copy the contents of the directory. -/
def commit : Step Unit :=
  fun session => (.ok (), { session with committed := session.current })

def notify (notice : Notice) : Step Unit :=
  fun session => (.ok (), { session with told := session.told ++ [⟨notice, session.committed⟩] })

def drawUuid : Step String :=
  fun session => (.ok (Uuid.numbered (session.drawn + 1)), { session with drawn := session.drawn + 1 })

end Step

/-- What is left of a request: its result, the directory, and what listeners were told. -/
structure Outcome (α : Type) where
  result : Except Failure α
  directory : Directory
  told : List Telling

/-- The notices that listeners were given. -/
def Outcome.notices {α : Type} (outcome : Outcome α) : List Notice :=
  outcome.told.map Telling.notice

def Directory.run {α : Type} (d : Directory) (step : Step α) : Outcome α :=
  let (result, session) := step.run.run ⟨d.store, d.store, d.drawn, d.kept, []⟩
  ⟨result, ⟨session.committed, session.drawn, session.kept⟩, session.told⟩

/-- What a request depends on besides the store: the configuration and the reading of the clock. -/
structure Context where
  config : Config
  clock : Nat

end Roster
