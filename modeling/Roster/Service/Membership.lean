import Roster.Service.Session
import Roster.Members

/-!
Members of groups in requests.

Identifiers are matched with users by the text of the field that identifies members. An identifier that
names no user of the company, or no member where members are to be removed, refuses the request.
-/

set_option autoImplicit false

namespace Roster

open Step

/-- The text that identifies a user as a member. -/
def memberKey (config : Config) (u : Row .user) : Except Failure String :=
  match u.fieldText? config.memberField with
  | some text => .ok text
  | none => .error (.refused (.configuration (.unreadable .user config.memberField)))

/-- The users with texts that identify them. -/
def keyed (config : Config) (users : List (Row .user)) : Except Failure (List (String × Row .user)) :=
  users.mapM fun u => do return (← memberKey config u, u)

/-- The user that each identifier names, or a refusal of the first that names none. Of users with one text
the last is meant. -/
def matchKeys (users : List (String × Row .user)) (identifiers : List Json) :
    Except Failure (List (Row .user)) :=
  identifiers.mapM fun identifier =>
    match users.reverse.lookup identifier.text with
    | some u => .ok u
    | none => .error (.refused (.notFound identifier))

/-- The users of a company that identifiers name. -/
def Store.resolve (s : Store) (config : Config) (owner : Company) (identifiers : List Json) :
    Except Failure (List (Row .user)) :=
  if identifiers.isEmpty then .ok []
  else do
    let found ← s.findMany .user owner config.memberField identifiers
    matchKeys (← keyed config found) identifiers

/-- The members of a group that identifiers name. -/
def Store.resolveMembers (s : Store) (config : Config) (group : Row .group) (identifiers : List Json) :
    Except Failure (List (Row .user)) := do
  matchKeys (← keyed config (s.membersOf group)) identifiers

/-- The members of a group that a filter over the users of the company selects. -/
def Store.matchingMembers (s : Store) (owner : Company) (group : Row .group) (filter : Filter.Expression) :
    Except Failure (List (Row .user)) := do
  let page ← s.query .user owner (some filter) [] 0 none
  let members := s.membersOf group
  return page.items.filter fun u => members.any fun m => m.id == u.id

/-- The users that a list of members names. -/
def listedUsers (ctx : Context) (owner : Company) (members : Json) (expected : String) :
    Step (List (Row .user)) := do
  let identifiers ← check (Members.identifiers members expected)
  look fun s => s.resolve ctx.config owner identifiers

/-- Makes users the members of a group, all of them anew. -/
def replaceMembers (ctx : Context) (group : Row .group) (users : List (Row .user)) : Step Unit :=
  modifyStore fun s => (s.clearMembers group).addMembers ctx.clock group users

end Roster
