/-!
The two kinds of resources of a directory.
-/

set_option autoImplicit false

namespace Roster

/-- A resource is a user or a group of users. -/
inductive Kind
  | user
  | group
  deriving DecidableEq, Repr

def Kind.name : Kind → String
  | .user => "User"
  | .group => "Group"

end Roster
