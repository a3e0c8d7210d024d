import Roster.Error

/-!
The status of a resource in a request.
-/

set_option autoImplicit false

namespace Roster

/-- The status that a request asks for: none for null, and otherwise a truth value, its name, or the
integer one or zero. -/
def parseActive : Json → Except Error (Option Bool)
  | .null => .ok none
  | .bool b => .ok (some b)
  | .int 1 => .ok (some true)
  | .int 0 => .ok (some false)
  | .str "true" => .ok (some true)
  | .str "false" => .ok (some false)
  | value => .error (.active value)

end Roster
