import Roster.Number.Integer

/-!
Public identifiers.

Identifiers are drawn one after the other and carry their number in the last twelve digits.
-/

set_option autoImplicit false

namespace Roster.Uuid

def numbered (n : Nat) : String :=
  String.ofList ("00000000-0000-4000-8000-".toList ++ Number.padded 12 n)

end Roster.Uuid
