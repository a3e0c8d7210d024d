import Roster.Store.Cell

/-!
Bringing a value to the type of the column that it is compared with.

A value that cannot be brought to the type matches no row. Text columns take the plain text of every value.
-/

set_option autoImplicit false

namespace Roster

open Text (trim lowerPlain)

/-- The value to compare with, if a row can match at all. -/
def coerce : ColumnType → Json → Option Json
  | .truth, .bool b => some (.bool b)
  | .truth, value =>
    let word := String.ofList (lowerPlain (trim value.text.toList))
    if word == "true" || word == "1" then some (.bool true)
    else if word == "false" || word == "0" then some (.bool false)
    else none
  | .integer, .int n => some (.int n)
  | .integer, value => (Number.readInteger? (trim value.text.toList)).map .int
  | .text, .torn points => some (.torn points)
  | .text, value => some (.str value.text)
  | .time, value => some value

end Roster
