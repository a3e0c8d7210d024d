import Roster.Error
import Roster.Text.Lower
import Roster.Text.Split

/-!
The order of lists, written as `created_at:desc,id`.

Parts are separated by commas, and blank parts are skipped. A part is a column, or a column and a direction
after the first colon; no direction means ascending.
-/

set_option autoImplicit false

namespace Roster

structure OrderBy where
  column : String
  descending : Bool
  deriving DecidableEq, Repr

namespace ListOrder

open Text (trim lower splitAt)

/-- What stands after the first colon of a part. -/
def afterColon (part : List Char) : List Char :=
  (part.dropWhile (· != ':')).drop 1

/-- One part of an order; `whole` is the order for messages. -/
def parsePart (whole : String) (part : List Char) : Except ConfigurationError OrderBy :=
  let column := String.ofList (trim (part.takeWhile (· != ':')))
  match lower (trim (afterColon part)) with
  | [] | ['a', 's', 'c'] => .ok ⟨column, false⟩
  | ['d', 'e', 's', 'c'] => .ok ⟨column, true⟩
  | direction => .error (.direction (String.ofList direction) whole)

def parse (text : String) : Except ConfigurationError (List OrderBy) := do
  let parts := ((splitAt ',' text.toList).map trim).filter fun part => !part.isEmpty
  let order ← parts.mapM (parsePart text)
  if order.isEmpty then .error .noOrder else .ok order

end ListOrder

end Roster
