import Roster.Json.Basic
import Roster.Number.Decimal
import Roster.Number.Integer
import Roster.Text.Quoted

/-!
JSON values in messages.

The literal form quotes texts and writes the three constants with a capital letter; the plain text of a
value is its literal form, except that a text stands for itself without quotes.
-/

set_option autoImplicit false

namespace Roster.Json

open Number (integerText)
open Text (quoted quotedPoints)

mutual

def literal : Json → String
  | .null => "None"
  | .bool true => "True"
  | .bool false => "False"
  | .int n => integerText n
  | .double x => x.text
  | .str s => quoted s
  | .torn points => quotedPoints points
  | .arr items => "[" ++ ", ".intercalate (literalItems items) ++ "]"
  | .obj fields => "\x7b" ++ ", ".intercalate (literalFields fields) ++ "\x7d"

/-- The literal forms of the items of an array. -/
def literalItems : List Json → List String
  | [] => []
  | x :: xs => literal x :: literalItems xs

/-- The literal forms of the fields of an object. -/
def literalFields : List (String × Json) → List String
  | [] => []
  | (k, v) :: fs => (quoted k ++ ": " ++ literal v) :: literalFields fs

end

def text : Json → String
  | .str s => s
  | .torn points => Text.ofPoints points
  | j => literal j

end Roster.Json
