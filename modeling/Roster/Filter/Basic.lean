import Roster.Text.Quoted

/-!
Filter expressions: one comparison of a column with a literal.
-/

set_option autoImplicit false

namespace Roster.Filter

inductive Operator
  | eq
  | ne
  | co
  | sw
  | ew
  | gt
  | ge
  | lt
  | le
  deriving DecidableEq, Repr

namespace Operator

def name : Operator → String
  | eq => "eq"
  | ne => "ne"
  | co => "co"
  | sw => "sw"
  | ew => "ew"
  | gt => "gt"
  | ge => "ge"
  | lt => "lt"
  | le => "le"

/-- All comparisons: equal, not equal, contains, starts with, ends with, and the four of order. -/
def all : List Operator := [eq, ne, co, sw, ew, gt, ge, lt, le]

def ofName? (s : String) : Option Operator :=
  all.find? fun o => o.name == s

theorem ofName?_name (o : Operator) : ofName? o.name = some o := by
  cases o <;> decide

end Operator

/-- A comparison of a column with a literal. -/
structure Expression where
  column : String
  operator : Operator
  literal : String
  deriving DecidableEq, Repr

/-- The text of an expression, its literal quoted as in messages. -/
def Expression.text (e : Expression) : String :=
  e.column ++ " " ++ e.operator.name ++ " " ++ Text.quoted e.literal

/-- Why a text is no filter. -/
inductive Error
  | empty
  | malformed (text : String)
  | unsupportedOperator (token : String)
  | unsupportedAttribute (name : String)
  deriving DecidableEq, Repr

def Error.message : Error → String
  | .empty => "Empty filter string"
  | .malformed text => "Invalid filter '" ++ text ++ "'. Expected 'attribute operator value'"
  | .unsupportedOperator token => "Unsupported filter operator: " ++ token
  | .unsupportedAttribute name => "Unsupported filter attribute: " ++ name

end Roster.Filter
