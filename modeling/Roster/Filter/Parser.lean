import Roster.Filter.Basic
import Roster.Text.Lower

/-!
Reading filters.

A filter is an attribute, a comparison and a value, separated by blanks; the value is all the rest. A value
between double quotes loses them, and the escapes inside are undone: first every quote after a backslash,
then every pair of backslashes.
-/

set_option autoImplicit false

namespace Roster.Filter

open Text (trim firstWord afterFirst lower)

/-- Replaces every pair of two characters by one character, from left to right. -/
def replacePairs (first second new : Char) : List Char → List Char
  | c :: d :: rest =>
    if c = first ∧ d = second then new :: replacePairs first second new rest
    else c :: replacePairs first second new (d :: rest)
  | s => s

/-- What stands between the double quotes around a text, if they are there. -/
def unquote? : List Char → Option (List Char)
  | '"' :: rest =>
    if rest.getLast? = some '"' then some rest.dropLast else none
  | _ => none

def literal (value : List Char) : List Char :=
  match unquote? value with
  | some inner => replacePairs '\\' '\\' '\\' (replacePairs '\\' '"' '"' inner)
  | none => value

structure Parts where
  name : List Char
  operator : List Char
  value : List Char
  deriving DecidableEq, Repr

/-- Splits a text at its first two stretches of blanks; every part has to be there. -/
def split? (s : List Char) : Option Parts :=
  let s := trim s
  let rest := afterFirst s
  let value := afterFirst rest
  if value.isEmpty then none else some ⟨firstWord s, firstWord rest, value⟩

/-- The expression that a text writes, given the attributes that may be used and their columns. -/
def parse (attributes : List (String × String)) (text : String) : Except Error Expression :=
  if (trim text.toList).isEmpty then .error .empty
  else
    match split? text.toList with
    | none => .error (.malformed text)
    | some parts =>
      let name := String.ofList parts.name
      match attributes.lookup name with
      | none => .error (.unsupportedAttribute name)
      | some column =>
        match Operator.ofName? (String.ofList (lower parts.operator)) with
        | none => .error (.unsupportedOperator (String.ofList parts.operator))
        | some operator => .ok ⟨column, operator, String.ofList (literal parts.value)⟩

end Roster.Filter
