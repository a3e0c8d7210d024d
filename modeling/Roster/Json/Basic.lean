import Roster.Number.Double

/-!
JSON values.

Integers are unbounded and stay apart from doubles. A text that has half of a pair of units in it without the
other half is no sequence of characters and stays apart from the texts that are. An object keeps its fields in the
order in which they were written; a field written again keeps its place and takes the new value.
-/

set_option autoImplicit false

namespace Roster

open Number (Double)

/-- A JSON value. -/
inductive Json
  | null
  | bool (b : Bool)
  | int (n : Int)
  | double (x : Double)
  | str (s : String)
  | torn (codePoints : List Nat)
  | arr (items : List Json)
  | obj (fields : List (String × Json))
  deriving Repr, Inhabited

namespace Json

mutual

/-- Decides whether two values are written the same way. -/
def decEq : (a b : Json) → Decidable (a = b)
  | .null, .null => isTrue rfl
  | .bool a, .bool b => decidable_of_iff (a = b) (by simp)
  | .int a, .int b => decidable_of_iff (a = b) (by simp)
  | .double a, .double b => decidable_of_iff (a = b) (by simp)
  | .str a, .str b => decidable_of_iff (a = b) (by simp)
  | .torn a, .torn b => decidable_of_iff (a = b) (by simp)
  | .arr a, .arr b =>
    have := decEqItems a b
    decidable_of_iff (a = b) (by simp)
  | .obj a, .obj b =>
    have := decEqFields a b
    decidable_of_iff (a = b) (by simp)
  | .null, .bool _ | .null, .int _ | .null, .double _ | .null, .str _ | .null, .torn _ | .null, .arr _
  | .null, .obj _ | .bool _, .null | .bool _, .int _ | .bool _, .double _ | .bool _, .str _
  | .bool _, .torn _ | .bool _, .arr _ | .bool _, .obj _ | .int _, .null | .int _, .bool _
  | .int _, .double _ | .int _, .str _ | .int _, .torn _ | .int _, .arr _ | .int _, .obj _
  | .double _, .null | .double _, .bool _ | .double _, .int _ | .double _, .str _ | .double _, .torn _
  | .double _, .arr _ | .double _, .obj _ | .str _, .null | .str _, .bool _ | .str _, .int _
  | .str _, .double _ | .str _, .torn _ | .str _, .arr _ | .str _, .obj _ | .torn _, .null
  | .torn _, .bool _ | .torn _, .int _ | .torn _, .double _ | .torn _, .str _ | .torn _, .arr _
  | .torn _, .obj _ | .arr _, .null | .arr _, .bool _ | .arr _, .int _ | .arr _, .double _ | .arr _, .str _
  | .arr _, .torn _ | .arr _, .obj _ | .obj _, .null | .obj _, .bool _ | .obj _, .int _ | .obj _, .double _
  | .obj _, .str _ | .obj _, .torn _ | .obj _, .arr _ => isFalse (by simp)

/-- Decides equality of the items of two arrays. -/
def decEqItems : (a b : List Json) → Decidable (a = b)
  | [], [] => isTrue rfl
  | x :: xs, y :: ys =>
    have := decEq x y
    have := decEqItems xs ys
    decidable_of_iff (x = y ∧ xs = ys) (by simp)
  | [], _ :: _ | _ :: _, [] => isFalse (by simp)

/-- Decides equality of the fields of two objects. -/
def decEqFields : (a b : List (String × Json)) → Decidable (a = b)
  | [], [] => isTrue rfl
  | (k, x) :: xs, (l, y) :: ys =>
    have := decEq x y
    have := decEqFields xs ys
    decidable_of_iff ((k = l ∧ x = y) ∧ xs = ys) (by simp)
  | [], _ :: _ | _ :: _, [] => isFalse (by simp)

end

instance : DecidableEq Json := decEq

/-- The value of a field; what is no object has none. -/
def field? (name : String) : Json → Option Json
  | .obj fields => fields.lookup name
  | _ => none

/-- The value of a field, where null stands for an absent one. -/
def fieldOrNull (name : String) (j : Json) : Json :=
  (j.field? name).getD .null

def isObject : Json → Bool
  | .obj _ => true
  | _ => false

def isNull : Json → Bool
  | .null => true
  | _ => false

end Json

/-- Writes a field: in its place when the name is known, else at the end. -/
def setField {α : Type} (name : String) (value : α) : List (String × α) → List (String × α)
  | [] => [(name, value)]
  | (k, v) :: rest => if k = name then (k, value) :: rest else (k, v) :: setField name value rest

/-- The fields of two objects together; the second wins where both have a field, and the places of the
first are kept. -/
def mergeFields {α : Type} (base later : List (String × α)) : List (String × α) :=
  later.foldl (fun fields f => setField f.1 f.2 fields) base

end Roster
