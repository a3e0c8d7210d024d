import Roster.Json.Basic
import Roster.Text.CodePoint
import Roster.Text.Lower

/-!
Operations of a PATCH request.

An operation has a name, which is known in any case, a path that may be missing, and a value. A value of
null is not the same as none. A path may end in a filter in brackets.
-/

set_option autoImplicit false

namespace Roster

structure PatchOperation where
  op : String
  path : Option String
  value : Option Json
  deriving DecidableEq, Repr

namespace PatchOperation

/-- The name of an operation in lower case. -/
def name (o : PatchOperation) : String :=
  String.ofList (Text.lowerPlain o.op.toList)

/-- The value, where null stands for none. -/
def valueOrNull (o : PatchOperation) : Json :=
  o.value.getD .null

/-- An operation as listeners see it. -/
def json (o : PatchOperation) : Json :=
  .obj [("op", .str o.op), ("path", (o.path.map Json.str).getD .null), ("value", o.valueOrNull)]

/-- The text that a value gives for the name or the path of an operation; in a torn text the halves of pairs are
replaced, as they are in the names of fields. -/
def wording? : Json → Option String
  | .str s => some s
  | .torn points => some (Text.ofPoints points)
  | _ => none

/-- Reads an operation: an object with a text as its name and a text or nothing as its path. -/
def ofJson? (j : Json) : Option PatchOperation := do
  if !j.isObject then none
  let op ← (j.field? "op").bind wording?
  let path ← if (j.fieldOrNull "path").isNull then pure none else (wording? (j.fieldOrNull "path")).map some
  return ⟨op, path, j.field? "value"⟩

end PatchOperation

/-- A path with a filter in brackets and what follows them. -/
structure BracketPath where
  name : List Char
  filter : List Char
  suffix : List Char
  deriving DecidableEq, Repr

namespace BracketPath

def isBracket (c : Char) : Bool :=
  c == '[' || c == ']'

/-- Reads a path: a name without brackets, a filter without brackets in one pair of them, and a suffix on
one line. A line end after all that is ignored. -/
def ofPath? (path : List Char) : Option BracketPath :=
  let plain := fun s : List Char => s.takeWhile fun c => !isBracket c
  let rest := fun s : List Char => s.dropWhile fun c => !isBracket c
  match rest path with
  | '[' :: inner =>
    match rest inner with
    | ']' :: after =>
      let suffix := after.takeWhile (· != '\n')
      let remainder := after.dropWhile (· != '\n')
      if (plain path).isEmpty then none
      else if remainder.isEmpty || remainder == ['\n'] then some ⟨plain path, plain inner, suffix⟩
      else none
    | _ => none
  | _ => none

end BracketPath

end Roster
