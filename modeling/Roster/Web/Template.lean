import Roster.Number.Integer

/-!
Templates of paths.

A template is a path in which names in braces are parameters. A parameter has a form, and a template
accepts the paths that have a part of its form in the place of every parameter. Where parts can be cut in
several ways, every parameter from the left takes as much as it can; a line end after all is ignored.
-/

set_option autoImplicit false

namespace Roster

inductive Form
  | segment
  | path
  | integer
  | decimal
  | uuid
  deriving DecidableEq, Repr

namespace Form

/-- The form with a name; without a name a parameter is a segment. -/
def ofName? : String → Option Form
  | "" | "str" => some segment
  | "path" => some path
  | "int" => some integer
  | "float" => some decimal
  | "uuid" => some uuid
  | _ => none

/-- The lengths from a greatest one down to a least one. -/
def downTo (least : Nat) : Nat → List Nat
  | 0 => if least = 0 then [0] else []
  | n + 1 => if least ≤ n + 1 then (n + 1) :: downTo least n else []

/-- The number of characters at the front of a text that pass a test. -/
def run (test : Char → Bool) (s : List Char) : Nat :=
  (s.takeWhile test).length

/-- The lengths of the decimal numbers at the front of a text, longest first. -/
def decimalLengths (s : List Char) : List Nat :=
  let whole := run Char.isDigit s
  let fractions := match s.drop whole with
    | '.' :: rest => (downTo 1 (run Char.isDigit rest)).map (whole + 1 + ·)
    | _ => []
  if whole = 0 then [] else fractions ++ downTo 1 whole

def isHex (c : Char) : Bool :=
  c.isDigit || ('a' ≤ c && c ≤ 'f') || ('A' ≤ c && c ≤ 'F')

/-- The length of groups of hexadecimal digits at the front of a text, with or without a hyphen between
two groups. -/
def groupsLength? : List Nat → List Char → Option Nat
  | [], _ => some 0
  | [n], s => if n ≤ run isHex s then some n else none
  | n :: sizes, s =>
    if n ≤ run isHex s then
      match s.drop n with
      | '-' :: rest => (groupsLength? sizes rest).map (n + 1 + ·)
      | rest => (groupsLength? sizes rest).map (n + ·)
    else none

/-- The lengths of the parts of a form at the front of a text, in the order in which they are tried. -/
def lengths (form : Form) (s : List Char) : List Nat :=
  match form with
  | segment => downTo 1 (run (· != '/') s)
  | path => downTo 0 (run (· != '\n') s)
  | integer => downTo 1 (run Char.isDigit s)
  | decimal => decimalLengths s
  | uuid => (groupsLength? [8, 4, 4, 4, 12] s).toList

end Form

/-- A piece of a template: a character that stands for itself, or a parameter. -/
inductive Piece
  | literal (c : Char)
  | parameter (name : List Char) (form : Form)
  deriving DecidableEq, Repr

abbrev Template := List Piece

namespace Template

/-- A letter, a digit or an underscore. -/
def isNameChar (c : Char) : Bool :=
  c.isAlphanum || c == '_'

/-- The name at the front of a text; it starts with no digit. -/
def nameAt? (s : List Char) : Option (List Char) :=
  match s.takeWhile isNameChar with
  | [] => none
  | c :: rest => if c.isDigit then none else some (c :: rest)

/-- The parameter that follows an opening brace: its name, the name of its form, and the characters up to
the closing brace, which are counted. -/
def parameter? (s : List Char) : Option (List Char × String × Nat) := do
  let name ← nameAt? s
  match s.drop name.length with
  | '\x7d' :: _ => return (name, "", name.length + 1)
  | ':' :: rest =>
    let form ← nameAt? rest
    if rest[form.length]? = some '\x7d' then
      return (name, String.ofList form, name.length + form.length + 2)
    else none
  | _ => none

/-- The pieces of a text, unless a parameter has an unknown form. A brace that opens no parameter stands
for itself. -/
def pieces? : List Char → Option Template
  | [] => some []
  | c :: rest =>
    match if c = '\x7b' then parameter? rest else none with
    | some (name, form, count) => do
      let form ← Form.ofName? form
      return .parameter name form :: (← pieces? (rest.drop count))
    | none => (pieces? rest).map (.literal c :: ·)
termination_by s => s.length
decreasing_by all_goals simp only [List.length_drop, List.length_cons]; omega

def names (t : Template) : List (List Char) :=
  t.filterMap fun
    | .parameter name _ => some name
    | .literal _ => none

/-- The template that a text writes; no two parameters have one name. -/
def ofText? (s : List Char) : Option Template :=
  (pieces? s).filter fun t => t.names.eraseDups.length == t.names.length

/-- The text of a template without the forms of its parameters. -/
def plainText (t : Template) : List Char :=
  t.flatMap fun
    | .parameter name _ => '\x7b' :: name ++ ['\x7d']
    | .literal c => [c]

/-- The texts from an opening brace to the next closing brace on the same line. -/
def bracedIn : List Char → List (List Char)
  | [] => []
  | c :: rest =>
    let inner := rest.takeWhile fun d => d != '\x7d' && d != '\n'
    if c = '\x7b' && rest[inner.length]? = some '\x7d' then inner :: bracedIn (rest.drop (inner.length + 1))
    else bracedIn rest
termination_by s => s.length
decreasing_by all_goals simp only [List.length_drop, List.length_cons]; omega

/-- The names that a template is taken to set. A brace that is never closed hides the names after it. -/
def declared (t : Template) : List (List Char) :=
  bracedIn t.plainText

def declares (t : Template) (names : List String) : Bool :=
  names.any fun name => t.declared.contains name.toList

/-- The values of the parameters in a path, if the template accepts it. -/
def read? : Template → List Char → Option (List (List Char × String))
  | [], s => if s.isEmpty || s == ['\n'] then some [] else none
  | .literal _ :: _, [] => none
  | .literal c :: t, d :: s => if c = d then read? t s else none
  | .parameter name form :: t, s =>
    (form.lengths s).findSome? fun n =>
      (read? t (s.drop n)).map fun values => (name, String.ofList (s.take n)) :: values

end Template

end Roster
