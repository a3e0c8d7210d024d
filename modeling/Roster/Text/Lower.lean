import Roster.Text.Cased

/-!
Lower case, for one alphabet and for all.

The full mapping works on texts, not on characters: a capital I with a dot becomes two characters, and a
capital sigma becomes the final form after a letter and before none. The plain mapping changes the letters
A to Z and nothing else; the store folds case with it.
-/

set_option autoImplicit false

namespace Roster.Text

/-- The next character that counts has case. -/
def startsCased (s : List Char) : Bool :=
  ((s.dropWhile isCaseIgnorable).head?.map isCased).getD false

/-- Lower case of the characters `s` that follow the characters `before`, which are kept latest first. -/
def lowerAfter (before : List Char) : List Char → List Char
  | [] => []
  | c :: rest =>
    let here :=
      if c == 'Σ' then [if startsCased before && !startsCased rest then 'ς' else 'σ']
      else if c == 'İ' then ['i', '\u0307']
      else [lowerChar c]
    here ++ lowerAfter (c :: before) rest

/-- Lower case by the full mapping of all alphabets. -/
def lower (s : List Char) : List Char :=
  lowerAfter [] s

/-- Lower case of the letters A to Z; all other characters stay. -/
def lowerPlain (s : List Char) : List Char :=
  s.map Char.toLower

end Roster.Text
