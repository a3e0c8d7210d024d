/-!
Splitting a text at a mark.
-/

set_option autoImplicit false

namespace Roster.Text

/-- The parts of a text between the marks in it; a text without a mark is one part. -/
def splitAt (mark : Char) : List Char → List (List Char)
  | [] => [[]]
  | c :: rest =>
    if c = mark then [] :: splitAt mark rest
    else
      match splitAt mark rest with
      | [] => [[c]]
      | part :: parts => (c :: part) :: parts

/-- The parts of a text before and after the first mark, if it has one. -/
def splitFirst? (mark : Char) (s : List Char) : Option (List Char × List Char) :=
  match s.dropWhile (· != mark) with
  | [] => none
  | _ :: rest => some (s.takeWhile (· != mark), rest)

end Roster.Text
