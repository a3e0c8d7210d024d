import Roster.Text.Split

/-!
References to the paths of a site.

A reference is resolved against the root of the site. A host in front of it does not count, slashes at its
front are one, and parts of one and of two dots stand for the level that they are on and for the one above.
-/

set_option autoImplicit false

namespace Roster.Reference

/-- The reference without a host, which two slashes announce. -/
def withoutHost : List Char → List Char
  | '/' :: '/' :: rest => rest.dropWhile (· != '/')
  | s => s

/-- The parts of a path so far, latest first, after one more part. Above the root there is nothing. -/
def descend (parts : List (List Char)) (part : List Char) : List (List Char) :=
  if part == ['.'] then parts
  else if part == ['.', '.'] then
    match parts with
    | [] | [[]] => parts
    | _ :: above => above
  else part :: parts

def withoutDots (path : List Char) : List Char :=
  ['/'].intercalate ((Text.splitAt '/' path).foldl descend []).reverse

def resolve (reference : List Char) : List Char :=
  match withoutDots ('/' :: (withoutHost reference).dropWhile (· == '/')) with
  | [] => ['/']
  | path => path

example : resolve "/a/./b/../c".toList = "/a/c".toList := by decide

example : resolve "a/..".toList = "/".toList := by decide

end Roster.Reference
