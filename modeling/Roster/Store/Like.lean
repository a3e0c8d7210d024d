import Roster.Text.Lower

/-!
Patterns of texts.

In a pattern, a percent sign stands for any text and an underscore for any one character; a slash makes the
character after it stand for itself. Letters A to Z match in both cases. Patterns and texts end at their
first null character, and the two last code points of the first plane are read as replacement characters.
-/

set_option autoImplicit false

namespace Roster.Like

/-- All ends of a text, from the whole text to the empty one. -/
def suffixes : List Char → List (List Char)
  | [] => [[]]
  | c :: rest => (c :: rest) :: suffixes rest

/-- Two characters match, the case of the letters A to Z aside. -/
def sameLetter (a b : Char) : Bool :=
  a.toLower == b.toLower

/-- A text starts with a character, and what follows it passes a test. -/
def startsWithLetter (c : Char) (next : List Char → Bool) : List Char → Bool
  | d :: rest => sameLetter c d && next rest
  | [] => false

/-- The whole text matches the pattern. -/
def matchesPattern : List Char → List Char → Bool
  | [], text => text.isEmpty
  | ['/'], _ => false
  | '/' :: c :: pattern, text => startsWithLetter c (matchesPattern pattern) text
  | '%' :: pattern, text => (suffixes text).any (matchesPattern pattern)
  | '_' :: pattern, text =>
    match text with
    | _ :: rest => matchesPattern pattern rest
    | [] => false
  | c :: pattern, text => startsWithLetter c (matchesPattern pattern) text

/-- The character that is read for one in a pattern or a text. -/
def readChar (c : Char) : Char :=
  if c == '\ufffe' || c == '\uffff' then '\ufffd' else c

/-- The part of a pattern or a text that is read. -/
def readable (s : List Char) : List Char :=
  (s.takeWhile (· != '\x00')).map readChar

/-- The text, as far as it is read, matches the pattern. -/
def accepts (pattern text : List Char) : Bool :=
  matchesPattern (readable pattern) (readable text)

/-- The most octets that a pattern may have. -/
def maxOctets : Nat := 50000

/-- The pattern is too long to be tried on any text. -/
def isTooLong (pattern : List Char) : Bool :=
  maxOctets < (String.ofList pattern).utf8ByteSize

/-- A pattern that stands for the text itself. -/
def escape (text : List Char) : List Char :=
  text.flatMap fun c => if c == '/' || c == '%' || c == '_' then ['/', c] else [c]

/-- The pattern of the texts that contain a text. -/
def containing (text : List Char) : List Char := '%' :: escape text ++ ['%']

/-- The pattern of the texts that start with a text. -/
def startingWith (text : List Char) : List Char := escape text ++ ['%']

/-- The pattern of the texts that end with a text. -/
def endingWith (text : List Char) : List Char := '%' :: escape text

end Roster.Like
