/-!
Base 64.

Four characters of the alphabet write three octets; the last group may be shorter and is filled up with
equals signs. The reader skips characters outside the alphabet and stops at the end of a filled-up group; a
group that is neither full nor filled up is an error.
-/

set_option autoImplicit false

namespace Roster.Base64

/-- The characters for the values from 0 to 63. -/
def alphabet : List Char :=
  "ABCDEFGHIJKLMNOPQRSTUVWXYZabcdefghijklmnopqrstuvwxyz0123456789+/".toList

def value? (c : Char) : Option Nat :=
  let i := alphabet.idxOf c
  if i < 64 then some i else none

/-- The character for the lowest six bits of a number. -/
def digit (n : Nat) : Char :=
  alphabet.getD (n % 64) 'A'

/-- Reads the rest of a text: `place` characters of the current group have been read, `held` are the bits
of the last that belong to no octet yet, and `filled` equals signs have been seen. -/
def decodeFrom (place held filled : Nat) : List Char → Option (List Nat)
  | [] => if place = 0 then some [] else none
  | c :: rest =>
    if c == '=' then
      if place < 2 then decodeFrom place held filled rest
      else if 4 ≤ place + filled + 1 then some []
      else decodeFrom place held (filled + 1) rest
    else
      match value? c with
      | none => decodeFrom place held filled rest
      | some v =>
        match place with
        | 0 => decodeFrom 1 v 0 rest
        | 1 => (decodeFrom 2 (v % 16) 0 rest).map ((held * 4 + v / 16) :: ·)
        | 2 => (decodeFrom 3 (v % 4) 0 rest).map ((held * 16 + v / 4) :: ·)
        | _ => (decodeFrom 0 0 0 rest).map ((held * 64 + v) :: ·)

def decode (s : List Char) : Option (List Nat) :=
  decodeFrom 0 0 0 s

def encode : List Nat → List Char
  | [] => []
  | [a] => [digit (a / 4), digit (a * 16), '=', '=']
  | [a, b] => [digit (a / 4), digit (a * 16 + b / 16), digit (b * 4), '=']
  | a :: b :: c :: rest =>
    digit (a / 4) :: digit (a * 16 + b / 16) :: digit (b * 4 + c / 64) :: digit c :: encode rest

end Roster.Base64
