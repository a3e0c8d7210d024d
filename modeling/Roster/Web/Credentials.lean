import Roster.Text.Lower
import Roster.Text.Split
import Roster.Web.Base64

/-!
Credentials in the Authorization header.

Basic credentials are a name and a password with a colon between them, in ASCII and written in base 64. A
header of another scheme counts as none; one of this scheme that cannot be decoded is an error of its own.
-/

set_option autoImplicit false

namespace Roster

/-- What an Authorization header says. -/
inductive Credentials
  | missing
  | unreadable
  | basic (name password : String)
  deriving DecidableEq, Repr

namespace Credentials

/-- The name and the password in octets: ASCII text, split at its first colon. -/
def ofOctets? (octets : List Nat) : Option (String × String) :=
  if octets.all (· < 128) then
    (Text.splitFirst? ':' (octets.map Char.ofNat)).map fun (name, password) =>
      (String.ofList name, String.ofList password)
  else none

/-- The scheme of a header, and what follows the first space. -/
def parts (header : List Char) : List Char × List Char :=
  (Text.splitFirst? ' ' header).getD (header, [])

def ofHeader : Option String → Credentials
  | none => missing
  | some header =>
    let (scheme, parameter) := parts header.toList
    if Text.lowerPlain scheme != "basic".toList then missing
    else if parameter.any fun c => 128 ≤ c.toNat then unreadable
    else
      match (Base64.decode parameter).bind ofOctets? with
      | some (name, password) => basic name password
      | none => unreadable

/-- The header with a name and a password. -/
def header (name password : String) : String :=
  let octets := (name ++ ":" ++ password).toUTF8.toList.map UInt8.toNat
  "Basic " ++ String.ofList (Base64.encode octets)

end Credentials

end Roster
