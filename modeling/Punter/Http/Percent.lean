/-
# Percent-encoding

A character that cannot stand in a part of an address is written as the bytes of its UTF-8 form,
each as a percent sign and two digits.  The parts differ in the set of such characters.
-/
import Punter.Text.Hex
import Punter.Text.Utf8

namespace Punter.Http

/-- A set of characters. -/
abbrev CharSet := Char → Bool

namespace CharSet

/-- Control characters and everything outside of ASCII. -/
def control : CharSet := fun c => c.toNat < 0x20 || 0x7e < c.toNat

/-- The characters of a set and further ones. -/
def adding (s : CharSet) (more : List Char) : CharSet := fun c => s c || more.contains c

/-- What is encoded in a fragment. -/
def fragment : CharSet := control.adding [' ', '"', '<', '>', '\x60']

/-- What is encoded in a query. -/
def query : CharSet := control.adding [' ', '"', '#', '<', '>']

/-- What is encoded in a query of an address of the web. -/
def webQuery : CharSet := query.adding ['\'']

/-- What is encoded in a path. -/
def path : CharSet := query.adding ['?', '^', '\x60', '\x7b', '\x7d']

/-- What is encoded in the name and the password of a user. -/
def user : CharSet := path.adding ['/', ':', ';', '=', '@', '[', '\\', ']', '|']

end CharSet

/-- The encoding of a byte. -/
def percentByte (b : UInt8) : List Char :=
  ['%', (Text.hexChar (b.toNat / 16)).toUpper, (Text.hexChar (b.toNat % 16)).toUpper]

/-- Encodes the characters of a set. -/
def percentEncode (s : CharSet) (cs : List Char) : List Char :=
  cs.flatMap fun c => if s c then (String.utf8EncodeChar c).flatMap percentByte else [c]

/-- The bytes of an encoded text. -/
def percentBytes : List Char → List UInt8
  | '%' :: a :: b :: rest =>
    match Text.ofHex [a, b] with
    | some n => UInt8.ofNat n :: percentBytes rest
    | none => String.utf8EncodeChar '%' ++ percentBytes (a :: b :: rest)
  | c :: rest => String.utf8EncodeChar c ++ percentBytes rest
  | [] => []

/-- The text that is encoded. -/
def percentDecode (cs : List Char) : List Char := (Text.ofBytesLossy (percentBytes cs)).toList

end Punter.Http
