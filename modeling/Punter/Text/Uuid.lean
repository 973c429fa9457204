/-
# Universally unique identifiers

An identifier is a word of 128 bits.  It is written as five groups of lower-case hexadecimal
digits, and read in four forms: with hyphens, without them, in braces, and as a resource name.
-/
import Punter.Text.Hex
import Punter.Json.Codec

namespace Punter

/-- An identifier of 128 bits. -/
structure Uuid where
  bits : BitVec 128
  deriving DecidableEq

namespace Uuid

open Text

/-- The identifier whose bits are all zero. -/
def nil : Uuid := ⟨0⟩

instance : Inhabited Uuid := ⟨nil⟩

/-- The version of an identifier, which says how it was made. -/
def version (u : Uuid) : Nat := (u.bits.extractLsb' 76 4).toNat

/-- Whether an identifier was made at random, as version 4 says. -/
def isRandom (u : Uuid) : Bool := u.version = 4

/-- The identifier of version 4 with the given bits around the version and the variant. -/
def ofRandom (bits : BitVec 128) : Uuid :=
  ⟨bits.extractLsb' 80 48 ++ 4#4 ++ bits.extractLsb' 64 12 ++ 2#2 ++ bits.extractLsb' 0 62⟩

/-- The number without its last hexadecimal digits. -/
def dropDigits (n count : Nat) : Nat := n / 16 ^ count

/-- The characters of an identifier: groups of 8, 4, 4, 4 and 12 digits. -/
def chars (u : Uuid) : List Char :=
  let n := u.bits.toNat
  toHex 8 (dropDigits n 24) ++ '-' :: (toHex 4 (dropDigits n 20) ++ '-' ::
    (toHex 4 (dropDigits n 16) ++ '-' :: (toHex 4 (dropDigits n 12) ++ '-' :: toHex 12 n)))

/-- The text of an identifier. -/
def text (u : Uuid) : String := String.ofList u.chars

instance : ToString Uuid := ⟨text⟩

/-- The identifier with the given 32 digits. -/
def ofSimple (cs : List Char) : Option Uuid :=
  if cs.length = 32 then (ofHex cs).map fun n => ⟨BitVec.ofNat 128 n⟩ else none

/-- The identifier with the given 32 digits in five groups. -/
def ofGroups (cs : List Char) : Option Uuid :=
  if cs.length = 36 ∧ [8, 13, 18, 23].all (fun i => cs[i]? == some '-') then
    ofSimple (cs.take 8 ++ (cs.drop 9).take 4 ++ (cs.drop 14).take 4 ++ (cs.drop 19).take 4 ++
      cs.drop 24)
  else none

/-- The words in front of an identifier that is written as a resource name, in either case. -/
def urn : List Char := "urn:uuid:".toList

/-- Reads an identifier in any of its forms. -/
def ofChars? (cs : List Char) : Option Uuid :=
  if cs.length = 32 then ofSimple cs
  else if cs.length = 36 then ofGroups cs
  else if cs.length = 38 ∧ cs.head? = some '\x7b' ∧ cs.getLast? = some '\x7d' then
    ofGroups ((cs.drop 1).take 36)
  else if cs.length = 45 ∧ (cs.take 9).map Char.toLower = urn then ofGroups (cs.drop 9)
  else none

/-- Reads an identifier in any of its forms. -/
def parse? (s : String) : Option Uuid := ofChars? s.toList

/-! ## What is wrong with other texts -/

/-- How many digits a text has up to each of its hyphens, and after the last one. -/
def groupLengths (cs : List Char) : List Nat :=
  match cs with
  | [] => [0]
  | '-' :: rest => 0 :: groupLengths rest
  | _ :: rest => match groupLengths rest with
    | [] => [1]
    | n :: ns => (n + 1) :: ns

/-- The first character that is neither a digit nor a hyphen, and the number of bytes up to its
first one. -/
def strayChar (offset : Nat) : List Char → Option (Char × Nat)
  | [] => none
  | c :: cs =>
    if c = '-' ∨ (hexValue c).isSome then strayChar (offset + c.utf8Size) cs
    else some (c, offset + 1)

/-- The first group of the wrong length: its index, the length wanted, and its length. -/
def wrongGroup (index : Nat) : List Nat → List Nat → Option (Nat × Nat × Nat)
  | want :: wants, n :: ns =>
    if want = n then wrongGroup (index + 1) wants ns else some (index, want, n)
  | _, _ => none

/-- The text inside what may surround an identifier, and the number of bytes in front of it. -/
def inside (cs : List Char) : List Char × Nat :=
  if cs.head? = some '\x7b' ∧ cs.getLast? = some '\x7d' then ((cs.drop 1).dropLast, 1)
  else if cs.take 9 = urn then (cs.drop 9, 9)
  else (cs, 0)

/-- Says why a text is not that of an identifier. -/
def complaint (s : String) : String :=
  let (cs, offset) := inside s.toList
  let groups := groupLengths cs
  let num := Number.numeral
  "UUID parsing failed: " ++ match strayChar offset cs with
    | some (c, place) =>
      "invalid character: expected an optional prefix of \x60urn:uuid:\x60 followed by " ++
        "[0-9a-fA-F-], found \x60" ++ String.singleton c ++ "\x60 at " ++ num place
    | none =>
      if groups.length = 1 ∧ offset = 0 then
        "invalid length: expected length 32 for simple format, found " ++ num s.utf8ByteSize
      else if groups.length ≠ 5 then
        "invalid group count: expected 5, found " ++ num groups.length
      else match wrongGroup 0 [8, 4, 4, 4, 12] groups with
        | some (index, want, n) =>
          "invalid group length in group " ++ num index ++ ": expected " ++ num want ++
            ", found " ++ num n
        | none => "the text has the wrong form"

/-- Identifiers in JSON are strings. -/
def codec {α : Type} [Scalar α] : Codec α Uuid :=
  .special "a formatted UUID string" parse? complaint text

end Uuid

end Punter
