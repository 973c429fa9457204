/-
# Hosts

The host of an address is a number of the fourth or sixth version of the internet protocol, or a
name.  Numbers are read in all spellings that the standard for addresses knows, and written in one
form.  Names outside of ASCII are refused.
-/
import Punter.Http.Percent
import Punter.Number.Digits

namespace Punter.Http

open Number

/-- Splits characters at a separator. -/
def splitAt (p : Char → Bool) : List Char → List (List Char)
  | [] => [[]]
  | c :: cs =>
    if p c then [] :: splitAt p cs
    else match splitAt p cs with
      | [] => [[c]]
      | part :: parts => (c :: part) :: parts

namespace Host

/-! ## Numbers of four bytes -/

/-- The number denoted by digits of a base. -/
def ofBase (base : Nat) (cs : List Char) : Option Nat :=
  cs.foldl (fun n c => do
    let n ← n
    let d ← Text.hexValue c
    if d < base then some (n * base + d) else none) (some 0)

/-- A part of a number: decimal, octal after a zero, or hexadecimal after `0x`. -/
def numberPart (cs : List Char) : Option Nat :=
  match cs with
  | [] => none
  | '0' :: 'x' :: rest => ofBase 16 rest
  | '0' :: 'X' :: rest => ofBase 16 rest
  | '0' :: rest => ofBase 8 rest
  | cs => ofBase 10 cs

/-- The dot-separated parts of a host, without an empty last one. -/
def dotted (cs : List Char) : List (List Char) :=
  let parts := splitAt (· = '.') cs
  if 1 < parts.length ∧ parts.getLast? = some [] then parts.dropLast else parts

/-- Whether a host is meant as a number. -/
def endsInNumber (cs : List Char) : Bool :=
  match (dotted cs).getLast? with
  | some part => (!part.isEmpty && part.all isDigit) ||
      ((part.take 2 = ['0', 'x'] || part.take 2 = ['0', 'X']) && (numberPart part).isSome)
  | none => false

/-- The number that parts denote: each but the last is one byte, and the last fills the rest. -/
def joinParts : Nat → List Nat → Option Nat
  | _, [] => none
  | room, [n] => if n < 256 ^ room then some n else none
  | room, n :: ns =>
    if n < 256 then (joinParts (room - 1) ns).map (n * 256 ^ (room - 1) + ·) else none

/-- Reads a number of four bytes. -/
def parse4 (cs : List Char) : Option Nat := do
  let parts := dotted cs
  if 4 < parts.length then none
  joinParts 4 (← parts.mapM numberPart)

/-- One of the bytes of a number, counted from its end. -/
def byteAt (n i : Nat) : Nat := n / 256 ^ i % 256

/-- Writes a number of four bytes. -/
def write4 (n : Nat) : List Char :=
  digits (byteAt n 3) ++ '.' :: (digits (byteAt n 2) ++ '.' ::
    (digits (byteAt n 1) ++ '.' :: digits (byteAt n 0)))

/-! ## Numbers of eight words -/

/-- One of the words. -/
def word (cs : List Char) : Option Nat :=
  if cs.isEmpty ∨ 4 < cs.length then none else Text.ofHex cs

/-- One byte of four at the end. -/
def byte (cs : List Char) : Option Nat :=
  if cs.isEmpty ∨ 3 < cs.length ∨ (1 < cs.length ∧ cs.head? = some '0') ∨ !cs.all isDigit then none
  else if ofDigits cs < 256 then some (ofDigits cs) else none

/-- The last two words, written as four bytes. -/
def lastBytes (cs : List Char) : Option (List Nat) := do
  match ← (splitAt (· = '.') cs).mapM byte with
  | [a, b, c, d] => some [a * 256 + b, c * 256 + d]
  | _ => none

/-- Words between colons.  The last two may be written as four bytes. -/
def words : List (List Char) → Option (List Nat)
  | [] => some []
  | [part] => if part.contains '.' then lastBytes part else (word part).map ([·])
  | part :: parts => do
    let w ← word part
    return w :: (← words parts)

/-- The texts before and after the first pair of colons. -/
def atGap : List Char → Option (List Char × List Char)
  | ':' :: ':' :: rest => some ([], rest)
  | c :: rest => (atGap rest).map fun (a, b) => (c :: a, b)
  | [] => none

/-- The words of a text that may be empty. -/
def wordsOf (cs : List Char) : Option (List Nat) :=
  if cs.isEmpty then some [] else words (splitAt (· = ':') cs)

/-- Reads a number of eight words.  A pair of colons stands for one or more words of zero. -/
def parse6 (cs : List Char) : Option (List Nat) :=
  match atGap cs with
  | none => do
    let ws ← wordsOf cs
    if ws.length = 8 then some ws else none
  | some (before, after) => do
    if before.contains '.' then none
    let a ← wordsOf before
    let b ← wordsOf after
    if a.length + b.length < 8 then
      some (a ++ List.replicate (8 - a.length - b.length) 0 ++ b)
    else none

/-- The number of words of zero in front. -/
def zeros (ws : List Nat) : Nat := (ws.takeWhile (· = 0)).length

/-- Where the longest run of words of zero begins, and its length. -/
def longestRun (ws : List Nat) : Nat × Nat :=
  (List.range ws.length).foldl
    (fun best i => if best.2 < zeros (ws.drop i) then (i, zeros (ws.drop i)) else best) (0, 0)

/-- A word without leading zeros. -/
def writeWord (n : Nat) : List Char := Nat.toDigits 16 n

/-- Words between colons. -/
def writeWords (ws : List Nat) : List Char := [':'].intercalate (ws.map writeWord)

/-- Writes a number of eight words, with a pair of colons for its longest run of zeros. -/
def write6 (ws : List Nat) : List Char :=
  let (start, length) := longestRun ws
  if length < 2 then writeWords ws
  else writeWords (ws.take start) ++ ':' :: ':' :: writeWords (ws.drop (start + length))

/-! ## Hosts -/

/-- Characters that no host contains. -/
def isForbidden (c : Char) : Bool :=
  c.toNat = 0 || ['\t', '\n', '\r', ' ', '#', '/', ':', '<', '>', '?', '@', '[', '\\', ']', '^',
    '|'].contains c

/-- Characters that no name contains. -/
def isForbiddenInName (c : Char) : Bool :=
  isForbidden c || c.toNat < 0x20 || c = '%' || 0x7e < c.toNat

/-- A number of eight words in brackets. -/
def bracketed (cs : List Char) : Option (List Char) :=
  if cs.getLast? = some ']' then
    (parse6 cs.dropLast).map fun ws => '[' :: (write6 ws ++ [']'])
  else none

/-- Reads a host of an address of the web, and gives it in its one form. -/
def ofWeb (cs : List Char) : Option (List Char) :=
  match cs with
  | '[' :: rest => bracketed rest
  | cs =>
    let name := (percentDecode cs).map Char.toLower
    if name.isEmpty ∨ name.any isForbiddenInName then none
    else if endsInNumber name then (parse4 name).map write4
    else some name

/-- Reads a host of any other address. -/
def ofOther (cs : List Char) : Option (List Char) :=
  match cs with
  | '[' :: rest => bracketed rest
  | cs => if cs.any isForbidden then none else some (percentEncode .control cs)

end Host

end Punter.Http
