/-
# Texts from bytes

Bytes that are meant as UTF-8 are read in two ways: strictly, and with every ill-formed piece
replaced by the replacement character.  A piece that is replaced is the longest run of bytes
that begins a character and breaks off, or a single byte that begins none.
-/
import Punter.Number.Powers

namespace Punter.Text

/-- How many bytes a character has whose first byte is `b`, and the range of its second byte. -/
def leadByte (b : Nat) : Option (Nat × Nat × Nat) :=
  if b < 0x80 then some (1, 0, 0)
  else if b < 0xc2 then none
  else if b < 0xe0 then some (2, 0x80, 0xbf)
  else if b = 0xe0 then some (3, 0xa0, 0xbf)
  else if b = 0xed then some (3, 0x80, 0x9f)
  else if b < 0xf0 then some (3, 0x80, 0xbf)
  else if b = 0xf0 then some (4, 0x90, 0xbf)
  else if b < 0xf4 then some (4, 0x80, 0xbf)
  else if b = 0xf4 then some (4, 0x80, 0x8f)
  else none

/-- Where the pieces of a text stand in it: characters, and runs of bytes that are none. -/
inductive Piece where
  | char (c : Char)
  | broken
  deriving DecidableEq

/-- The character that stands for a piece. -/
def Piece.lossy : Piece → Char
  | char c => c
  | broken => Char.ofNat 0xfffd

/-- The character that a piece is. -/
def Piece.char? : Piece → Option Char
  | char c => some c
  | broken => none

/-- The piece that is in progress while bytes are read: the bits of the character so far, how
many bytes have to follow, and the range of the next one. -/
structure Pending where
  bits : Nat
  left : Nat
  lo : Nat
  hi : Nat

/-- Begins a piece with a byte. -/
def begin (b : Nat) : List Piece × Option Pending :=
  match leadByte b with
  | none => ([.broken], none)
  | some (1, _, _) => ([.char (Char.ofNat b)], none)
  | some (n, lo, hi) => ([], some ⟨b % 2 ^ (7 - n), n - 1, lo, hi⟩)

/-- Splits bytes into pieces. -/
def pieces : Option Pending → List UInt8 → List Piece
  | none, [] => []
  | some _, [] => [.broken]
  | none, b :: bs =>
    let (done, next) := begin b.toNat
    done ++ pieces next bs
  | some p, b :: bs =>
    if p.lo ≤ b.toNat ∧ b.toNat ≤ p.hi then
      let bits := p.bits * 64 + b.toNat % 64
      if p.left = 1 then .char (Char.ofNat bits) :: pieces none bs
      else pieces (some ⟨bits, p.left - 1, 0x80, 0xbf⟩) bs
    else
      let (done, next) := begin b.toNat
      .broken :: (done ++ pieces next bs)

/-- The text of bytes, with a replacement character for each run of bytes that is no character. -/
def ofBytesLossy (bs : List UInt8) : String :=
  String.ofList ((pieces none bs).map Piece.lossy)

/-- The text of bytes, if they are well-formed. -/
def ofBytes? (bs : List UInt8) : Option String :=
  ((pieces none bs).mapM Piece.char?).map String.ofList

end Punter.Text
