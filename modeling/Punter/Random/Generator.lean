/-
# A seeded generator

The generator is a stream of words: block `b` of the stream is the ChaCha permutation of twelve
rounds applied to a key, the number `b` and an empty nonce.  The key is spread from a seed of 64
bits.  A generator is its key together with the number of words drawn, so that each draw is a
function of its rank alone.
-/
import Punter.Random.Source
import Punter.Random.Chance

namespace Punter

/-- The state of the permutation. -/
abbrev Block := Vector UInt32 16

namespace Block

/-- A word with its bits turned to the left. -/
def rotateLeft (x : UInt32) (k : UInt32) : UInt32 := (x <<< k) ||| (x >>> (32 - k))

/-- Mixes four words of a state. -/
def quarterRound (s : Block) (a b c d : Fin 16) : Block :=
  let s := s.set a (s[a] + s[b])
  let s := s.set d (rotateLeft (s[d] ^^^ s[a]) 16)
  let s := s.set c (s[c] + s[d])
  let s := s.set b (rotateLeft (s[b] ^^^ s[c]) 12)
  let s := s.set a (s[a] + s[b])
  let s := s.set d (rotateLeft (s[d] ^^^ s[a]) 8)
  let s := s.set c (s[c] + s[d])
  s.set b (rotateLeft (s[b] ^^^ s[c]) 7)

/-- A round on the columns and a round on the diagonals. -/
def doubleRound (s : Block) : Block :=
  let s := s.quarterRound 0 4 8 12
  let s := s.quarterRound 1 5 9 13
  let s := s.quarterRound 2 6 10 14
  let s := s.quarterRound 3 7 11 15
  let s := s.quarterRound 0 5 10 15
  let s := s.quarterRound 1 6 11 12
  let s := s.quarterRound 2 7 8 13
  s.quarterRound 3 4 9 14

/-- The state with a key and a block number. -/
def start (key : Vector UInt32 8) (number : UInt64) : Block :=
  #v[0x61707865, 0x3320646e, 0x79622d32, 0x6b206574,
    key[0], key[1], key[2], key[3], key[4], key[5], key[6], key[7],
    number.toUInt32, (number >>> 32).toUInt32, 0, 0]

/-- A block of the stream. -/
def output (key : Vector UInt32 8) (number : UInt64) : Block :=
  let s := start key number
  let mixed := doubleRound (doubleRound (doubleRound (doubleRound (doubleRound (doubleRound s)))))
  mixed.zipWith (· + ·) s

end Block

/-- A seeded generator. -/
structure Generator where
  key : Vector UInt32 8
  /-- How many words of 64 bits have been drawn. -/
  drawn : Nat

namespace Generator

/-- The next state of the sequence from which keys are spread. -/
def spread (s : UInt64) : UInt64 := s * 6364136223846793005 + 11634580027462260723

/-- The word of a key that a state gives. -/
def keyWord (s : UInt64) : UInt32 :=
  let x := (((s >>> 18) ^^^ s) >>> 27).toUInt32
  let k := (s >>> 59).toUInt32
  (x >>> k) ||| (x <<< ((32 - k) % 32))

/-- The first states of the sequence after `s`. -/
def spreadList : Nat → UInt64 → List UInt64
  | 0, _ => []
  | n + 1, s => spread s :: spreadList n (spread s)

/-- The generator of a seed. -/
def ofSeed (seed : UInt64) : Generator :=
  let words := (spreadList 8 seed).map keyWord
  ⟨Vector.ofFn fun i : Fin 8 => words.getD i 0, 0⟩

/-- The word of 64 bits with a rank in the stream. -/
def word (key : Vector UInt32 8) (rank : Nat) : UInt64 :=
  let block := Block.output key (UInt64.ofNat (rank / 8))
  let low := block.get ⟨2 * (rank % 8), by omega⟩
  let high := block.get ⟨2 * (rank % 8) + 1, by omega⟩
  (high.toUInt64 <<< 32) ||| low.toUInt64

/-- The next word. -/
def next (g : Generator) : UInt64 × Generator :=
  (word g.key g.drawn, { g with drawn := g.drawn + 1 })

/-- The next number: 53 bits of a word behind the point. -/
def draw {α : Type} [Scalar α] (g : Generator) : α × Generator :=
  let (w, g) := g.next
  (Scalar.ofNat (w >>> 11).toNat / 9007199254740992.0, g)

instance {α : Type} [Scalar α] : RandomSource Generator α := ⟨draw⟩

/-- Whether something of the given probability happens: the next word lies in the share of all
words that the probability gives.  What is certain happens without a draw. -/
def happens {α : Type} [Scalar α] (p : α) (g : Generator) : Bool × Generator :=
  if (1.0 : α) ≤ p then (true, g)
  else
    let (w, g) := g.next
    (decide (w.toNat < Scalar.toCount (p * 18446744073709551616.0)), g)

/-- The last word of the zone in which all cases are equally likely, for `n` cases. -/
def zone (n : Nat) : Nat := n * 2 ^ (63 - n.log2) - 1

/-- One of `n` cases: the high half of the product of `n` and a word whose low half lies in the
zone.  The first argument bounds the number of words that are passed over. -/
def pickFrom : Nat → (n : Nat) → 0 < n → Generator → Fin n × Generator
  | tries, n, hn, g =>
    let (w, g) := g.next
    let product := w.toNat * n
    have h : product / UInt64.size < n :=
      Nat.div_lt_of_lt_mul (Nat.mul_lt_mul_of_pos_right w.toNat_lt_size hn)
    match tries with
    | 0 => (⟨product / UInt64.size, h⟩, g)
    | tries + 1 =>
      if product % UInt64.size ≤ zone n then (⟨product / UInt64.size, h⟩, g) else pickFrom tries n hn g

/-- How many words are passed over at most.  Fewer than half of all words are passed over, so
that this bound is not met in practice. -/
def maxPassed : Nat := 1000

instance {α : Type} [Scalar α] : Chance Generator α where
  happens := happens
  pick := pickFrom maxPassed

end Generator

end Punter
