/-
# The numbers the agent computes with

Stakes, rewards, rates and scores are numbers of a type `α` with the operations of `Scalar`.
Two instances are given: `Float`, with which the agent runs, and `Rat`, in which the same
definitions are exact and the laws of the library are stated.

Besides arithmetic and order the class fixes how numbers are rounded, counted, written and
read, because these are the places where the two instances differ.
-/
import Punter.Number.Binary64

namespace Punter

open Number

/-- Numbers with exact comparison, rounding and texts. -/
class Scalar (α : Type) extends Add α, Sub α, Mul α, Div α, Neg α, LT α, LE α, BEq α,
    OfScientific α where
  decLT : DecidableLT α
  decLE : DecidableLE α
  /-- The number nearest to a natural number. -/
  ofNat : Nat → α
  /-- The number nearest to `± digits * 10 ^ exponent`; `none` when it is out of range. -/
  ofDecimal (negative : Bool) (d : Decimal) : Option α
  /-- Neither infinite nor undefined. -/
  isFinite : α → Bool
  /-- The nearest integer, halves away from zero. -/
  round : α → α
  /-- The integer part as a count, cut off below at `0` and above at `2 ^ 64 - 1`. -/
  toCount : α → Nat
  /-- The text in messages: positional notation, no places on whole numbers. -/
  text : α → String
  /-- The text in JSON, for finite numbers. -/
  jsonText : α → String
  /-- The text with a fixed number of places. -/
  fixedText : Nat → α → String

attribute [reducible, instance] Scalar.decLT Scalar.decLE

namespace Scalar

variable {α : Type} [Scalar α]

/-- The number nearest to an integer. -/
def ofInt : Int → α
  | .ofNat n => ofNat n
  | .negSucc n => -ofNat (n + 1)

/-- `x`, or `lo` where `x` is not above it. -/
def atLeast (lo x : α) : α := if lo < x then x else lo

/-- `x`, or `hi` where `x` is not below it. -/
def atMost (hi x : α) : α := if x < hi then x else hi

/-- `x` moved into the interval from `lo` to `hi`. -/
def clamp (lo hi x : α) : α := if x < lo then lo else if hi < x then hi else x

/-- The distance from zero. -/
def abs (x : α) : α := if x < 0.0 then -x else x

/-- Whether `x` lies in the closed interval from `lo` to `hi`. -/
def within (lo hi x : α) : Bool := decide (lo ≤ x) && decide (x ≤ hi)

/-- The sum of a list, from the left.  The sum of nothing is negative zero. -/
def sum (xs : List α) : α := xs.foldl (· + ·) (-0.0)

/-- `x` rounded to two places. -/
def round2 (x : α) : α := round (x * 100.0) / 100.0

end Scalar

/-! ## Doubles -/

namespace Number

/-- The double with the given sign and magnitude. -/
def Binary64.toFloat (negative : Bool) (x : Binary64) : Float :=
  Float.ofBits (if negative then x.toBits ||| 0x8000000000000000 else x.toBits)

/-- The sign bit of a double. -/
def isNegative (x : Float) : Bool := x.toBits >>> 63 == 1

/-- Writes a double: its sign, then its magnitude in the given layout.  Numbers that are not
finite are named. -/
def writeFloat (layout : Binary64 → List Char) (x : Float) : String :=
  if x.isNaN then "NaN"
  else
    let magnitude := if x.isFinite then layout (Binary64.ofBits x.toBits) else ['i', 'n', 'f']
    String.ofList (if isNegative x then '-' :: magnitude else magnitude)

/-- Digits with a point in front of the last `places` of them. -/
def pointed (places n : Nat) : List Char :=
  let ds := digits n
  let ds := List.replicate (places + 1 - ds.length) '0' ++ ds
  if places = 0 then ds
  else ds.take (ds.length - places) ++ '.' :: ds.drop (ds.length - places)

end Number

instance : Scalar Float where
  decLT := inferInstance
  decLE := inferInstance
  ofNat n := ((Binary64.ofRatio n 1).map (Binary64.toFloat false)).getD (1.0 / 0.0)
  ofDecimal negative d := (Binary64.ofDecimal d).map (Binary64.toFloat negative)
  isFinite := Float.isFinite
  round := Float.round
  toCount x := x.toUInt64.toNat
  text := writeFloat fun x => (x.shortest .up).positional
  jsonText := writeFloat fun x => (x.shortest .toEven).jsonLayout
  fixedText places := writeFloat fun x => pointed places (x.fixed places)

/-! ## Exact ratios -/

namespace Number

/-- The nearest integer to a ratio, halves away from zero. -/
def roundRat (x : Rat) : Int :=
  let n : Nat := roundRatio .up x.num.natAbs x.den
  if x < 0 then -n else n

/-- How many places of a ratio are written. -/
def ratioPlaces : Nat := 17

/-- Writes a ratio, with the trailing zeros left out. -/
def writeRat (layout : Decimal → List Char) (x : Rat) : String :=
  let n := roundRatio .toEven (x.num.natAbs * 10 ^ ratioPlaces) x.den
  let magnitude := layout ((if n = 0 then ⟨0, 0⟩ else ⟨n, -ratioPlaces⟩ : Decimal).strip 400)
  String.ofList (if x < 0 then '-' :: magnitude else magnitude)

end Number

instance : Scalar Rat where
  decLT := inferInstance
  decLE := inferInstance
  ofNat n := (n : Rat)
  ofDecimal negative d :=
    let x : Rat := (d.digits * 10 ^ d.exponent.toNat : Nat) / (10 ^ (-d.exponent).toNat : Nat)
    some (if negative then -x else x)
  isFinite _ := true
  round x := roundRat x
  toCount x := min x.floor.toNat (UInt64.size - 1)
  text := writeRat Decimal.positional
  jsonText := writeRat Decimal.jsonLayout
  fixedText places x :=
    let n := roundRatio .toEven (x.num.natAbs * 10 ^ places) x.den
    String.ofList (if x < 0 then '-' :: pointed places n else pointed places n)

end Punter
