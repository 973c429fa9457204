/-
# Binary floating-point numbers, exactly

The finite doubles are the numbers `m * 2 ^ q`.  Everything here is computed with natural
numbers: the nearest double to a ratio, the fewest decimal digits that read back to a double,
and the value of a double to a fixed number of places.

* `Binary64.ofRatio` rounds to nearest, ties to the even significand.
* `Binary64.shortest` searches the decimal grids of 1, 2, ... 17 digits for a number that lies
  among the reals that round to the given double; the first grid with a hit wins, and of two
  hits the nearer one.
* `Binary64.fixed` rounds the exact value to a number of places, ties to the even digit.
-/
import Punter.Number.Digits

namespace Punter.Number

/-- How an exact tie between two equally near numbers is broken. -/
inductive Tie where
  | toEven
  | up
  deriving DecidableEq, Repr

/-- The number `digits * 10 ^ exponent`. -/
structure Decimal where
  digits : Nat
  exponent : Int
  deriving DecidableEq, Repr

namespace Decimal

/-- The same number with trailing zeros moved from the digits into the exponent.  The first
argument bounds the number of zeros moved. -/
def strip : Nat → Decimal → Decimal
  | 0, d => d
  | n + 1, d =>
    if d.digits ≠ 0 ∧ d.digits % 10 = 0 then strip n ⟨d.digits / 10, d.exponent + 1⟩ else d

end Decimal

/-- `num / den` rounded to the nearest natural number. -/
def roundRatio (tie : Tie) (num den : Nat) : Nat :=
  let q := num / den
  let twice := 2 * (num % den)
  if twice < den then q
  else if den < twice then q + 1
  else match tie with
    | .toEven => if q % 2 = 0 then q else q + 1
    | .up => q + 1

/-- Compares `a * 10 ^ i` with `b * 2 ^ j`. -/
def compareScaled (a : Nat) (i : Int) (b : Nat) (j : Int) : Ordering :=
  compare (a * 10 ^ i.toNat * 2 ^ (-j).toNat) (b * 2 ^ j.toNat * 10 ^ (-i).toNat)

/-- The finite non-negative double `significand * 2 ^ exponent`. -/
structure Binary64 where
  significand : Nat
  exponent : Int
  deriving DecidableEq, Repr

namespace Binary64

/-- The value of the leading binary digit of a significand of full length, `2 ^ 52`. -/
def leading : Nat := 4503599627370496

/-- The magnitude of the finite double with these bits; the sign bit is ignored. -/
def ofBits (bits : UInt64) : Binary64 :=
  let e := ((bits >>> 52) &&& 0x7FF).toNat
  let f := (bits &&& 0xFFFFFFFFFFFFF).toNat
  if e = 0 then ⟨f, -1074⟩ else ⟨leading + f, (e : Int) - 1075⟩

/-- The bits of a double whose significand is below `2 ^ 53` and which is either normal or has
the least exponent. -/
def toBits (x : Binary64) : UInt64 :=
  if x.significand < leading then UInt64.ofNat x.significand
  else UInt64.ofNat ((x.exponent + 1075).toNat * leading + (x.significand - leading))

/-! ## From a ratio to the nearest double -/

/-- The significand of `num / den` on the grid of multiples of `2 ^ q`. -/
def significandAt (num den : Nat) (q : Int) : Nat :=
  roundRatio .toEven (num * 2 ^ (-q).toNat) (den * 2 ^ q.toNat)

/-- The exponent of the grid on which `num / den` is rounded: the one that leaves 53 binary
digits, but never below `-1074`. -/
def gridExponent (num den : Nat) : Int :=
  let guess : Int := (num.log2 : Int) - den.log2 - 52
  let q := if num * 2 ^ (-guess).toNat < den * 2 ^ guess.toNat * leading then guess - 1 else guess
  max q (-1074)

/-- The double nearest to `num / den`, ties to even; `none` when it is beyond the largest. -/
def ofRatio (num den : Nat) : Option Binary64 :=
  if num = 0 then some ⟨0, -1074⟩
  else
    let q := gridExponent num den
    let m := significandAt num den q
    let x : Binary64 := if m = 2 * leading then ⟨leading, q + 1⟩ else ⟨m, q⟩
    if x.exponent ≤ 971 then some x else none

/-- The double nearest to `digits * 10 ^ exponent`.  Numbers far outside the range of doubles
are decided by their order of magnitude alone. -/
def ofDecimal (d : Decimal) : Option Binary64 :=
  if d.digits = 0 then some ⟨0, -1074⟩
  else
    let order : Int := (Number.digits d.digits).length + d.exponent
    if order < -400 then some ⟨0, -1074⟩
    else if 400 < order then none
    else ofRatio (d.digits * 10 ^ d.exponent.toNat) (10 ^ (-d.exponent).toNat)

/-! ## The fewest digits that read back -/

/-- Whether the gap to the next smaller double is half the gap to the next larger one. -/
def narrowBelow (x : Binary64) : Bool :=
  x.significand == leading && decide (-1074 < x.exponent)

/-- Whether a decimal number lies among the reals that round to `x`: between the two halfway
points to its neighbours, which belong to `x` exactly when its significand is even. -/
def readsBack (x : Binary64) (d : Decimal) : Bool :=
  let lower := if x.narrowBelow then 4 * x.significand - 1 else 4 * x.significand - 2
  let upper := 4 * x.significand + 2
  let closed := x.significand % 2 == 0
  let fromBelow := compareScaled d.digits d.exponent lower (x.exponent - 2)
  let fromAbove := compareScaled d.digits d.exponent upper (x.exponent - 2)
  (fromBelow == .gt || (closed && fromBelow == .eq)) &&
    (fromAbove == .lt || (closed && fromAbove == .eq))

/-- The decimal exponent of the leading digit: the `e` with `10 ^ e ≤ x < 10 ^ (e + 1)`.  The
binary logarithm gives a guess that is at most one off. -/
def leadingExponent (x : Binary64) : Int :=
  let guess := ((x.significand.log2 : Int) + x.exponent) * 1233 / 4096
  let reaches (e : Int) : Bool := compareScaled 1 e x.significand x.exponent != .gt
  if reaches (guess + 1) then guess + 1 else if reaches guess then guess else guess - 1

/-- The neighbour of `x` from below on the grid of multiples of `10 ^ k`. -/
def floorAt (x : Binary64) (k : Int) : Nat :=
  (x.significand * 2 ^ x.exponent.toNat * 10 ^ (-k).toNat) /
    (10 ^ k.toNat * 2 ^ (-x.exponent).toNat)

/-- The one of two neighbours on a decimal grid that is nearer to `x`. -/
def nearer (tie : Tie) (x : Binary64) (f : Nat) (k : Int) : Decimal :=
  match compareScaled (2 * f + 1) k (2 * x.significand) x.exponent with
  | .gt => ⟨f, k⟩
  | .lt => ⟨f + 1, k⟩
  | .eq => match tie with
    | .toEven => if f % 2 = 0 then ⟨f, k⟩ else ⟨f + 1, k⟩
    | .up => ⟨f + 1, k⟩

/-- The point of the grid of multiples of `10 ^ k` that reads back to `x`, if there is one. -/
def hitAt (tie : Tie) (x : Binary64) (k : Int) : Option Decimal :=
  let f := x.floorAt k
  match x.readsBack ⟨f, k⟩, x.readsBack ⟨f + 1, k⟩ with
  | true, true => some (nearer tie x f k)
  | true, false => some ⟨f, k⟩
  | false, true => some ⟨f + 1, k⟩
  | false, false => none

/-- The first hit on the grids of multiples of `10 ^ k`, `10 ^ (k - 1)`, ... -/
def search (tie : Tie) (x : Binary64) : Nat → Int → Option Decimal
  | 0, _ => none
  | n + 1, k =>
    match hitAt tie x k with
    | some d => some d
    | none => search tie x n (k - 1)

/-- The exact value as a decimal number. -/
def exactDecimal (x : Binary64) : Decimal :=
  ⟨x.significand * 2 ^ x.exponent.toNat * 5 ^ (-x.exponent).toNat, -((-x.exponent).toNat : Int)⟩

/-- The decimal number with the fewest digits that reads back to `x`, without trailing zeros. -/
def shortest (tie : Tie) (x : Binary64) : Decimal :=
  if x.significand = 0 then ⟨0, 0⟩
  else (((search tie x 17 x.leadingExponent).getD x.exactDecimal)).strip 400

/-! ## A fixed number of places -/

/-- `x * 10 ^ places`, rounded to the nearest natural number with ties to even. -/
def fixed (x : Binary64) (places : Nat) : Nat :=
  roundRatio .toEven (x.significand * 2 ^ x.exponent.toNat * 10 ^ places)
    (2 ^ (-x.exponent).toNat)

end Binary64

/-! ## Layouts of a decimal number -/

namespace Decimal

/-- The digits of a decimal number as characters. -/
def chars (d : Decimal) : List Char := Number.digits d.digits

/-- The exponent of the leading digit. -/
def leading (d : Decimal) : Int := (d.chars.length : Int) + d.exponent - 1

/-- Positional notation: all digits, and a point if there are places behind it. -/
def positional (d : Decimal) : List Char :=
  let ds := d.chars
  if 0 ≤ d.exponent then ds ++ List.replicate d.exponent.toNat '0'
  else
    let places := (-d.exponent).toNat
    if places < ds.length then
      ds.take (ds.length - places) ++ '.' :: ds.drop (ds.length - places)
    else '0' :: '.' :: (List.replicate (places - ds.length) '0' ++ ds)

/-- Scientific notation: one digit before the point, and the exponent with its sign. -/
def scientific (d : Decimal) : List Char :=
  let mantissa := match d.chars with
    | [] => []
    | [c] => [c]
    | c :: cs => c :: '.' :: cs
  let e := d.leading
  mantissa ++ 'e' :: (if 0 ≤ e then '+' else '-') :: Number.digits e.natAbs

/-- Numbers from `0.00001` up to but excluding `10 ^ 16` are written positionally and show at
least one place; all others are written scientifically. -/
def jsonLayout (d : Decimal) : List Char :=
  if d.digits = 0 then ['0', '.', '0']
  else if -5 ≤ d.leading ∧ d.leading < 16 then
    if 0 ≤ d.exponent then d.positional ++ ['.', '0'] else d.positional
  else d.scientific

end Decimal

end Punter.Number
