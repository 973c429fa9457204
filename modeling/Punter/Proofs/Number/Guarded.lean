/-
# Divisions that are watched

With exact numbers a division by zero gives zero, and so it would not show in a result.  Guarded
numbers are exact numbers together with one more, which is what comes of a division by zero and of
everything that is computed with it.  A computation is free of such divisions if it comes to the
same number with guarded numbers as with exact ones.
-/
import Mathlib
import Punter.Proofs.Number.Exact

namespace Punter

/-- An exact number, or what comes of a division by zero. -/
inductive Guarded where
  | of (x : ℚ)
  | undefined
  deriving DecidableEq

namespace Guarded

/-- The result of an operation on exact numbers. -/
def map (f : ℚ → ℚ) : Guarded → Guarded
  | of x => of (f x)
  | undefined => undefined

/-- The result of an operation on two exact numbers. -/
def map₂ (f : ℚ → ℚ → ℚ) : Guarded → Guarded → Guarded
  | of x, of y => of (f x y)
  | _, _ => undefined

/-- The quotient, where there is one. -/
def div : Guarded → Guarded → Guarded
  | of x, of y => if y = 0 then undefined else of (x / y)
  | _, _ => undefined

/-- Whether two exact numbers are related; what is undefined is related to nothing. -/
def Related (r : ℚ → ℚ → Prop) : Guarded → Guarded → Prop
  | of x, of y => r x y
  | _, _ => False

instance (r : ℚ → ℚ → Prop) [DecidableRel r] : DecidableRel (Related r)
  | of x, of y => inferInstanceAs (Decidable (r x y))
  | of _, undefined => .isFalse not_false
  | undefined, _ => .isFalse not_false

/-- What is said of a number, and something else where there is none. -/
def elim {T : Type} (otherwise : T) (f : ℚ → T) : Guarded → T
  | of x => f x
  | undefined => otherwise

instance : Scalar Guarded where
  add := map₂ (· + ·)
  sub := map₂ (· - ·)
  mul := map₂ (· * ·)
  div := div
  neg := map (- ·)
  lt := Related (· < ·)
  le := Related (· ≤ ·)
  beq x y := decide (x = y)
  ofScientific m s e := of (OfScientific.ofScientific m s e)
  decLT := inferInstanceAs (DecidableRel (Related (· < ·)))
  decLE := inferInstanceAs (DecidableRel (Related (· ≤ ·)))
  ofNat n := of (Scalar.ofNat n)
  ofDecimal negative d := (Scalar.ofDecimal negative d).map of
  isFinite := elim false Scalar.isFinite
  round := map Scalar.round
  toCount := elim 0 Scalar.toCount
  text := elim "NaN" Scalar.text
  jsonText := elim "NaN" Scalar.jsonText
  fixedText places := elim "NaN" (Scalar.fixedText places)

lemma of_div {y : ℚ} (hy : y ≠ 0) (x : ℚ) : of x / of y = of (x / y) := if_neg hy

example : of 1 / of 0 + of 2 = undefined := rfl

lemma sum_map_of (xs : List ℚ) : Scalar.sum (xs.map of) = of (Scalar.sum xs) := by
  have hfold : ∀ start : ℚ, (xs.map of).foldl (· + ·) (of start) = of (xs.foldl (· + ·) start) := by
    induction xs with
    | nil => exact fun _ => rfl
    | cons x xs ih => exact fun start => ih (start + x)
  exact hfold _

end Guarded

end Punter
