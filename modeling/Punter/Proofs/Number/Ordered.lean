/-
# Comparisons that fit together

Whether a number lies in an interval is checked with `≤`, and numbers are moved into intervals with
`<`.  So it takes a law of the numbers that what has been accepted stays where it is.  Exact ratios
have this law, and doubles have it too: where one of the two is not a number all comparisons fail,
and otherwise both say the same about the order, seen from either side.
-/
import Mathlib
import Punter.Number.Scalar

namespace Punter

namespace Scalar

/-- Numbers whose two comparisons do not contradict each other. -/
class Ordered (α : Type) [Scalar α] : Prop where
  not_lt_of_le {x y : α} : x ≤ y → ¬ y < x

instance : Ordered ℚ := ⟨fun h => not_lt.mpr h⟩

variable {α : Type} [Scalar α] [Ordered α] {lo hi x : α}

/-- What lies in an interval is not moved. -/
lemma clamp_of_within (h : within lo hi x = true) : clamp lo hi x = x := by
  obtain ⟨hlo, hhi⟩ : lo ≤ x ∧ x ≤ hi := by simpa [within] using h
  rw [clamp, if_neg (Ordered.not_lt_of_le hlo), if_neg (Ordered.not_lt_of_le hhi)]

end Scalar

namespace Number

open Float.Model (UnpackedFloat)

/-- The order of two doubles is the one seen from the other side.  The cases are those by which
doubles are compared: infinite and zero ones by their signs, all others by exponent and digits. -/
lemma compare_eq_swap (x y : UnpackedFloat) : x.compare y = (y.compare x).map Ordering.swap := by
  cases x with
  | notANumber => cases y <;> rfl
  | infinity s =>
    cases y with
    | infinity t => cases s <;> cases t <;> rfl
    | _ => cases s <;> rfl
  | zero s =>
    cases y with
    | infinity t => cases t <;> rfl
    | finite t n f hn => cases t <;> rfl
    | _ => rfl
  | finite s m e hm =>
    cases y with
    | notANumber => cases s <;> rfl
    | infinity t => cases t <;> rfl
    | zero t => cases s <;> rfl
    | finite t n f hn =>
      have hswap : ((compare e f).then (compare m n)).swap =
          (compare f e).then (compare n m) := by
        rw [Ordering.swap_then, ← Std.OrientedOrd.eq_swap, ← Std.OrientedOrd.eq_swap]
      cases s <;> cases t
      · exact congrArg some (by rw [hswap, Ordering.swap_swap])
      · rfl
      · rfl
      · exact congrArg some (by rw [← hswap, Ordering.swap_swap])

end Number

/-- Doubles compare like ratios, as far as they compare at all. -/
instance : Scalar.Ordered Float where
  not_lt_of_le {x y} hle hlt := by
    have hle' : (x.toModel.unpack.compare y.toModel.unpack).any (·.isLE) = true :=
      of_decide_eq_true hle
    have hlt' : (y.toModel.unpack.compare x.toModel.unpack == some .lt) = true :=
      of_decide_eq_true hlt
    rw [Number.compare_eq_swap, beq_iff_eq.mp hlt'] at hle'
    exact absurd hle' (by decide)

end Punter
