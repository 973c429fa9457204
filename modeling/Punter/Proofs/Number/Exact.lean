/-
# The exact numbers

With rational numbers the operations of `Scalar` are those of arithmetic.  The lemmas of this file
turn the numerals and the bounds of the library into their usual form.
-/
import Mathlib
import Punter.Number.Scalar

namespace Punter.Scalar

@[simp] lemma zero_eq : (OfScientific.ofScientific 0 true 1 : ℚ) = 0 := by norm_num

@[simp] lemma one_eq : (OfScientific.ofScientific 10 true 1 : ℚ) = 1 := by norm_num

lemma atLeast_eq (lo x : ℚ) : atLeast lo x = max lo x := by
  unfold atLeast
  split
  · next h => exact (max_eq_right h.le).symm
  · next h => exact (max_eq_left (not_lt.mp h)).symm

lemma atMost_eq (hi x : ℚ) : atMost hi x = min hi x := by
  unfold atMost
  split
  · next h => exact (min_eq_right h.le).symm
  · next h => exact (min_eq_left (not_lt.mp h)).symm

lemma clamp_eq {lo hi : ℚ} (h : lo ≤ hi) (x : ℚ) : clamp lo hi x = max lo (min hi x) := by
  unfold clamp
  split
  · next hlo => rw [max_eq_left (min_le_of_right_le hlo.le)]
  · next hlo =>
    split
    · next hhi => rw [min_eq_left hhi.le, max_eq_right h]
    · next hhi => rw [min_eq_right (not_lt.mp hhi), max_eq_right (not_lt.mp hlo)]

lemma abs_eq (x : ℚ) : Scalar.abs x = |x| := by
  unfold Scalar.abs
  rw [zero_eq]
  split
  · next h => exact (abs_of_neg h).symm
  · next h => exact (abs_of_nonneg (not_lt.mp h)).symm

lemma clamp_unit (x : ℚ) : clamp 0.0 1.0 x = max 0 (min 1 x) := by
  rw [zero_eq, one_eq, clamp_eq zero_le_one]

lemma sum_eq (xs : List ℚ) : sum xs = xs.sum := by
  rw [sum, zero_eq, neg_zero, List.sum_eq_foldl]

lemma within_iff (lo hi x : ℚ) : within lo hi x = true ↔ lo ≤ x ∧ x ≤ hi := by
  simp [within]

end Punter.Scalar
