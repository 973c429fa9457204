/-
# Statistics of exact rewards

With exact numbers the sum of rewards is their sum in the usual sense, in whatever order it is
taken, and the mean of a window is the sum of the last rewards divided by their number.
-/
import Mathlib
import Punter.Experience.Statistics
import Punter.Proofs.Number.Exact

namespace Punter.Rewards

lemma last_eq_rtake {T : Type} (n : ℕ) (xs : List T) : last n xs = xs.rtake n := rfl

lemma length_last {T : Type} {n : ℕ} {xs : List T} (h : n ≤ xs.length) :
    (last n xs).length = n := by
  rw [last, List.length_drop, Nat.sub_sub_self h]

lemma mean_eq (xs : List ℚ) : mean xs = xs.sum / xs.length := by
  unfold mean
  split
  · next h =>
    rw [List.isEmpty_iff.mp h]
    simp
  · rw [Scalar.sum_eq]
    rfl

/-- The mean of the last `n` rewards of a list that has so many. -/
def trailingMean (n : ℕ) (xs : List ℚ) : ℚ := (xs.rtake n).sum / n

lemma mean_last {n : ℕ} {xs : List ℚ} (h : n ≤ xs.length) : mean (last n xs) = trailingMean n xs := by
  rw [mean_eq, length_last h, last_eq_rtake, trailingMean]

lemma trailingMean_le_of_forall₂ {n : ℕ} {xs ys : List ℚ}
    (h : List.Forall₂ (· ≤ ·) (xs.rtake n) (ys.rtake n)) :
    trailingMean n xs ≤ trailingMean n ys :=
  div_le_div_of_nonneg_right h.sum_le_sum (Nat.cast_nonneg n)

end Punter.Rewards
