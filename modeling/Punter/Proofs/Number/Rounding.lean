/-
# Rounding of exact numbers

Exact numbers are rounded to the nearest integer, and halves go away from zero.  Rounding keeps the
order of numbers and leaves integers as they are, and so does rounding to hundredths with the
hundredths; what is cut off at bounds keeps its order as well.  A number is moved by half a unit at
most, and by how much is said by comparing it with the middle between two units (`le_round2_iff`,
`round2_le_iff`).  This is all that is needed where stakes are scaled, rounded and cut off.
-/
import Mathlib
import Punter.Proofs.Number.Exact

namespace Punter

namespace Number

/-- Halves go up: a ratio is rounded by adding one half and cutting off. -/
lemma roundRatio_up {num den : ℕ} (hden : 0 < den) :
    roundRatio .up num den = (2 * num + den) / (2 * den) := by
  have hsplit := Nat.div_add_mod num den
  have hmod := Nat.mod_lt num hden
  unfold roundRatio
  dsimp only
  generalize num / den = q at *
  generalize num % den = r at *
  have hnum : 2 * num + den = 2 * den * q + (2 * r + den) := by
    rw [← hsplit]
    ring
  rw [hnum, Nat.mul_add_div (by omega)]
  split
  · next h => rw [Nat.div_eq_of_lt (by omega), Nat.add_zero]
  · next h =>
    have hone : (2 * r + den) / (2 * den) = 1 :=
      Nat.div_eq_of_lt_le (by omega) (by omega)
    rw [hone, ite_self]

lemma roundRat_of_nonneg {x : ℚ} (hx : 0 ≤ x) : roundRat x = ⌊x + 1 / 2⌋ := by
  have hden : (0 : ℚ) < x.den := by exact_mod_cast x.den_pos
  have hnum : (x.num.natAbs : ℚ) = x * x.den := by
    rw [Rat.mul_den_eq_num, Nat.cast_natAbs, abs_of_nonneg (Rat.num_nonneg.mpr hx)]
  have hhalf : x + 1 / 2 = ((2 * x.num.natAbs + x.den : ℕ) : ℚ) / ((2 * x.den : ℕ) : ℚ) := by
    push_cast
    rw [hnum]
    field_simp
  rw [roundRat, if_neg (not_lt.mpr hx), roundRatio_up x.den_pos, hhalf,
    Rat.floor_natCast_div_natCast, Int.natCast_ediv]

lemma roundRat_neg (x : ℚ) : roundRat (-x) = -roundRat x := by
  rcases lt_trichotomy x 0 with h | rfl | h
  · simp [roundRat, h, not_lt.mpr (neg_nonneg.mpr h.le)]
  · decide
  · simp [roundRat, h, not_lt.mpr h.le]

lemma roundRat_mono : Monotone roundRat := by
  intro x y hxy
  have hmono : ∀ {x y : ℚ}, 0 ≤ x → x ≤ y → roundRat x ≤ roundRat y := by
    intro x y hx hxy
    rw [roundRat_of_nonneg hx, roundRat_of_nonneg (hx.trans hxy)]
    exact Int.floor_le_floor (by linarith)
  rcases le_or_gt 0 x with hx | hx
  · exact hmono hx hxy
  · rcases le_or_gt y 0 with hy | hy
    · have h := hmono (neg_nonneg.mpr hy) (neg_le_neg hxy)
      rw [roundRat_neg, roundRat_neg] at h
      exact neg_le_neg_iff.mp h
    · -- zero lies in between
      have hx' : roundRat x ≤ 0 := by
        have h := hmono le_rfl (neg_nonneg.mpr hx.le)
        rw [roundRat_neg] at h
        exact neg_nonneg.mp h
      exact hx'.trans (hmono le_rfl hy.le)

@[simp] lemma roundRat_intCast (n : ℤ) : roundRat n = n := by
  have hnat : ∀ m : ℕ, roundRat m = m := by
    intro m
    rw [roundRat_of_nonneg (Nat.cast_nonneg m), ← Int.cast_natCast, Int.floor_intCast_add]
    norm_num
  rcases Int.eq_nat_or_neg n with ⟨m, rfl | rfl⟩
  · exact hnat m
  · rw [Int.cast_neg, roundRat_neg, Int.cast_natCast, hnat]

/-- From the middle between an integer and the one before it on, numbers are not rounded down. -/
lemma le_roundRat_iff {n : ℤ} {x : ℚ} (hx : 0 ≤ x) : n ≤ roundRat x ↔ n ≤ x + 1 / 2 := by
  rw [roundRat_of_nonneg hx, Int.le_floor]

/-- Up to the middle between an integer and the next one, numbers are not rounded up. -/
lemma roundRat_le_iff {n : ℤ} {x : ℚ} (hx : 0 ≤ x) : roundRat x ≤ n ↔ x + 1 / 2 < n + 1 := by
  rw [roundRat_of_nonneg hx, Int.floor_le_iff]

lemma abs_roundRat_sub_le (x : ℚ) : |roundRat x - x| ≤ 1 / 2 := by
  have hnonneg : ∀ {x : ℚ}, 0 ≤ x → |roundRat x - x| ≤ 1 / 2 := by
    intro x hx
    have hlow := Int.floor_le (x + 1 / 2)
    have hhigh := Int.lt_floor_add_one (x + 1 / 2)
    rw [roundRat_of_nonneg hx, abs_le]
    constructor <;> linarith
  rcases le_total 0 x with hx | hx
  · exact hnonneg hx
  · have h := hnonneg (neg_nonneg.mpr hx)
    rwa [roundRat_neg, Int.cast_neg, neg_sub_neg, abs_sub_comm] at h

end Number

namespace Scalar

open Number

/-- Rounding does not lead out of whole bounds. -/
lemma toCount_round_mem {low high : ℕ} {x : ℚ} (hlow : (low : ℚ) ≤ x) (hhigh : x ≤ high)
    (hsize : high < UInt64.size) :
    low ≤ toCount (round x) ∧ toCount (round x) ≤ high := by
  have hlow' : (low : ℤ) ≤ roundRat x := by
    have h := roundRat_mono hlow
    rwa [← Int.cast_natCast, roundRat_intCast] at h
  have hhigh' : roundRat x ≤ high := by
    have h := roundRat_mono hhigh
    rwa [← Int.cast_natCast (R := ℚ) high, roundRat_intCast] at h
  have hcount : toCount (round x) =
      min (roundRat x).toNat (UInt64.size - 1) := by
    change min ⌊((roundRat x : ℤ) : ℚ)⌋.toNat _ = _
    rw [Int.floor_intCast]
  rw [hcount]
  omega

lemma round2_eq (x : ℚ) : round2 x = roundRat (x * 100) / 100 := by
  unfold round2
  norm_num [Scalar.round]

lemma round2_mono : Monotone (round2 : ℚ → ℚ) := by
  intro x y hxy
  have h : roundRat (x * 100) ≤ roundRat (y * 100) := roundRat_mono (by linarith)
  rw [round2_eq, round2_eq]
  have h' : (roundRat (x * 100) : ℚ) ≤ roundRat (y * 100) := by exact_mod_cast h
  linarith

lemma abs_round2_sub_le (x : ℚ) : |round2 x - x| ≤ 1 / 200 := by
  have h := abs_roundRat_sub_le (x * 100)
  rw [abs_le] at h
  rw [round2_eq, abs_le]
  constructor <;> linarith

/-- A number is rounded to one that is not below `y` if the hundredth next to `y` is not above the
number by more than half. -/
lemma le_round2_iff {x y : ℚ} (hx : 0 ≤ x) : y ≤ round2 x ↔ ⌈y * 100⌉ ≤ x * 100 + 1 / 2 := by
  rw [round2_eq, le_div_iff₀ (by norm_num), ← Int.ceil_le,
    le_roundRat_iff (mul_nonneg hx (by norm_num))]

lemma round2_le_iff {x y : ℚ} (hx : 0 ≤ x) :
    round2 x ≤ y ↔ x * 100 + 1 / 2 < ⌊y * 100⌋ + 1 := by
  rw [round2_eq, div_le_iff₀ (by norm_num), ← Int.le_floor,
    roundRat_le_iff (mul_nonneg hx (by norm_num))]

lemma le_round2 {n : ℤ} {x : ℚ} (hx : 0 ≤ x) (hn : (n / 100 : ℚ) ≤ x + 1 / 200) :
    (n / 100 : ℚ) ≤ round2 x := by
  rw [le_round2_iff hx, div_mul_cancel₀ _ (by norm_num), Int.ceil_intCast]
  linarith

/-- Hundredths stay as they are. -/
@[simp] lemma round2_hundredths (n : ℤ) : round2 (n / 100 : ℚ) = n / 100 := by
  rw [round2_eq, div_mul_cancel₀ _ (by norm_num), roundRat_intCast]

@[simp] lemma round2_intCast (n : ℤ) : round2 (n : ℚ) = n := by
  have h : (n : ℚ) = ((n * 100 : ℤ) : ℚ) / 100 := by
    push_cast
    ring
  rw [h, round2_hundredths]

end Scalar

end Punter
