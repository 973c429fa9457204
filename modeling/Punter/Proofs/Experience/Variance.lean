/-
# The sample variance of exact rewards

The variance is computed in two passes, the first of which finds the mean.  With exact numbers it is
what the sum of the rewards and the sum of their squares say (`sum_squareFrom_mean`), and so it does
not depend on the order of the rewards.  It depends on how far they lie apart, but not on where they
lie: nothing happens to it when they are moved together, and where there is no distance between
them, and only there, it is zero.

All of this is said of the rewards in a window, which are the last ones.
-/
import Mathlib
import Punter.Proofs.Experience.Statistics
import Punter.Proofs.Number.Guarded

namespace Punter.Rewards

variable {w : Option ℕ} {xs ys : List ℚ}

/-! ## Windows -/

lemma window_of_le {T : Type} [Scalar T] {n : ℕ} {xs : List T} (h : xs.length ≤ n) :
    window (some n) xs = xs := by
  change xs.drop (xs.length - n) = xs
  rw [Nat.sub_eq_zero_of_le h, List.drop_zero]

/-- A window looks at the end of the rewards, and at as many as there are, whatever they are. -/
lemma window_append {us zs : List ℚ} (hlength : zs.length = (window w xs).length)
    (h : xs = us ++ window w xs) : window w (us ++ zs) = zs := by
  cases w with
  | none =>
    have hus : us = [] := List.append_left_eq_self.mp h.symm
    rw [hus]
    rfl
  | some n =>
    have htotal : (us ++ zs).length = xs.length := by
      rw [List.length_append, hlength, ← List.length_append, ← h]
    have hus : us.length = (us ++ zs).length - n := by
      change zs.length = (xs.drop (xs.length - n)).length at hlength
      rw [List.length_drop] at hlength
      rw [List.length_append] at htotal ⊢
      omega
    change (us ++ zs).drop ((us ++ zs).length - n) = zs
    rw [← hus, List.drop_left]

lemma window_map {T T' : Type} [Scalar T] [Scalar T'] (f : T → T') (w : Option ℕ) (xs : List T) :
    window w (xs.map f) = (window w xs).map f := by
  cases w with
  | none => rfl
  | some n =>
    change (xs.map f).drop ((xs.map f).length - n) = (xs.drop (xs.length - n)).map f
    rw [List.length_map, List.map_drop]

/-! ## Squares -/

lemma squareFrom_eq (m x : ℚ) : squareFrom m x = (x - m) ^ 2 := (sq _).symm

/-- Two rewards at least, so that the divisor is not zero. -/
lemma pred_ne_zero (h : 2 ≤ ys.length) : (ys.length : ℚ) - 1 ≠ 0 := by
  have hlength : (2 : ℚ) ≤ ys.length := by exact_mod_cast h
  linarith

lemma variance_of_lt (h : (window w xs).length < 2) : variance w xs = 0 := by
  rw [variance, if_pos h, Scalar.zero_eq]

lemma variance_of_le (h : 2 ≤ (window w xs).length) :
    variance w xs = ((window w xs).map (squareFrom (mean (window w xs)))).sum /
      ((window w xs).length - 1) := by
  rw [variance, if_neg (not_lt.mpr h), Scalar.sum_eq, Scalar.one_eq]
  rfl

/-- A window is all that the variance looks at. -/
lemma variance_window (w : Option ℕ) (xs : List ℚ) : variance none (window w xs) = variance w xs :=
  rfl

/-- The squares of the distances from the mean are what the squares of the rewards leave beyond the
square of their sum. -/
lemma sum_squareFrom_mean (ys : List ℚ) :
    (ys.map (squareFrom (mean ys))).sum = (ys.map (· ^ 2)).sum - ys.sum ^ 2 / ys.length := by
  have hexpand : ∀ (m : ℚ) (zs : List ℚ), (zs.map (squareFrom m)).sum =
      (zs.map (· ^ 2)).sum - 2 * m * zs.sum + zs.length * m ^ 2 := by
    intro m zs
    induction zs with
    | nil => simp
    | cons z zs ih =>
      rw [List.map_cons, List.sum_cons, ih, squareFrom_eq]
      push_cast [List.map_cons, List.sum_cons, List.length_cons]
      ring
  rw [hexpand, mean_eq]
  rcases eq_or_ne ys [] with rfl | hys
  · simp
  · have hlength : (ys.length : ℚ) ≠ 0 := by
      exact_mod_cast (List.length_pos_iff.mpr hys).ne'
    field_simp
    ring

lemma squares_nonneg (m : ℚ) : ∀ s ∈ ys.map (squareFrom m), 0 ≤ s := by
  rintro s hs
  obtain ⟨x, -, rfl⟩ := List.mem_map.mp hs
  rw [squareFrom_eq]
  exact sq_nonneg _

/-- Numbers that are all the same have the same mean. -/
lemma mean_of_forall_eq {c : ℚ} (hys : ys ≠ []) (h : ∀ x ∈ ys, x = c) : mean ys = c := by
  have hlength : (ys.length : ℚ) ≠ 0 := by
    exact_mod_cast (List.length_pos_iff.mpr hys).ne'
  rw [mean_eq, List.eq_replicate_of_mem h, List.sum_replicate, List.length_replicate,
    nsmul_eq_mul, mul_div_cancel_left₀ c hlength]

lemma sum_squares_eq_zero_iff (hys : ys ≠ []) :
    (ys.map (squareFrom (mean ys))).sum = 0 ↔ ∀ x ∈ ys, ∀ y ∈ ys, x = y := by
  constructor
  · intro hsum
    have hmean : ∀ x ∈ ys, x = mean ys := by
      intro x hx
      have hzero := List.all_zero_of_le_zero_le_of_sum_eq_zero (squares_nonneg _) hsum
        (List.mem_map_of_mem hx)
      rw [squareFrom_eq, sq_eq_zero_iff] at hzero
      exact sub_eq_zero.mp hzero
    intro x hx y hy
    rw [hmean x hx, hmean y hy]
  · intro hsame
    refine List.sum_eq_zero fun s hs => ?_
    obtain ⟨x, hx, rfl⟩ := List.mem_map.mp hs
    rw [mean_of_forall_eq hys fun y hy => hsame y hy x hx, squareFrom_eq, sub_self]
    exact zero_pow two_ne_zero

/-! ## What the variance depends on -/

lemma variance_nonneg (w : Option ℕ) (xs : List ℚ) : 0 ≤ variance w xs := by
  rcases lt_or_ge (window w xs).length 2 with h | h
  · rw [variance_of_lt h]
  · have hlength : (2 : ℚ) ≤ (window w xs).length := by exact_mod_cast h
    rw [variance_of_le h]
    exact div_nonneg (List.sum_nonneg (squares_nonneg _)) (by linarith)

lemma variance_eq_zero_iff (w : Option ℕ) (xs : List ℚ) :
    variance w xs = 0 ↔
      (window w xs).length < 2 ∨ ∀ x ∈ window w xs, ∀ y ∈ window w xs, x = y := by
  rcases lt_or_ge (window w xs).length 2 with h | h
  · exact ⟨fun _ => .inl h, fun _ => variance_of_lt h⟩
  · have hne : window w xs ≠ [] := List.length_pos_iff.mp (by omega)
    rw [variance_of_le h, div_eq_zero_iff, or_iff_left (pred_ne_zero h),
      or_iff_right (not_lt.mpr h)]
    exact sum_squares_eq_zero_iff hne

lemma mean_map_add (c : ℚ) (hys : ys ≠ []) : mean (ys.map (· + c)) = mean ys + c := by
  have hlength : (ys.length : ℚ) ≠ 0 := by
    exact_mod_cast (List.length_pos_iff.mpr hys).ne'
  have hsum : (ys.map (· + c)).sum = ys.sum + ys.length * c := by
    rw [List.sum_map_add, List.map_id', List.map_const', List.sum_replicate, nsmul_eq_mul]
  rw [mean_eq, mean_eq, hsum, List.length_map]
  field_simp

/-- Only distances matter. -/
lemma variance_map_add (w : Option ℕ) (xs : List ℚ) (c : ℚ) :
    variance w (xs.map (· + c)) = variance w xs := by
  have hlength : (window w (xs.map (· + c))).length = (window w xs).length := by
    rw [window_map, List.length_map]
  rcases lt_or_ge (window w xs).length 2 with h | h
  · rw [variance_of_lt h, variance_of_lt (hlength.trans_lt h)]
  · have hne : window w xs ≠ [] := List.length_pos_iff.mp (by omega)
    have hsquare : ∀ m : ℚ, squareFrom (m + c) ∘ (· + c) = squareFrom m := by
      intro m
      funext x
      simp only [Function.comp_apply, squareFrom_eq, add_sub_add_right_eq_sub]
    rw [variance_of_le h, variance_of_le (hlength.symm ▸ h), hlength, window_map,
      mean_map_add c hne, List.map_map, hsquare]

/-- Distances grow with the unit in which they are measured. -/
lemma variance_map_mul (w : Option ℕ) (xs : List ℚ) (c : ℚ) :
    variance w (xs.map (c * ·)) = c ^ 2 * variance w xs := by
  have hlength : (window w (xs.map (c * ·))).length = (window w xs).length := by
    rw [window_map, List.length_map]
  rcases lt_or_ge (window w xs).length 2 with h | h
  · rw [variance_of_lt h, variance_of_lt (hlength.trans_lt h), mul_zero]
  · have hmean : mean ((window w xs).map (c * ·)) = c * mean (window w xs) := by
      rw [mean_eq, mean_eq, List.sum_map_mul_left, List.map_id', List.length_map, mul_div_assoc]
    have hsquare : ∀ m : ℚ, squareFrom (c * m) ∘ (c * ·) = fun x => c ^ 2 * squareFrom m x := by
      intro m
      funext x
      simp only [Function.comp_apply, squareFrom_eq]
      ring
    rw [variance_of_le h, variance_of_le (hlength.symm ▸ h), hlength, window_map, hmean,
      List.map_map, hsquare, List.sum_map_mul_left, mul_div_assoc]

/-- The order of the rewards does not matter. -/
lemma variance_of_perm {zs : List ℚ} (h : zs.Perm ys) : variance none zs = variance none ys := by
  rcases lt_or_ge ys.length 2 with hlt | hle
  · rw [variance_of_lt (w := none) hlt, variance_of_lt (w := none) (h.length_eq.trans_lt hlt)]
  · rw [variance_of_le (w := none) hle, variance_of_le (w := none) (h.length_eq.symm ▸ hle)]
    change (zs.map (squareFrom (mean zs))).sum / (zs.length - 1) =
      (ys.map (squareFrom (mean ys))).sum / (ys.length - 1)
    rw [sum_squareFrom_mean, sum_squareFrom_mean, (h.map _).sum_eq, h.sum_eq, h.length_eq]

/-! ## Divisions -/

lemma mean_map_of (hys : ys ≠ []) : mean (ys.map Guarded.of) = .of (mean ys) := by
  have hlength : (ys.length : ℚ) ≠ 0 := by
    exact_mod_cast (List.length_pos_iff.mpr hys).ne'
  have hempty : ys.isEmpty = false := by simpa using hys
  have hempty' : (ys.map Guarded.of).isEmpty = false := by simpa using hys
  simp only [mean, hempty, hempty', Bool.false_eq_true, if_false, Guarded.sum_map_of,
    List.length_map]
  exact Guarded.of_div hlength _

/-- No division by zero is met. -/
lemma variance_map_of (w : Option ℕ) (xs : List ℚ) :
    variance w (xs.map Guarded.of) = .of (variance w xs) := by
  have hlength : (window w (xs.map Guarded.of)).length = (window w xs).length := by
    rw [window_map, List.length_map]
  rcases lt_or_ge (window w xs).length 2 with h | h
  · rw [variance, variance, if_pos h, if_pos (hlength.trans_lt h)]
    rfl
  · have hne : window w xs ≠ [] := List.length_pos_iff.mp (by omega)
    have hsquares : ((window w xs).map Guarded.of).map
        (squareFrom (mean ((window w xs).map Guarded.of))) =
          ((window w xs).map (squareFrom (mean (window w xs)))).map Guarded.of := by
      rw [mean_map_of hne, List.map_map, List.map_map]
      rfl
    have hdivisor : Scalar.ofNat (window w xs).length - (1.0 : ℚ) ≠ 0 := by
      rw [Scalar.one_eq]
      exact pred_ne_zero h
    rw [variance, variance, if_neg (not_lt.mpr h), if_neg (hlength.symm ▸ not_lt.mpr h)]
    rw [hlength, window_map, hsquares, Guarded.sum_map_of]
    exact Guarded.of_div hdivisor _

/-- **Sample variance.**  It is never negative, and no division by zero is met on the way.  It stays
the same when a number is added to all rewards, and is multiplied by the square of a number by which
all are multiplied.  A window that is shorter than the list looks at the last rewards, and any other
at all of them.  Of two rewards or more the variance is what remains of the squares beyond the mean
part of the squared sum, divided by one less than their number; it is zero exactly if there are
fewer than two rewards or all are the same; and those in the window may change places. -/
theorem variance_sample (w : Option ℕ) (xs : List ℚ) :
    0 ≤ variance w xs ∧
      variance w (xs.map Guarded.of) = .of (variance w xs) ∧
      (∀ c, variance w (xs.map (· + c)) = variance w xs) ∧
      (∀ c, variance w (xs.map (c * ·)) = c ^ 2 * variance w xs) ∧
      let ys := window w xs
      (∀ n, w = some n → n < xs.length →
        ys = xs.rtake n ∧ variance w xs = variance none (xs.rtake n)) ∧
      ((∀ n, w = some n → xs.length ≤ n) → ys = xs ∧ variance w xs = variance none xs) ∧
      (2 ≤ ys.length → variance w xs =
        ((ys.map (· ^ 2)).sum - ys.sum ^ 2 / ys.length) / (ys.length - 1)) ∧
      (variance w xs = 0 ↔ ys.length < 2 ∨ ∀ x ∈ ys, ∀ y ∈ ys, x = y) ∧
      ∀ us zs, xs = us ++ ys → zs.Perm ys → variance w (us ++ zs) = variance w xs := by
  refine ⟨variance_nonneg w xs, variance_map_of w xs, variance_map_add w xs,
    variance_map_mul w xs, ?_⟩
  intro ys
  refine ⟨?_, ?_, ?_, variance_eq_zero_iff w xs, ?_⟩
  · rintro n rfl -
    exact ⟨rfl, rfl⟩
  · intro hall
    have hys : ys = xs := by
      cases w with
      | none => rfl
      | some n => exact window_of_le (hall n rfl)
    exact ⟨hys, by rw [← variance_window w xs, show window w xs = xs from hys]⟩
  · intro htwo
    rw [variance_of_le htwo, sum_squareFrom_mean]
  · intro us zs hxs hperm
    have hwindow : window w (us ++ zs) = zs := window_append hperm.length_eq hxs
    rw [← variance_window w (us ++ zs), hwindow, variance_of_perm hperm, variance_window]

example : variance (some 3) ([100, -50, 2, 4, 6] : List ℚ) = 4 := by decide +kernel

end Punter.Rewards
