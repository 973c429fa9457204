/-
# How far an adaptation moves stakes

The factor of an adaptation differs from one by at most fifteen percent.  The scaled stake is
rounded, however, and so a stake may be moved by half a hundredth more than that
(`abs_scaleBet_sub_le`); 51 hundredths become 59, for instance, which are eight more where fifteen
percent are less than eight.

`abs_scaleBet_sub_le_iff` says when a stake stays within fifteen percent: rounding must not lead out
of them (`RoundsWithin`).  It never does for a stake that is a multiple of 20 hundredths, as fifteen
percent of it are whole hundredths.
-/
import Mathlib
import Punter.Proofs.Profile.Direction

namespace Punter.Profile

open Rewards (trailingMean)

variable {factor bet x : ℚ}

/-! ## One stake -/

lemma le_scaleBet_iff (hx : x ≤ 100) :
    x ≤ scaleBet factor bet ↔ x ≤ 1 / 2 ∨ x ≤ Scalar.round2 (bet * factor) := by
  rw [scaleBet_eq, le_max_iff, le_min_iff, and_iff_right hx]

lemma scaleBet_le_iff (hx : 1 / 2 ≤ x) :
    scaleBet factor bet ≤ x ↔ 100 ≤ x ∨ Scalar.round2 (bet * factor) ≤ x := by
  rw [scaleBet_eq, max_le_iff, min_le_iff, and_iff_right hx]

/-- Cutting off at bounds brings a number nearer to those between the bounds. -/
lemma abs_cut_sub_le {low high : ℚ} (hlow : low ≤ bet) (hhigh : bet ≤ high) (x : ℚ) :
    |max low (min high x) - bet| ≤ |x - bet| :=
  calc |max low (min high x) - bet|
      = |max (min high x) low - max (min high bet) low| := by
        rw [min_eq_right hhigh, max_eq_left hlow, max_comm]
    _ ≤ |min high x - min high bet| := abs_max_sub_max_le_abs _ _ _
    _ ≤ max |high - high| |x - bet| := abs_min_sub_min_le_max _ _ _ _
    _ = |x - bet| := by rw [sub_self, abs_zero, max_eq_right (abs_nonneg _)]

/-- A stake is moved by fifteen percent of it in scaling and by half a hundredth in rounding. -/
lemma abs_scaleBet_sub_le (hlow : 1 / 2 ≤ bet) (hhigh : bet ≤ 100)
    (hfactor : 17 / 20 ≤ factor ∧ factor ≤ 23 / 20) :
    |scaleBet factor bet - bet| ≤ 3 / 20 * bet + 1 / 200 := by
  have hscale : |bet * factor - bet| ≤ 3 / 20 * bet := by
    rw [abs_le]
    constructor <;> nlinarith
  calc |scaleBet factor bet - bet|
      ≤ |Scalar.round2 (bet * factor) - bet| := by
        rw [scaleBet_eq]
        exact abs_cut_sub_le hlow hhigh _
    _ ≤ |Scalar.round2 (bet * factor) - bet * factor| + |bet * factor - bet| := abs_sub_le _ _ _
    _ ≤ 1 / 200 + 3 / 20 * bet := add_le_add (Scalar.abs_round2_sub_le _) hscale
    _ = 3 / 20 * bet + 1 / 200 := add_comm _ _

/-- Rounding the scaled stake does not lead out of fifteen percent of the stake, or what is led out
is cut off. -/
structure RoundsWithin (factor bet : ℚ) : Prop where
  down : 17 / 20 * bet ≤ 1 / 2 ∨ ⌈85 * bet⌉ ≤ 100 * (factor * bet) + 1 / 2
  up : 100 ≤ 23 / 20 * bet ∨ 100 * (factor * bet) + 1 / 2 < ⌊115 * bet⌋ + 1

lemma abs_scaleBet_sub_le_iff (hlow : 1 / 2 ≤ bet) (hhigh : bet ≤ 100) (hfactor : 0 ≤ factor) :
    |scaleBet factor bet - bet| ≤ 3 / 20 * bet ↔ RoundsWithin factor bet := by
  have hproduct : 0 ≤ bet * factor := mul_nonneg (by linarith) hfactor
  have hdown : 17 / 20 * bet ≤ scaleBet factor bet ↔
      17 / 20 * bet ≤ 1 / 2 ∨ ⌈85 * bet⌉ ≤ 100 * (factor * bet) + 1 / 2 := by
    rw [le_scaleBet_iff (by linarith), Scalar.le_round2_iff hproduct]
    ring_nf
  have hup : scaleBet factor bet ≤ 23 / 20 * bet ↔
      100 ≤ 23 / 20 * bet ∨ 100 * (factor * bet) + 1 / 2 < ⌊115 * bet⌋ + 1 := by
    rw [scaleBet_le_iff (by linarith), Scalar.round2_le_iff hproduct]
    ring_nf
  calc |scaleBet factor bet - bet| ≤ 3 / 20 * bet
      ↔ 17 / 20 * bet ≤ scaleBet factor bet ∧ scaleBet factor bet ≤ 23 / 20 * bet := by
        rw [abs_le]
        constructor <;> rintro ⟨h, h'⟩ <;> constructor <;> linarith
    _ ↔ RoundsWithin factor bet := by
        rw [hdown, hup]
        exact ⟨fun ⟨h, h'⟩ => ⟨h, h'⟩, fun h => ⟨h.down, h.up⟩⟩

/-- Fifteen percent of a multiple of 20 hundredths are whole hundredths, which are not rounded. -/
lemma roundsWithin_fifths {n : ℤ} (hn : 0 ≤ n) (hfactor : 17 / 20 ≤ factor ∧ factor ≤ 23 / 20) :
    RoundsWithin factor (n / 5) := by
  have hcast : (0 : ℚ) ≤ n := by exact_mod_cast hn
  have hceil : ⌈(85 * (n / 5) : ℚ)⌉ = 17 * n := by
    rw [← Int.ceil_intCast (R := ℚ) (17 * n)]
    push_cast
    ring_nf
  have hfloor : ⌊(115 * (n / 5) : ℚ)⌋ = 23 * n := by
    rw [← Int.floor_intCast (R := ℚ) (23 * n)]
    push_cast
    ring_nf
  refine ⟨.inr ?_, .inr ?_⟩
  · rw [hceil]
    push_cast
    nlinarith
  · rw [hfloor]
    push_cast
    nlinarith

/-! ## Both stakes -/

/-- **Moves.**  No rewards move a stake of a profile that is accepted by more than fifteen percent of
it and half a hundredth.  They move it by fifteen percent at most exactly if nothing is adapted or
rounding does not lead out of that; it never does for a multiple of 20 hundredths. -/
theorem adapt_moves_stakes {p : Profile ℚ} (hp : p.check = .ok ()) (rewards : List ℚ)
    (window : ℕ) :
    ∀ stake ∈ ([minBet, maxBet] : List (Profile ℚ → ℚ)),
      let bet := stake p
      let bet' := stake (p.adapt rewards window)
      |bet' - bet| ≤ 3 / 20 * bet + 1 / 200 ∧
        (|bet' - bet| ≤ 3 / 20 * bet ↔ window = 0 ∨ rewards.length < window ∨
          RoundsWithin (scaleFactor (trailingMean window rewards)) bet) ∧
        ((∃ n : ℤ, bet = n / 5) → |bet' - bet| ≤ 3 / 20 * bet) := by
  rw [check_eq_ok_iff] at hp
  intro stake hstake bet bet'
  have hbounds : 1 / 2 ≤ bet ∧ bet ≤ 100 := by
    rcases List.mem_pair.mp hstake with rfl | rfl
    · exact ⟨hp.floor_le, hp.minBet_le.trans hp.le_ceiling⟩
    · exact ⟨hp.floor_le.trans hp.minBet_le, hp.le_ceiling⟩
  obtain ⟨hlow, hhigh⟩ := hbounds
  by_cases hadapts : window = 0 ∨ rewards.length < window
  · have hsame : bet' = bet := congrArg stake (if_pos hadapts)
    have hnone : |bet' - bet| ≤ 3 / 20 * bet := by
      rw [hsame, sub_self, abs_zero]
      linarith
    exact ⟨by linarith, ⟨fun _ => hadapts.imp_right .inl, fun _ => hnone⟩, fun _ => hnone⟩
  · obtain ⟨hwindow, hrewards⟩ := not_or.mp hadapts
    have hadapt := adapt_eq_scaled p (Nat.one_le_iff_ne_zero.mpr hwindow) (not_lt.mp hrewards)
    have hfactor := scaleFactor_mem (trailingMean window rewards)
    have hscaled : bet' = scaleBet (scaleFactor (trailingMean window rewards)) bet := by
      rcases List.mem_pair.mp hstake with rfl | rfl <;> simp only [bet', hadapt] <;> rfl
    have hiff := abs_scaleBet_sub_le_iff hlow hhigh (scaleFactor_nonneg (trailingMean window rewards))
    rw [hscaled]
    refine ⟨abs_scaleBet_sub_le hlow hhigh hfactor, ?_, ?_⟩
    · rw [hiff, or_iff_right hwindow, or_iff_right hrewards]
    · rintro ⟨n, hn⟩
      have hnonneg : (0 : ℚ) ≤ n := by linarith
      rw [hiff, hn]
      exact roundsWithin_fifths (by exact_mod_cast hnonneg) hfactor

/-- 64 hundredths fall by ten, which is more than fifteen percent of them; 220 hundredths rise by 33,
which is not. -/
theorem adapt_moves_stakes_two :
    let p : Profile ℚ := { Profile.standard with minBet := 16 / 25, maxBet := 11 / 5 }
    p.check = .ok () ∧
      |(p.adapt [-5, -7] 2).minBet - p.minBet| ≤ 3 / 20 * p.minBet + 1 / 200 ∧
      ¬ RoundsWithin (scaleFactor (trailingMean 2 [-5, -7])) p.minBet ∧
      |(p.adapt [5, 7] 2).maxBet - p.maxBet| ≤ 3 / 20 * p.maxBet ∧
      (p.adapt [-5, -7] 2).minBet = 27 / 50 ∧ (p.adapt [5, 7] 2).maxBet = 253 / 100 := by
  intro p
  have hp : p.check = .ok () := by decide +kernel
  obtain ⟨hslack, hiff, -⟩ := adapt_moves_stakes hp [-5, -7] 2 minBet (by simp)
  obtain ⟨-, -, hfifths⟩ := adapt_moves_stakes hp [5, 7] 2 maxBet (by simp)
  refine ⟨hp, hslack, fun h => ?_, hfifths ⟨11, by norm_num [p]⟩, by decide +kernel,
    by decide +kernel⟩
  have hshare := hiff.mpr (.inr (.inr h))
  revert hshare
  decide +kernel

/-- A single adaptation can move a stake by more than fifteen percent of it. -/
theorem adapt_exceeds_share :
    ¬ ∀ (p : Profile ℚ) (rewards : List ℚ) (window : ℕ), p.check = .ok () →
      |(p.adapt rewards window).minBet - p.minBet| ≤ 3 / 20 * p.minBet ∧
        |(p.adapt rewards window).maxBet - p.maxBet| ≤ 3 / 20 * p.maxBet := by
  intro h
  have hmin := (h { Profile.standard with minBet := 51 / 100 } [3] 1 (by decide +kernel)).1
  revert hmin
  decide +kernel

end Punter.Profile
