/-
# Adapted profiles

A profile that may be played with may still be played with after it was adapted to any rewards.
What has to be shown for this is that the smallest stake does not overtake the largest one: the two
are scaled by one factor, rounded and cut off each on its own, and each of these three keeps their
order.

All that an episode can do to a profile is said by `adapt_cases`.
-/
import Mathlib
import Punter.Proofs.Experience.Statistics
import Punter.Proofs.Number.Rounding
import Punter.Profile.Adapt

namespace Punter.Profile

@[simp] lemma floor_eq : (floor : ℚ) = 1 / 2 := by norm_num [floor]

@[simp] lemma ceiling_eq : (ceiling : ℚ) = 100 := by norm_num [ceiling]

/-- What a profile has to satisfy to be played with. -/
structure Playable (p : Profile ℚ) : Prop where
  floor_le : 1 / 2 ≤ p.minBet
  minBet_le : p.minBet ≤ p.maxBet
  le_ceiling : p.maxBet ≤ 100
  minDelay_le : p.minDelay ≤ p.maxDelay
  weight_mem : ∀ w, p.rewardWeight = some w → 0 ≤ w ∧ w ≤ 1

lemma flaw?_eq_none_iff (p : Profile ℚ) : p.flaw? = none ↔ p.Playable := by
  simp only [flaw?, floor_eq, ceiling_eq]
  constructor
  · intro h
    split_ifs at h with hfinite hfloor hceiling hcrossed hdelays
    refine ⟨hfloor, hcrossed, hceiling, not_lt.mp hdelays, fun w hw => ?_⟩
    simpa [hw, Scalar.within_iff] using h
  · intro h
    rw [if_neg (by simp [Scalar.isFinite]), if_neg (not_not.mpr h.floor_le),
      if_neg (not_not.mpr h.le_ceiling), if_neg (not_not.mpr h.minBet_le),
      if_neg (not_lt.mpr h.minDelay_le)]
    cases hw : p.rewardWeight with
    | none => rfl
    | some w => simp [Scalar.within_iff, h.weight_mem w hw]

/-- With exact numbers, the profiles that are accepted are those that may be played with. -/
lemma check_eq_ok_iff (p : Profile ℚ) : p.check = .ok () ↔ p.Playable := by
  rw [← flaw?_eq_none_iff, check]
  cases p.flaw? <;> simp

/-! ## Scaled stakes -/

/-- The two caps meet at a mean of zero, where neither is reached: so the factor follows the mean
with both of them, whatever its sign. -/
lemma scaleFactor_eq (mean : ℚ) :
    scaleFactor mean = max (17 / 20) (min (23 / 20) (1 + mean / 20)) := by
  have hmax : (maxFactor : ℚ) = 23 / 20 := by norm_num [maxFactor]
  have hmin : (minFactor : ℚ) = 17 / 20 := by norm_num [minFactor]
  have hraw : (1.0 + mean * sensitivity : ℚ) = 1 + mean / 20 := by
    norm_num [sensitivity]
    ring
  unfold scaleFactor
  rw [if_neg (by simp [Scalar.isFinite])]
  simp only [hmax, hmin, hraw, Scalar.atMost_eq, Scalar.atLeast_eq, Scalar.zero_eq]
  split
  · next hmean => exact (max_eq_right (le_min (by norm_num) (by linarith))).symm
  · next hmean => rw [min_eq_right (by linarith)]

lemma scaleFactor_mem (mean : ℚ) : 17 / 20 ≤ scaleFactor mean ∧ scaleFactor mean ≤ 23 / 20 := by
  rw [scaleFactor_eq]
  exact ⟨le_max_left _ _, max_le (by norm_num) (min_le_left _ _)⟩

lemma scaleFactor_nonneg (mean : ℚ) : 0 ≤ scaleFactor mean :=
  le_trans (by norm_num) (scaleFactor_mem mean).1

lemma scaleBet_eq (factor bet : ℚ) :
    scaleBet factor bet = max (1 / 2) (min 100 (Scalar.round2 (bet * factor))) := by
  rw [scaleBet, floor_eq, ceiling_eq, Scalar.clamp_eq (by norm_num)]

lemma scaleBet_le_scaleBet {factor factor' bet bet' : ℚ} (hfactor : 0 ≤ factor)
    (hfactors : factor ≤ factor') (hbet : 0 ≤ bet) (hbets : bet ≤ bet') :
    scaleBet factor bet ≤ scaleBet factor' bet' := by
  have hproduct : bet * factor ≤ bet' * factor' :=
    mul_le_mul hbets hfactors hfactor (hbet.trans hbets)
  rw [scaleBet_eq, scaleBet_eq]
  exact max_le_max_left _ (min_le_min_left _ (Scalar.round2_mono hproduct))

lemma floor_le_scaleBet (factor bet : ℚ) : 1 / 2 ≤ scaleBet factor bet := by
  rw [scaleBet_eq]
  exact le_max_left _ _

lemma scaleBet_le_ceiling (factor bet : ℚ) : scaleBet factor bet ≤ 100 := by
  rw [scaleBet_eq]
  exact max_le (by norm_num) (min_le_left _ _)

/-! ## Adapted profiles -/

section Scaled

variable {α : Type} [Scalar α]

/-- The profile with its stakes scaled by a factor. -/
def scaled (factor : α) (p : Profile α) : Profile α :=
  { p with minBet := scaleBet factor p.minBet, maxBet := scaleBet factor p.maxBet }

lemma adapt_of_le {window : ℕ} {rewards : List α} (p : Profile α) (hwindow : 1 ≤ window)
    (hrewards : window ≤ rewards.length) :
    p.adapt rewards window =
      p.scaled (scaleFactor (Rewards.mean (Rewards.last window rewards))) := by
  rw [adapt, if_neg (by omega), scaled]

/-- An episode leaves the profile alone or scales its stakes. -/
lemma adapt_cases (p : Profile α) (rewards : List α) (window : ℕ) :
    p.adapt rewards window = p ∨ ∃ mean, p.adapt rewards window = p.scaled (scaleFactor mean) := by
  by_cases h : 1 ≤ window ∧ window ≤ rewards.length
  · exact .inr ⟨_, adapt_of_le p h.1 h.2⟩
  · exact .inl (if_pos (by omega))

end Scaled

/-- Two profiles that differ in their stakes at most. -/
structure SameButStakes {α : Type} (p q : Profile α) : Prop where
  currency : q.currency = p.currency
  minDelay : q.minDelay = p.minDelay
  maxDelay : q.maxDelay = p.maxDelay
  rewardWeight : q.rewardWeight = p.rewardWeight
  behavior : q.behavior = p.behavior

lemma SameButStakes.refl {α : Type} (p : Profile α) : p.SameButStakes p :=
  ⟨rfl, rfl, rfl, rfl, rfl⟩

lemma SameButStakes.trans {α : Type} {p q r : Profile α} (h : p.SameButStakes q)
    (h' : q.SameButStakes r) : p.SameButStakes r where
  currency := h'.currency.trans h.currency
  minDelay := h'.minDelay.trans h.minDelay
  maxDelay := h'.maxDelay.trans h.maxDelay
  rewardWeight := h'.rewardWeight.trans h.rewardWeight
  behavior := h'.behavior.trans h.behavior

lemma sameButStakes_adapt {α : Type} [Scalar α] (p : Profile α) (rewards : List α)
    (window : ℕ) : p.SameButStakes (p.adapt rewards window) := by
  rcases p.adapt_cases rewards window with h | ⟨mean, h⟩ <;> rw [h]
  · exact .refl p
  · exact ⟨rfl, rfl, rfl, rfl, rfl⟩

variable {p : Profile ℚ}

lemma Playable.scaled (hp : p.Playable) {factor : ℚ} (hfactor : 0 ≤ factor) :
    (p.scaled factor).Playable where
  floor_le := floor_le_scaleBet _ _
  minBet_le :=
    scaleBet_le_scaleBet hfactor le_rfl (le_trans (by norm_num) hp.floor_le) hp.minBet_le
  le_ceiling := scaleBet_le_ceiling _ _
  minDelay_le := hp.minDelay_le
  weight_mem := hp.weight_mem

lemma Playable.adapt (hp : p.Playable) (rewards : List ℚ) (window : ℕ) :
    (p.adapt rewards window).Playable := by
  rcases p.adapt_cases rewards window with h | ⟨mean, h⟩ <;> rw [h]
  · exact hp
  · exact hp.scaled (scaleFactor_nonneg mean)

end Punter.Profile
