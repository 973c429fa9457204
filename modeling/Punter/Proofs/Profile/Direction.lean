/-
# The direction of stakes

The factor by which stakes are scaled rises with the mean of the rewards, and is one where the mean
is zero.  Scaling, rounding and cutting off keep the order of stakes, and so neither higher stakes
nor higher rewards ever lead to lower stakes: this is `adapt_stakesLe_adapt`, about two adaptations.

A single adaptation may well move stakes against the rewards, as it rounds them.  It does so only
once: what it leaves are whole hundredths between the floor and the ceiling, and these are not moved
by rounding and cutting off alone (`WholeCents.scaleBet_one`).  From then on stakes follow the sign
of the mean: this is `adapt_follows_mean`.
-/
import Mathlib
import Punter.Proofs.Profile.Adaptation

namespace Punter.Profile

open Rewards (trailingMean)

variable {p q : Profile ℚ} {window : ℕ} {rewards : List ℚ} {factor x : ℚ}

/-! ## The factor -/

lemma scaleFactor_mono : Monotone (scaleFactor : ℚ → ℚ) := by
  intro mean mean' hle
  rw [scaleFactor_eq, scaleFactor_eq]
  exact max_le_max_left _ (min_le_min_left _ (by linarith))

@[simp] lemma scaleFactor_zero : scaleFactor (0 : ℚ) = 1 := by
  norm_num [scaleFactor_eq]

/-! ## Whole hundredths -/

/-- A stake that is a whole number of hundredths between the floor and the ceiling. -/
def WholeCents (x : ℚ) : Prop := ∃ n : ℤ, 50 ≤ n ∧ n ≤ 10000 ∧ x = n / 100

lemma wholeCents_scaleBet (factor bet : ℚ) : WholeCents (scaleBet factor bet) := by
  refine ⟨max 50 (min 10000 (Number.roundRat (bet * factor * 100))), le_max_left _ _,
    max_le (by norm_num) (min_le_left _ _), ?_⟩
  rw [scaleBet_eq, Scalar.round2_eq]
  push_cast
  rw [← max_div_div_right (by norm_num), ← min_div_div_right (by norm_num)]
  norm_num

namespace WholeCents

lemma nonneg (h : WholeCents x) : 0 ≤ x := by
  obtain ⟨n, hlow, -, rfl⟩ := h
  have hn : (50 : ℚ) ≤ n := by exact_mod_cast hlow
  linarith

/-- Rounding and cutting off do not move a stake that came from them. -/
lemma scaleBet_one (h : WholeCents x) : scaleBet 1 x = x := by
  obtain ⟨n, hlow, hhigh, rfl⟩ := h
  have hn : (50 : ℚ) ≤ n ∧ (n : ℚ) ≤ 10000 := ⟨by exact_mod_cast hlow, by exact_mod_cast hhigh⟩
  rw [scaleBet_eq, mul_one, Scalar.round2_hundredths, min_eq_right (by linarith),
    max_eq_right (by linarith)]

lemma le_scaleBet (h : WholeCents x) (hfactor : 1 ≤ factor) : x ≤ scaleBet factor x := by
  conv_lhs => rw [← h.scaleBet_one]
  exact scaleBet_le_scaleBet zero_le_one hfactor h.nonneg le_rfl

lemma scaleBet_le (h : WholeCents x) (hnonneg : 0 ≤ factor) (hfactor : factor ≤ 1) :
    scaleBet factor x ≤ x := by
  conv_rhs => rw [← h.scaleBet_one]
  exact scaleBet_le_scaleBet hnonneg hfactor h.nonneg le_rfl

/-- A rise by half a hundredth is enough to be rounded up. -/
lemma lt_scaleBet (h : WholeCents x) (hx : x < 100) (hrise : 1 / 200 ≤ x * (factor - 1)) :
    x < scaleBet factor x := by
  have hproduct : 0 ≤ x * factor := by linarith [h.nonneg]
  obtain ⟨n, -, -, rfl⟩ := h
  have hnext : n + 1 ≤ 10000 := by
    have hlt : (n : ℚ) < 10000 := by linarith
    exact_mod_cast hlt
  have hceiling : ((n + 1 : ℤ) : ℚ) / 100 ≤ 100 := by
    have hle : ((n + 1 : ℤ) : ℚ) ≤ 10000 := by exact_mod_cast hnext
    linarith
  have hround : ((n + 1 : ℤ) : ℚ) / 100 ≤ Scalar.round2 (n / 100 * factor) :=
    Scalar.le_round2 hproduct (by push_cast; linarith)
  calc (n : ℚ) / 100 < ((n + 1 : ℤ) : ℚ) / 100 := by push_cast; linarith
    _ ≤ min 100 (Scalar.round2 (n / 100 * factor)) := le_min hceiling hround
    _ ≤ scaleBet factor (n / 100) := by
      rw [scaleBet_eq]
      exact le_max_right _ _

end WholeCents

/-! ## Scaled profiles -/

lemma adapt_eq_scaled (p : Profile ℚ) (hwindow : 1 ≤ window)
    (hrewards : window ≤ rewards.length) :
    p.adapt rewards window = p.scaled (scaleFactor (trailingMean window rewards)) := by
  rw [adapt_of_le p hwindow hrewards, Rewards.mean_last hrewards]

/-- Neither of the stakes of the first profile is above that of the second. -/
structure StakesLe (p q : Profile ℚ) : Prop where
  minBet : p.minBet ≤ q.minBet
  maxBet : p.maxBet ≤ q.maxBet

lemma StakesLe.scaled {factor' : ℚ} (h : p.StakesLe q) (hp : p.Playable) (hfactor : 0 ≤ factor)
    (hfactors : factor ≤ factor') : (p.scaled factor).StakesLe (q.scaled factor') := by
  have hmin : 0 ≤ p.minBet := le_trans (by norm_num) hp.floor_le
  exact ⟨scaleBet_le_scaleBet hfactor hfactors hmin h.minBet,
    scaleBet_le_scaleBet hfactor hfactors (hmin.trans hp.minBet_le) h.maxBet⟩

/-- Both stakes are whole hundredths between the floor and the ceiling. -/
structure InCents (p : Profile ℚ) : Prop where
  minBet : WholeCents p.minBet
  maxBet : WholeCents p.maxBet

lemma inCents_scaled (factor : ℚ) (p : Profile ℚ) : (p.scaled factor).InCents :=
  ⟨wholeCents_scaleBet _ _, wholeCents_scaleBet _ _⟩

namespace InCents

lemma scaled_one (h : p.InCents) : p.scaled 1 = p := by
  rw [scaled, h.minBet.scaleBet_one, h.maxBet.scaleBet_one]

lemma stakesLe_scaled (h : p.InCents) (hfactor : 1 ≤ factor) : p.StakesLe (p.scaled factor) :=
  ⟨h.minBet.le_scaleBet hfactor, h.maxBet.le_scaleBet hfactor⟩

lemma scaled_stakesLe (h : p.InCents) (hnonneg : 0 ≤ factor) (hfactor : factor ≤ 1) :
    (p.scaled factor).StakesLe p :=
  ⟨h.minBet.scaleBet_le hnonneg hfactor, h.maxBet.scaleBet_le hnonneg hfactor⟩

/-- An episode leaves whole hundredths, whether or not it has enough rewards. -/
lemma adapt (h : p.InCents) (rewards : List ℚ) (window : ℕ) : (p.adapt rewards window).InCents := by
  rcases p.adapt_cases rewards window with heq | ⟨mean, heq⟩ <;> rw [heq]
  · exact h
  · exact inCents_scaled _ p

lemma foldl_adapt (h : p.InCents) (rounds : List (List ℚ)) (window : ℕ) :
    (rounds.foldl (fun q rewards => q.adapt rewards window) p).InCents := by
  induction rounds generalizing p with
  | nil => exact h
  | cons rewards rounds ih => exact ih (h.adapt rewards window)

end InCents

/-- **Order.**  Two profiles of which the first has no higher stakes, the first adapted to rewards
of which the last have no higher mean, are adapted to profiles of which the first has no higher
stakes; in particular if none of the last rewards is higher.  Nothing but the mean of the last
rewards matters. -/
theorem adapt_stakesLe_adapt (hwindow : 1 ≤ window) (hp : p.check = .ok ()) (hpq : p.StakesLe q)
    {rewards' : List ℚ} (hrewards : window ≤ rewards.length)
    (hrewards' : window ≤ rewards'.length) :
    (trailingMean window rewards ≤ trailingMean window rewards' →
        (p.adapt rewards window).StakesLe (q.adapt rewards' window)) ∧
      (List.Forall₂ (· ≤ ·) (rewards.rtake window) (rewards'.rtake window) →
        (p.adapt rewards window).StakesLe (q.adapt rewards' window)) ∧
      (trailingMean window rewards = trailingMean window rewards' →
        p.adapt rewards window = p.adapt rewards' window) := by
  rw [check_eq_ok_iff] at hp
  have hmono : trailingMean window rewards ≤ trailingMean window rewards' →
      (p.adapt rewards window).StakesLe (q.adapt rewards' window) := by
    intro hmean
    rw [adapt_eq_scaled p hwindow hrewards, adapt_eq_scaled q hwindow hrewards']
    exact hpq.scaled hp (scaleFactor_nonneg _) (scaleFactor_mono hmean)
  refine ⟨hmono, fun h => hmono (Rewards.trailingMean_le_of_forall₂ h), fun hmean => ?_⟩
  rw [adapt_eq_scaled p hwindow hrewards, adapt_eq_scaled p hwindow hrewards', hmean]

/-- Means on both sides of zero, which the rewards before the last two would turn around. -/
theorem adapt_stakesLe_adapt_two :
    let p : Profile ℚ := .standard
    let q : Profile ℚ := { p with minBet := 2, maxBet := 20 }
    let rewards : List ℚ := [100, -3, 1]
    let rewards' : List ℚ := [-100, 0, 4]
    1 ≤ 2 ∧ p.check = .ok () ∧ p.StakesLe q ∧ 2 ≤ rewards.length ∧ 2 ≤ rewards'.length ∧
      trailingMean 2 rewards ≤ trailingMean 2 rewards' ∧
      (p.adapt rewards 2).StakesLe (q.adapt rewards' 2) ∧
      (p.adapt rewards 2).maxBet = 19 / 2 ∧ (q.adapt rewards' 2).maxBet = 22 := by
  intro p q rewards rewards'
  have hp : p.check = .ok () := by decide +kernel
  have hpq : p.StakesLe q := ⟨by decide +kernel, by decide +kernel⟩
  have hrewards : 2 ≤ rewards.length := by decide
  have hrewards' : 2 ≤ rewards'.length := by decide
  have hmean : trailingMean 2 rewards ≤ trailingMean 2 rewards' := by decide +kernel
  obtain ⟨hmono, -⟩ := adapt_stakesLe_adapt (by decide : 1 ≤ 2) hp hpq hrewards hrewards'
  exact ⟨by decide, hp, hpq, hrewards, hrewards', hmean, hmono hmean, by decide +kernel,
    by decide +kernel⟩

/-- **Direction.**  Once a profile has been adapted, and whatever the episodes after that, the next
rewards move its stakes in the direction of their mean: no stake falls if the mean is positive, none
rises if it is negative, and the profile stays as it is if the mean is zero.  The stakes are whole
hundredths between the floor and the ceiling throughout, and one that is below the ceiling rises if
the mean is positive and the factor would raise it by half a hundredth at least. -/
theorem adapt_follows_mean (hwindow : 1 ≤ window) (hrewards : window ≤ rewards.length)
    (rounds : List (List ℚ)) {next : List ℚ} (hnext : window ≤ next.length) :
    let q := rounds.foldl (fun q rewards => q.adapt rewards window) (p.adapt rewards window)
    let m := trailingMean window next
    (0 < m → q.StakesLe (q.adapt next window)) ∧
      (m < 0 → (q.adapt next window).StakesLe q) ∧
      (m = 0 → q.adapt next window = q) ∧
      q.InCents ∧ (q.adapt next window).InCents ∧
      (0 < m → q.minBet < 100 → 1 / 200 ≤ q.minBet * (scaleFactor m - 1) →
        q.minBet < (q.adapt next window).minBet) ∧
      (0 < m → q.maxBet < 100 → 1 / 200 ≤ q.maxBet * (scaleFactor m - 1) →
        q.maxBet < (q.adapt next window).maxBet) := by
  intro q m
  have hq : q.InCents := by
    refine InCents.foldl_adapt ?_ rounds window
    rw [adapt_eq_scaled p hwindow hrewards]
    exact inCents_scaled _ p
  have hadapt : q.adapt next window = q.scaled (scaleFactor m) := adapt_eq_scaled q hwindow hnext
  refine ⟨fun hm => ?_, fun hm => ?_, fun hm => ?_, hq, hq.adapt next window,
    fun _ hlt hrise => ?_, fun _ hlt hrise => ?_⟩ <;> rw [hadapt]
  · have hfactor : 1 ≤ scaleFactor m := scaleFactor_zero ▸ scaleFactor_mono hm.le
    exact hq.stakesLe_scaled hfactor
  · have hfactor : scaleFactor m ≤ 1 := scaleFactor_zero ▸ scaleFactor_mono hm.le
    exact hq.scaled_stakesLe (scaleFactor_nonneg m) hfactor
  · rw [hm, scaleFactor_zero, hq.scaled_one]
  · exact hq.minBet.lt_scaleBet hlt hrise
  · exact hq.maxBet.lt_scaleBet hlt hrise

/-- A loss that takes the stakes off the ceiling, an episode that is too short, and then a gain. -/
theorem adapt_follows_mean_three :
    let p : Profile ℚ := { Profile.standard with minBet := 111 / 200, maxBet := 100 }
    let first : List ℚ := [-1000, -1000]
    let next : List ℚ := [-7, 3, 1]
    let q := [[5], [0, 0]].foldl (fun q rewards => q.adapt rewards 2) (p.adapt first 2)
    1 ≤ 2 ∧ 2 ≤ first.length ∧ 2 ≤ next.length ∧ trailingMean 2 next = 2 ∧
      (q.minBet, q.maxBet) = (1 / 2, 85) ∧ q.StakesLe (q.adapt next 2) ∧
      q.maxBet < (q.adapt next 2).maxBet ∧ (q.adapt next 2).InCents := by
  intro p first next q
  have hfirst : 2 ≤ first.length := by decide
  have hnext : 2 ≤ next.length := by decide
  have hmean : trailingMean 2 next = 2 := by decide +kernel
  have hpos : 0 < trailingMean 2 next := by rw [hmean]; norm_num
  obtain ⟨hgain, -, -, -, hcents, -, hrise⟩ :=
    adapt_follows_mean (p := p) (by decide : 1 ≤ 2) hfirst [[5], [0, 0]] hnext
  exact ⟨by decide, hfirst, hnext, hmean, by decide +kernel, hgain hpos,
    hrise hpos (by decide +kernel) (by decide +kernel), hcents⟩

/-- The first adaptation may lower a stake in spite of a gain, as it rounds. -/
example : scaleBet (scaleFactor (1 / 100)) (497 / 500) < (497 / 500 : ℚ) := by decide +kernel

end Punter.Profile
