/-
# Profiles with another behavior

A profile is accepted for its stakes, its pauses and its weight, each looked at alone.  Another
behavior keeps the bounds of the stakes or puts its own in their place, and does the same with the
bounds of the pauses, but never one of two bounds without the other: a smallest stake that the user
set could exceed the largest one of the behavior.  So what comes out is in order whichever of the
bounds were set, as long as those of the behaviors are.
-/
import Mathlib
import Punter.Profile

namespace Punter

variable {α : Type} [Scalar α]

/-- Bounds of stakes with which a profile may be played. -/
structure StakesFit (minBet maxBet : α) : Prop where
  minBet_finite : Scalar.isFinite minBet = true
  maxBet_finite : Scalar.isFinite maxBet = true
  floor_le : Profile.floor ≤ minBet
  le_ceiling : maxBet ≤ Profile.ceiling
  le : minBet ≤ maxBet

/-- Bounds with which a profile may be played. -/
structure Preset.Fits (x : Preset α) : Prop where
  stakes : StakesFit x.minBet x.maxBet
  delays : x.minDelay ≤ x.maxDelay

/-- Numbers in which profiles may be played with the bounds of all behaviors. -/
class Behavior.Fitting (α : Type) [Scalar α] : Prop where
  preset (b : Behavior) : (b.preset : Preset α).Fits

instance : Behavior.Fitting ℚ where
  preset b := by cases b <;> exact ⟨by constructor <;> decide +kernel, by decide⟩

instance : Behavior.Fitting Float where
  preset b := by cases b <;> exact ⟨by constructor <;> decide +kernel, by decide⟩

namespace Profile

/-- What is looked at when a profile is accepted. -/
structure Fits (p : Profile α) : Prop where
  stakes : StakesFit p.minBet p.maxBet
  delays : p.minDelay ≤ p.maxDelay
  weight : ∀ w, p.rewardWeight = some w → Scalar.within 0.0 1.0 w = true

lemma flaw?_eq_none_iff_fits (p : Profile α) : p.flaw? = none ↔ p.Fits := by
  unfold flaw?
  constructor
  · intro h
    split_ifs at h with hfinite hfloor hceiling hcrossed hdelays
    obtain ⟨hmin, hmax⟩ : Scalar.isFinite p.minBet = true ∧ Scalar.isFinite p.maxBet = true := by
      simpa using hfinite
    refine ⟨⟨hmin, hmax, hfloor, hceiling, hcrossed⟩, not_lt.mp hdelays, fun w hw => ?_⟩
    simpa [hw] using h
  · rintro ⟨stakes, delays, weight⟩
    rw [if_neg (by simp [stakes.minBet_finite, stakes.maxBet_finite]),
      if_neg (not_not.mpr stakes.floor_le), if_neg (not_not.mpr stakes.le_ceiling),
      if_neg (not_not.mpr stakes.le), if_neg (not_lt.mpr delays)]
    cases hw : p.rewardWeight with
    | none => rfl
    | some w => exact if_pos (weight w hw)

lemma check_eq_ok_iff_fits (p : Profile α) : p.check = .ok () ↔ p.Fits := by
  rw [← flaw?_eq_none_iff_fits, check]
  cases p.flaw? <;> simp

/-! ## Another behavior -/

/-- Whether the bounds of the stakes are other ones than the standard ones. -/
def ownStakes (p : Profile α) : Bool :=
  !(p.minBet == (standard : Profile α).minBet && p.maxBet == (standard : Profile α).maxBet)

/-- Whether the bounds of the pauses are other ones than the standard ones. -/
def ownDelays (p : Profile α) : Bool :=
  !(p.minDelay == (standard : Profile α).minDelay &&
    p.maxDelay == (standard : Profile α).maxDelay)

/-- The bounds of the stakes with another behavior. -/
def stakesWith (p : Profile α) (b : Behavior) : α × α :=
  if p.ownStakes then (p.minBet, p.maxBet)
  else ((b.preset : Preset α).minBet, (b.preset : Preset α).maxBet)

/-- The bounds of the pauses with another behavior. -/
def delaysWith (p : Profile α) (b : Behavior) : ℕ × ℕ :=
  if p.ownDelays then (p.minDelay, p.maxDelay)
  else ((b.preset : Preset α).minDelay, (b.preset : Preset α).maxDelay)

lemma withBehavior_eq (p : Profile α) (b : Behavior) :
    p.withBehavior b = ⟨(p.stakesWith b).1, (p.stakesWith b).2, p.currency, (p.delaysWith b).1,
      (p.delaysWith b).2, p.rewardWeight, b⟩ := by
  simp only [withBehavior, stakesWith, delaysWith, ownStakes, ownDelays, Bool.not_eq_true']
  split_ifs <;> simp_all

/-- What another behavior makes of a profile. -/
structure Turns (p : Profile α) (b : Behavior) (q : Profile α) : Prop where
  behavior : q.behavior = b
  currency : q.currency = p.currency
  rewardWeight : q.rewardWeight = p.rewardWeight
  stakes : p.ownStakes = true ∧ (q.minBet, q.maxBet) = (p.minBet, p.maxBet) ∨
    p.ownStakes = false ∧
      (q.minBet, q.maxBet) = ((b.preset : Preset α).minBet, (b.preset : Preset α).maxBet)
  delays : p.ownDelays = true ∧ (q.minDelay, q.maxDelay) = (p.minDelay, p.maxDelay) ∨
    p.ownDelays = false ∧
      (q.minDelay, q.maxDelay) = ((b.preset : Preset α).minDelay, (b.preset : Preset α).maxDelay)

lemma turns_withBehavior (p : Profile α) (b : Behavior) : p.Turns b (p.withBehavior b) := by
  rw [withBehavior_eq]
  refine ⟨rfl, rfl, rfl, ?_, ?_⟩
  · unfold stakesWith
    cases p.ownStakes
    · exact .inr ⟨rfl, rfl⟩
    · exact .inl ⟨rfl, rfl⟩
  · unfold delaysWith
    cases p.ownDelays
    · exact .inr ⟨rfl, rfl⟩
    · exact .inl ⟨rfl, rfl⟩

/-- Bounds that were kept are kept again, and those of the behavior stay whether they are taken
for the standard ones or not. -/
lemma withBehavior_withBehavior (p : Profile α) (b : Behavior) :
    (p.withBehavior b).withBehavior b = p.withBehavior b := by
  obtain ⟨-, -, -, hstakes, hdelays⟩ := p.turns_withBehavior b
  have hagain : (p.withBehavior b).stakesWith b = p.stakesWith b := by
    rcases hstakes with ⟨-, h⟩ | ⟨-, h⟩ <;> obtain ⟨hmin, hmax⟩ := Prod.mk.inj h
    · rw [stakesWith, ownStakes, hmin, hmax, stakesWith, ownStakes]
    · rw [stakesWith, hmin, hmax, ite_self, ← h, withBehavior_eq]
  have hagain' : (p.withBehavior b).delaysWith b = p.delaysWith b := by
    rcases hdelays with ⟨-, h⟩ | ⟨-, h⟩ <;> obtain ⟨hmin, hmax⟩ := Prod.mk.inj h
    · rw [delaysWith, ownDelays, hmin, hmax, delaysWith, ownDelays]
    · rw [delaysWith, hmin, hmax, ite_self, ← h, withBehavior_eq]
  rw [withBehavior_eq (p.withBehavior b), hagain, hagain', withBehavior_eq]

lemma Fits.withBehavior [Behavior.Fitting α] {p : Profile α} (hp : p.Fits) (b : Behavior) :
    (p.withBehavior b).Fits := by
  have hpreset : (b.preset : Preset α).Fits := Behavior.Fitting.preset b
  obtain ⟨-, -, hweight, hstakes, hdelays⟩ := p.turns_withBehavior b
  -- each pair of bounds comes as a whole, from the profile or from the behavior
  refine ⟨?_, ?_, fun w hw => hp.weight w (hweight ▸ hw)⟩
  · rcases hstakes with ⟨-, h⟩ | ⟨-, h⟩ <;> obtain ⟨hmin, hmax⟩ := Prod.mk.inj h <;> rw [hmin, hmax]
    · exact hp.stakes
    · exact hpreset.stakes
  · rcases hdelays with ⟨-, h⟩ | ⟨-, h⟩ <;> obtain ⟨hmin, hmax⟩ := Prod.mk.inj h <;> rw [hmin, hmax]
    · exact hp.delays
    · exact hpreset.delays

end Profile

end Punter
