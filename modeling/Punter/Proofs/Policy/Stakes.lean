/-
# What the agent stakes

A stake comes from the profile or from exploring.  The bounds of the profile are those of all
profiles; exploring has its own, which lie within them, and rounding to hundredths does not lead
out of these, since they are whole numbers.  So every bet that the agent makes carries a stake that
any profile might have set.
-/
import Mathlib
import Punter.Policy.Decide
import Punter.Proofs.Number.Rounding
import Punter.Proofs.Profile.Adaptation
import Punter.Random.Generator

namespace Punter

variable {ρ : Type} [RandomSource ρ ℚ]

/-! ## Sources of random numbers -/

namespace RandomSource

/-- Whatever is drawn from a source, now and later, lies in the interval from 0 to 1, without 1. -/
def InUnit (r : ρ) : Prop :=
  ∀ n, 0 ≤ (draw (α := ℚ) ((fun r => (draw (α := ℚ) r).2)^[n] r)).1 ∧
    (draw (α := ℚ) ((fun r => (draw (α := ℚ) r).2)^[n] r)).1 < 1

variable {r r' : ρ} {x : ℚ}

lemma InUnit.draw (h : InUnit r) (hdraw : RandomSource.draw r = (x, r')) :
    0 ≤ x ∧ x < 1 ∧ InUnit r' := by
  have hnow := h 0
  have hlater : InUnit (RandomSource.draw (α := ℚ) r).2 := fun n => h (n + 1)
  rw [Function.iterate_zero, id_eq, hdraw] at hnow
  rw [hdraw] at hlater
  exact ⟨hnow.1, hnow.2, hlater⟩

lemma InUnit.uniform (h : InUnit r) {low high : ℚ}
    (huniform : RandomSource.uniform low high r = (x, r')) :
    InUnit r' ∧ (low ≤ high → low ≤ x ∧ x ≤ high) := by
  unfold RandomSource.uniform at huniform
  split at huniform
  · obtain ⟨rfl, rfl⟩ := Prod.mk.inj huniform
    exact ⟨h, fun hle => ⟨le_rfl, hle⟩⟩
  · next hlt =>
    rcases hdraw : (RandomSource.draw r : ℚ × ρ) with ⟨y, r₁⟩
    rw [hdraw] at huniform
    obtain ⟨rfl, rfl⟩ := Prod.mk.inj huniform
    obtain ⟨hy, hy', hr₁⟩ := h.draw hdraw
    have hwidth : 0 < high - low := sub_pos.mpr (not_le.mp hlt)
    exact ⟨hr₁, fun _ => ⟨by nlinarith, by nlinarith⟩⟩

/-- It suffices that every draw gives such a number, and a source that is as good as before. -/
lemma inUnit_of_invariant {P : ρ → Prop}
    (hdraw : ∀ {r}, P r → 0 ≤ (RandomSource.draw (α := ℚ) r).1 ∧
      (RandomSource.draw (α := ℚ) r).1 < 1 ∧ P (RandomSource.draw (α := ℚ) r).2)
    (h : P r) : InUnit r := by
  intro n
  induction n generalizing r with
  | zero => exact ⟨(hdraw h).1, (hdraw h).2.1⟩
  | succ n ih => exact ih (hdraw h).2.2

/-- Generators are such sources, whatever their seeds. -/
theorem inUnit_generator (g : Generator) : InUnit g := by
  refine inUnit_of_invariant (P := fun _ => True) (fun {g} _ => ?_) trivial
  have hlt : (g.next.1 >>> 11).toNat < 9007199254740992 := by
    rw [UInt64.toNat_shiftRight]
    have := g.next.1.toNat_lt
    simp only [Nat.shiftRight_eq_div_pow]
    exact Nat.div_lt_of_lt_mul (by simpa using this)
  change 0 ≤ ((g.next.1 >>> 11).toNat / 9007199254740992.0 : ℚ) ∧
    ((g.next.1 >>> 11).toNat / 9007199254740992.0 : ℚ) < 1 ∧ True
  generalize (g.next.1 >>> 11).toNat = m at hlt
  have hcast : (m : ℚ) < 9007199254740992 := by exact_mod_cast hlt
  refine ⟨by positivity, ?_, trivial⟩
  rw [div_lt_one (by norm_num)]
  linarith

/-- Scripts are such sources, whatever their numbers were before they were moved. -/
theorem inUnit_ofList (xs : List ℚ) : InUnit (Script.ofList xs) := by
  refine inUnit_of_invariant (P := fun s : Script ℚ => ∀ x ∈ s.values, 0 ≤ x ∧ x < 1)
    (fun {s} hs => ?_) fun x hx => ?_
  · change 0 ≤ s.draw.1 ∧ s.draw.1 < 1 ∧ ∀ x ∈ s.draw.2.values, 0 ≤ x ∧ x < 1
    unfold Script.draw
    split
    · next x hx =>
      have hmem := hs x (List.mem_of_getElem? hx)
      exact ⟨hmem.1, hmem.2, hs⟩
    · exact ⟨by norm_num, by norm_num, hs⟩
  · obtain ⟨y, -, rfl⟩ := List.mem_map.mp hx
    have hone : (1.0 - Script.epsilon : ℚ) = 4503599627370495 / 4503599627370496 := by
      norm_num [Script.epsilon]
    rw [hone, Scalar.zero_eq, Scalar.clamp_eq (by norm_num)]
    refine ⟨le_max_left _ _, ?_⟩
    exact max_lt (by norm_num) ((min_le_left _ _).trans_lt (by norm_num))

end RandomSource

open RandomSource (InUnit)

/-! ## Proposed stakes -/

/-- A stake that may come from exploring. -/
structure Policy.Exploratory (m : Money ℚ) : Prop where
  hundredths : ∃ n : ℤ, m.amount = n / 100
  lowest_le : 1 ≤ m.amount
  le_highest : m.amount ≤ 10
  currency : m.currency = stakeCurrency

namespace Policy

@[simp] lemma lowestStake_eq : (lowestStake : ℚ) = 1 := by norm_num [lowestStake]

@[simp] lemma highestStake_eq : (highestStake : ℚ) = 10 := by norm_num [highestStake]

lemma exploratory_round2 {x : ℚ} (hlow : 1 ≤ x) (hhigh : x ≤ 10) :
    Exploratory ⟨Scalar.round2 x, stakeCurrency⟩ where
  hundredths := ⟨_, Scalar.round2_eq x⟩
  lowest_le := by
    have h := Scalar.round2_mono hlow
    rwa [← Int.cast_one, Scalar.round2_intCast, Int.cast_one] at h
  le_highest := by
    have h := Scalar.round2_mono hhigh
    rwa [show (10 : ℚ) = ((10 : ℤ) : ℚ) by norm_num, Scalar.round2_intCast] at h
  currency := rfl

variable {r r' : ρ} {proposal : Proposal ℚ}

lemma exploratory_of_explore (hr : InUnit r) (h : explore r = (proposal, r')) :
    InUnit r' ∧ ∀ m, proposal.amount = some m → Exploratory m := by
  unfold explore at h
  rcases hdraw : (RandomSource.draw r : ℚ × ρ) with ⟨x, r₁⟩
  obtain ⟨-, -, hr₁⟩ := hr.draw hdraw
  rw [hdraw] at h
  dsimp only at h
  split at h
  · rcases huniform : RandomSource.uniform (lowestStake : ℚ) highestStake r₁ with ⟨y, r₂⟩
    obtain ⟨hr₂, hbounds⟩ := hr₁.uniform huniform
    rw [lowestStake_eq, highestStake_eq] at hbounds
    rw [huniform] at h
    obtain ⟨rfl, rfl⟩ := Prod.mk.inj h
    obtain ⟨hlow, hhigh⟩ := hbounds (by norm_num)
    refine ⟨hr₂, ?_⟩
    rintro m hm
    obtain rfl := Option.some.inj hm
    exact exploratory_round2 hlow hhigh
  · obtain ⟨rfl, rfl⟩ := Prod.mk.inj h
    exact ⟨hr₁, by simp [Proposal.amount]⟩
  · obtain ⟨rfl, rfl⟩ := Prod.mk.inj h
    exact ⟨hr₁, by simp [Proposal.amount]⟩

/-- A stake that a decision does not leave open comes from exploring. -/
lemma exploratory_of_decide (hr : InUnit r) {policy : Policy ℚ} {phase : Phase}
    (h : policy.decide phase r = (proposal, r')) :
    InUnit r' ∧ ∀ m, proposal.amount = some m → Exploratory m := by
  unfold Policy.decide at h
  rcases hdraw : (RandomSource.draw r : ℚ × ρ) with ⟨x, r₁⟩
  obtain ⟨-, -, hr₁⟩ := hr.draw hdraw
  rw [hdraw] at h
  dsimp only at h
  split at h
  · exact exploratory_of_explore hr₁ h
  · obtain ⟨rfl, rfl⟩ := Prod.mk.inj h
    refine ⟨hr₁, ?_⟩
    cases phase <;> simp [Proposal.plan, Proposal.amount]

end Policy

/-- An action that is no bet, or a bet with a stake between the bounds of all profiles. -/
def Action.Moderate (a : Action ℚ) : Prop :=
  a.kind = .placeBet → ∃ m, a.amount = some m ∧ 1 / 2 ≤ m.amount ∧ m.amount ≤ 100

lemma Proposal.moderate_toAction {proposal : Proposal ℚ} {profile : Profile ℚ}
    (hprofile : profile.Playable)
    (hproposal : ∀ m, proposal.amount = some m → Policy.Exploratory m) :
    (proposal.toAction profile).Moderate := by
  have hmin := hprofile.floor_le
  have hmax := hprofile.minBet_le.trans hprofile.le_ceiling
  intro hkind
  cases proposal with
  | placeBet amount =>
    cases amount with
    | none => exact ⟨profile.minStake, rfl, hmin, hmax⟩
    | some m =>
      obtain ⟨-, hlow, hhigh, -⟩ := hproposal m rfl
      exact ⟨m, rfl, by linarith, by linarith⟩
  | spin => cases hkind
  | cashOut => cases hkind

end Punter
