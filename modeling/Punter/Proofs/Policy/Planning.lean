/-
# Following the plan

The agent explores only if the number that it draws lies below the probability of exploring.  From a
source whose numbers never do so (`RandomSource.NeverBelow`) every decision is the planned one,
whatever else is drawn in between.
-/
import Mathlib
import Punter.Proofs.Episode.Steps
import Punter.Proofs.Number.Exact

namespace Punter

variable {ρ : Type} [RandomSource ρ ℚ]

namespace RandomSource

/-- Whatever is drawn from a source, now and later, is at least `bound`. -/
def NeverBelow (bound : ℚ) (r : ρ) : Prop :=
  ∀ n, bound ≤ (draw (α := ℚ) ((fun r => (draw (α := ℚ) r).2)^[n] r)).1

variable {bound x : ℚ} {r r' : ρ}

lemma NeverBelow.draw (h : NeverBelow bound r) (hdraw : RandomSource.draw r = (x, r')) :
    bound ≤ x ∧ NeverBelow bound r' := by
  have hnow := h 0
  have hlater : NeverBelow bound (RandomSource.draw (α := ℚ) r).2 := fun n => h (n + 1)
  rw [Function.iterate_zero, id_eq, hdraw] at hnow
  rw [hdraw] at hlater
  exact ⟨hnow, hlater⟩

/-- A script never gives less than the least of its numbers. -/
lemma neverBelow_script {s : Script ℚ} (ne : s.values ≠ []) (h : ∀ x ∈ s.values, bound ≤ x) :
    NeverBelow bound s := by
  intro n
  induction n generalizing s with
  | zero =>
    change bound ≤ s.draw.1
    have hlt : s.drawn % s.values.length < s.values.length :=
      Nat.mod_lt _ (List.length_pos_of_ne_nil ne)
    simp only [Script.draw, List.getElem?_eq_getElem hlt]
    exact h _ (List.getElem_mem hlt)
  | succ n ih =>
    -- drawing leaves the numbers as they are
    have hvalues : s.draw.2.values = s.values := by
      unfold Script.draw
      split <;> rfl
    exact ih (s := s.draw.2) (by rwa [hvalues]) (by rwa [hvalues])

end RandomSource

open RandomSource (NeverBelow)

variable {r r' : ρ}

/-- Where no number lies below the probability of exploring, the decision is the planned one. -/
lemma Policy.decide_of_neverBelow {policy : Policy ℚ} (h : NeverBelow policy.epsilon r)
    (phase : Phase) :
    ∃ r', policy.decide phase r = (.plan phase, r') ∧ NeverBelow policy.epsilon r' := by
  rcases hdraw : (RandomSource.draw r : ℚ × ρ) with ⟨x, r'⟩
  obtain ⟨hle, hr'⟩ := h.draw hdraw
  refine ⟨r', ?_, hr'⟩
  simp only [Policy.decide, hdraw, if_neg (not_lt.mpr hle)]

lemma Stepper.neverBelow_of_target {bound : ℚ} (h : NeverBelow bound r) {profile : Profile ℚ}
    {fixed : Option Duration} {d : Duration} (htarget : target profile fixed r = (d, r')) :
    NeverBelow bound r' :=
  target_keeps (fun h => (h.draw rfl).2) h htarget

end Punter
