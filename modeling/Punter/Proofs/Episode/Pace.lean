/-
# The score of the pace

The score of a pause is highest in the middle of the bounds of the profile and falls off with the
distance from there.  A pause whose length is drawn does not leave the bounds, also when it is
rounded to whole milliseconds, since the bounds are such; so if pauses take as long as they are
meant to, every score is at least that of the bounds themselves.

How this adds up over the steps of an episode is said by `Profile.Paced`, about any number of scores
at once.  The mean of the scores then is like a single one.
-/
import Mathlib
import Punter.Proofs.Episode.Plays
import Punter.Proofs.Simulation.Retention

namespace Punter

open RandomSource (InUnit)
open Simulation (NoLuck Settings State)

/-! ## A single pause -/

/-- Nothing is lost by counting the seconds and what is left of them apart. -/
lemma Duration.toMillis_eq (d : Duration) : (d.toMillis : ℚ) = d.nanos / nanosPerMilli := by
  have hsplit : ((nanosPerSecond * (d.nanos / nanosPerSecond) + d.nanos % nanosPerSecond : ℕ) : ℚ) =
      d.nanos := by rw [Nat.div_add_mod]
  simp only [toMillis, toSeconds, Scalar.ofNat]
  push_cast [nanosPerSecond, nanosPerMilli] at hsplit ⊢
  norm_num
  linarith

@[simp] lemma Duration.toMillis_ofMillis (ms : ℕ) : ((Duration.ofMillis ms).toMillis : ℚ) = ms := by
  rw [toMillis_eq, ofMillis, Nat.cast_mul, mul_div_cancel_right₀ _ (by norm_num [nanosPerMilli])]

namespace Profile

variable {profile : Profile ℚ} {ms ms' : ℚ}

lemma midpoint_eq (profile : Profile ℚ) :
    profile.midpoint = (profile.minDelay + profile.maxDelay) / 2 := by
  norm_num [midpoint, Scalar.ofNat]

lemma likeness_of_eq_zero (h : profile.midpoint = 0) (ms : ℚ) : profile.likeness ms = 1 / 2 := by
  simp only [likeness, Scalar.zero_eq, beq_iff_eq, if_pos h]
  norm_num [neutralLikeness]

/-- The score falls off on both sides of the middle alike. -/
lemma likeness_eq (h : 0 < profile.midpoint) (ms : ℚ) :
    profile.likeness ms = max 0 (1 - |ms - profile.midpoint| / profile.midpoint) := by
  have hle : 1 - |ms - profile.midpoint| / profile.midpoint ≤ 1 :=
    sub_le_self 1 (div_nonneg (abs_nonneg _) h.le)
  simp only [likeness, Scalar.zero_eq, Scalar.one_eq, beq_iff_eq, if_neg h.ne', Scalar.abs_eq]
  rw [Scalar.clamp_eq zero_le_one, min_eq_right hle]

lemma likeness_eq_one_iff (h : 0 < profile.midpoint) :
    profile.likeness ms = 1 ↔ ms = profile.midpoint := by
  have hdistance : 0 ≤ |ms - profile.midpoint| / profile.midpoint := div_nonneg (abs_nonneg _) h.le
  rw [likeness_eq h]
  constructor
  · intro hone
    have hzero : |ms - profile.midpoint| / profile.midpoint = 0 := by
      rcases max_choice 0 (1 - |ms - profile.midpoint| / profile.midpoint) with hmax | hmax <;>
        rw [hmax] at hone <;> linarith
    rw [div_eq_zero_iff, abs_eq_zero, sub_eq_zero] at hzero
    exact hzero.resolve_right h.ne'
  · rintro rfl
    simp

lemma likeness_le_likeness (h : 0 < profile.midpoint)
    (hms : |ms - profile.midpoint| ≤ |ms' - profile.midpoint|) :
    profile.likeness ms' ≤ profile.likeness ms := by
  rw [likeness_eq h, likeness_eq h]
  have hdiv := div_le_div_of_nonneg_right hms h.le
  exact max_le_max_left _ (by linarith)

end Profile

/-! ## Scores within bounds -/

/-- What `n` scores of pauses within the bounds of the profile come to. -/
structure Profile.Paced (profile : Profile ℚ) (n : ℕ) (total : ℚ) : Prop where
  le : total ≤ n
  ge : 0 < profile.midpoint →
    n * (2 * profile.minDelay / (profile.minDelay + profile.maxDelay)) ≤ total
  neutral : profile.midpoint = 0 → total = n * (1 / 2)

namespace Profile.Paced

variable {profile : Profile ℚ} {n n' : ℕ} {total total' : ℚ}

lemma zero (profile : Profile ℚ) : profile.Paced 0 0 := by
  constructor <;> simp

lemma add (h : profile.Paced n total) (h' : profile.Paced n' total') :
    profile.Paced (n + n') (total + total') where
  le := by
    push_cast
    exact add_le_add h.le h'.le
  ge := by
    intro hpos
    push_cast
    rw [add_mul]
    exact add_le_add (h.ge hpos) (h'.ge hpos)
  neutral := by
    intro hzero
    push_cast
    rw [h.neutral hzero, h'.neutral hzero, add_mul]

/-- The mean of scores is like one of them. -/
lemma mean (h : profile.Paced n total) (hn : 1 ≤ n) : profile.Paced 1 (total / n) := by
  have hpos : (0 : ℚ) < n := by exact_mod_cast hn
  refine ⟨?_, fun hmid => ?_, fun hmid => ?_⟩
  · rw [Nat.cast_one, div_le_one hpos]
    exact h.le
  · rw [Nat.cast_one, one_mul, le_div_iff₀ hpos, mul_comm]
    exact h.ge hmid
  · rw [h.neutral hmid, Nat.cast_one, one_mul, mul_div_cancel_left₀ _ hpos.ne']

end Profile.Paced

/-- Within the bounds, a pause is at most half of their distance away from the middle. -/
lemma Profile.paced_likeness {profile : Profile ℚ} {ms : ℕ} (hlow : profile.minDelay ≤ ms)
    (hhigh : ms ≤ profile.maxDelay) : profile.Paced 1 (profile.likeness ms) := by
  have hlow' : (profile.minDelay : ℚ) ≤ ms := by exact_mod_cast hlow
  have hhigh' : (ms : ℚ) ≤ profile.maxDelay := by exact_mod_cast hhigh
  refine ⟨?_, fun hpos => ?_, fun hzero => ?_⟩
  · rw [Nat.cast_one]
    exact (profile.likeness_mem _).2
  · have hsum : (0 : ℚ) < profile.minDelay + profile.maxDelay := by
      rw [midpoint_eq] at hpos
      linarith
    have hdistance : |(ms : ℚ) - profile.midpoint| ≤
        (profile.maxDelay - profile.minDelay) / 2 := by
      rw [midpoint_eq, abs_le]
      constructor <;> linarith
    have hscore : 1 - (profile.maxDelay - profile.minDelay) / 2 / profile.midpoint =
        2 * profile.minDelay / (profile.minDelay + profile.maxDelay) := by
      rw [midpoint_eq]
      field_simp
      ring
    rw [Nat.cast_one, one_mul, likeness_eq hpos, ← hscore]
    refine le_max_of_le_right (sub_le_sub_left ?_ 1)
    exact div_le_div_of_nonneg_right hdistance hpos.le
  · rw [Nat.cast_one, one_mul, likeness_of_eq_zero hzero]

/-! ## Drawn pauses -/

/-- A whole number of milliseconds between the bounds of a profile. -/
def Duration.Within (profile : Profile ℚ) (d : Duration) : Prop :=
  ∃ ms, d = .ofMillis ms ∧ profile.minDelay ≤ ms ∧ ms ≤ profile.maxDelay

variable {σ ρ : Type} [Service σ ℚ] [RandomSource ρ ℚ] {profile : Profile ℚ} {r r' : ρ}
  {w w' : World σ ℚ}

section Drawn

variable (hprofile : profile.Playable) (hsize : profile.maxDelay < UInt64.size) (hr : InUnit r)
  {session : SessionId} {policy : Policy ℚ}

include hprofile hsize hr

omit [Service σ ℚ] in
lemma Stepper.within_target : (Stepper.target profile none r).1.Within profile := by
  have hdelays : (profile.minDelay : ℚ) ≤ profile.maxDelay := by
    exact_mod_cast hprofile.minDelay_le
  rcases huniform : RandomSource.uniform (Scalar.ofNat profile.minDelay : ℚ)
    (Scalar.ofNat profile.maxDelay) r with ⟨ms, r'⟩
  obtain ⟨hlow, hhigh⟩ := (hr.uniform huniform).2 hdelays
  refine ⟨Scalar.toCount (Scalar.round ms), ?_, Scalar.toCount_round_mem hlow hhigh hsize⟩
  simp only [Stepper.target, huniform]

lemma Stepper.within_step {s : Stepper} {o : StepOutcome ℚ}
    (h : s.step session profile policy none r w = (.ok o, r', w')) : o.target.Within profile := by
  obtain ⟨before, r₁, w₁, w₂, -, hdecide, htarget, -⟩ := step_eq_ok h
  obtain ⟨hr₁, -⟩ := Policy.exploratory_of_decide hr hdecide
  have hwithin := within_target hprofile hsize hr₁
  rwa [htarget] at hwithin

/-! ## Steps and episodes -/

omit hr in
/-- With pauses that take as long as they are meant to, every play has a score within bounds. -/
lemma Stepper.makes_paced {s : Stepper} (hpacer : s.pacer = .instant) :
    s.Makes ρ profile none fun p => profile.Paced 1 p.humanLikeness := by
  intro r proposal rank hr _
  obtain ⟨ms, htarget, hlow, hhigh⟩ := within_target hprofile hsize hr
  rw [hpacer, htarget]
  change profile.Paced 1 (profile.likeness (Duration.ofMillis ms).toMillis)
  rw [Duration.toMillis_ofMillis]
  exact Profile.paced_likeness hlow hhigh

lemma Stepper.paced_step {s : Stepper} (hpacer : s.pacer = .instant) {o : StepOutcome ℚ}
    (h : s.step session profile policy none r w = (.ok o, r', w')) :
    profile.Paced 1 o.likeness := by
  obtain ⟨before, r₁, w₁, w₂, -, hdecide, htarget, hwait, hlikeness, -⟩ := step_eq_ok h
  obtain ⟨hr₁, hproposal⟩ := Policy.exploratory_of_decide hr hdecide
  have hmade := makes_paced hprofile hsize hpacer r₁ o.proposal w₁.pauses hr₁ hproposal
  have hactual : o.actual = (s.pacer.wait o.target w₁).1 := by rw [hwait]
  rw [htarget] at hmade
  rwa [hlikeness, hactual]

namespace Agent

variable {a : Agent}

lemma paced_steps (hpacer : a.stepper.pacer = .instant) (hfixed : a.settings.fixedDelay = none)
    {n : ℕ} {p p' : Progress ℚ} (hp : profile.Paced p.steps p.likeness)
    (h : a.steps session profile policy n p r w = (.ok p', r', w')) :
    profile.Paced p'.steps p'.likeness := by
  induction n generalizing p r w with
  | zero =>
    cases h
    exact hp
  | succ n ih =>
    by_cases hstopped : p.stopped = true
    · rw [steps_of_stopped hstopped] at h
      cases h
      exact hp
    · have hr₁ := (Stepper.submits_step (a.stepper.makes_wellFormed hprofile
        a.settings.fixedDelay) session policy hr w).2
      rcases hstep : a.stepper.step session profile policy a.settings.fixedDelay r w with
        ⟨e | o, r₁, w₁⟩ <;> rw [hstep] at hr₁
      · rw [steps_of_error hstopped hstep] at h
        cases h
      · rw [steps_of_ok hstopped hstep] at h
        rw [hfixed] at hstep
        have ho := Stepper.paced_step hprofile hsize hr hpacer hstep
        exact ih hr₁ (hp.add ho) h

lemma paced_runEpisode (hpacer : a.stepper.pacer = .instant)
    (hfixed : a.settings.fixedDelay = none) {fresh : GameId} {o : EpisodeOutcome ℚ}
    (h : a.runEpisode fresh profile policy r w = (some (.ok o), r', w')) :
    profile.Paced 1 o.meanLikeness := by
  -- a step was made, so that there is something to take the mean of
  have hsteps_pos : 1 ≤ o.steps := by
    obtain ⟨xs, -, hepisode⟩ := a.asks_runEpisode fresh profile policy r w
    rw [h] at hepisode
    exact hepisode.reflects.one_le
  rcases hcreate : a.stepper.call (.create (a.settings.game.getD fresh) profile.player) w with
    ⟨e | opened, w₁⟩
  · rw [runEpisode_of_unopened hcreate] at h
    cases h
  · rcases hsteps : a.steps opened.session profile policy a.maxSteps
      (.start opened.phase a.settings.breakerThreshold) r w₁ with ⟨e | p, r₁, w₂⟩
    · rw [runEpisode_of_broken hcreate hsteps] at h
      cases h
    · rcases hfetch : a.fetch opened.session w₂ with ⟨- | fetched, w₃⟩ <;>
        rw [runEpisode_of_reached hcreate hsteps hfetch] at h <;> cases h
      have hstart : profile.Paced (Progress.start (α := ℚ) opened.phase
          a.settings.breakerThreshold).steps (Progress.start (α := ℚ) opened.phase
          a.settings.breakerThreshold).likeness := by
        simp only [Progress.start, Scalar.zero_eq]
        exact .zero profile
      exact (paced_steps hprofile hsize hr hpacer hfixed hstart hsteps).mean hsteps_pos

end Agent

end Drawn

/-- **Pace.**  Where the middle of the bounds of a profile is not zero, the score of a pause falls
from one in the middle to zero at a distance as large as the middle itself, and never rises with the
distance.  The length of a pause that is drawn is a whole number of milliseconds within the bounds
of an accepted profile, whose bounds are counts of 64 bits.  So with pauses that take as long as
they are meant to, every score that is submitted, every score of a step and the mean of the scores
of every episode that was played are at least twice the lower bound divided by the sum of the bounds
and at most one, or one half if the bounds are zero: this is what `Profile.Paced` says of one
score. -/
theorem Profile.pace_scored (profile : Profile ℚ) :
    (0 < profile.midpoint → ∀ ms,
      profile.likeness ms = max 0 (1 - |ms - profile.midpoint| / profile.midpoint) ∧
        (0 ≤ profile.likeness ms ∧ profile.likeness ms ≤ 1) ∧
        (profile.likeness ms = 1 ↔ ms = profile.midpoint) ∧
        ∀ ms', |ms - profile.midpoint| ≤ |ms' - profile.midpoint| →
          profile.likeness ms' ≤ profile.likeness ms) ∧
      (profile.check = .ok () → profile.maxDelay < UInt64.size → ∀ r : ρ, InUnit r →
        (∃ ms, (Stepper.target profile none r).1 = .ofMillis ms ∧ profile.minDelay ≤ ms ∧
          ms ≤ profile.maxDelay) ∧
        (∀ (s : Stepper) session (policy : Policy ℚ) (w : World σ ℚ) (o : StepOutcome ℚ),
          (s.step session profile policy none r w).1 = .ok o → o.target.Within profile) ∧
        ∀ a : Agent, a.stepper.pacer = .instant → a.settings.fixedDelay = none →
          ∀ (policy : Policy ℚ) (w : World σ ℚ),
            (∀ session,
              let step := a.stepper.step session profile policy none r w
              w.Submits (fun p => profile.Paced 1 p.humanLikeness) step.2.2 ∧
                ∀ o, step.1 = .ok o → profile.Paced 1 o.likeness) ∧
            ∀ fresh,
              let run := a.runEpisode fresh profile policy r w
              w.Submits (fun p => profile.Paced 1 p.humanLikeness) run.2.2 ∧
                ∀ o, run.1 = some (.ok o) → profile.Paced 1 o.meanLikeness) := by
  refine ⟨fun hpos ms => ⟨likeness_eq hpos ms, profile.likeness_mem ms, likeness_eq_one_iff hpos,
    fun ms' => likeness_le_likeness hpos⟩, fun hprofile hsize r hr => ?_⟩
  rw [check_eq_ok_iff] at hprofile
  refine ⟨Stepper.within_target hprofile hsize hr, fun s session policy w o ho =>
    Stepper.within_step hprofile hsize hr (Prod.ext ho rfl), fun a hpacer hfixed policy w => ?_⟩
  have hmakes : a.stepper.Makes ρ profile none fun p => profile.Paced 1 p.humanLikeness :=
    Stepper.makes_paced hprofile hsize hpacer
  refine ⟨fun session => ⟨(Stepper.submits_step hmakes session policy hr w).1, fun o ho => ?_⟩,
    fun fresh => ⟨(Agent.submits_runEpisode (hfixed ▸ hmakes) fresh policy hr w).1,
      fun o ho => ?_⟩⟩
  · exact Stepper.paced_step hprofile hsize hr hpacer (Prod.ext ho rfl)
  · exact Agent.paced_runEpisode hprofile hsize hr hpacer hfixed (Prod.ext ho rfl)

/-- An episode of three pauses: the shortest one, one in the middle, and one that is rounded to the
longest. -/
theorem Profile.pace_scored_three :
    let profile : Profile ℚ := .standard
    let a : Agent := ⟨⟨.standard, .instant⟩, { EpisodeSettings.standard with maxSteps := 3 }, 1⟩
    let r : Script ℚ := .ofList [1 / 2, 0, 1 / 2, 1 / 2, 1 / 2, 1]
    let w : World (State NoLuck ℚ) ℚ := .start (.new Settings.standard .counting .noLuck)
    let result := (a.runEpisode .nil profile .standard r w).1
    0 < profile.midpoint ∧ profile.likeness 1600 = 8 / 11 ∧
      profile.likeness 5000 ≤ profile.likeness 1600 ∧
      profile.check = .ok () ∧ profile.maxDelay < UInt64.size ∧ InUnit r ∧
      a.stepper.pacer = .instant ∧ a.settings.fixedDelay = none ∧
      result.map (·.toOption.map EpisodeOutcome.meanLikeness) = some (some (9 / 11)) ∧
      ∀ o, result = some (.ok o) → profile.Paced 1 o.meanLikeness := by
  intro profile a r w result
  have hpos : 0 < profile.midpoint := by decide +kernel
  have hprofile : profile.check = .ok () := by decide +kernel
  have hsize : profile.maxDelay < UInt64.size := by decide
  have hr : InUnit r := RandomSource.inUnit_ofList _
  obtain ⟨hscore, hpaced⟩ := pace_scored (σ := State NoLuck ℚ) (ρ := Script ℚ) profile
  obtain ⟨-, -, hruns⟩ := hpaced hprofile hsize r hr
  obtain ⟨-, hepisodes⟩ := hruns a rfl rfl .standard w
  refine ⟨hpos, by decide +kernel, (hscore hpos 1600).2.2.2 5000 (by decide +kernel), hprofile,
    hsize, hr, rfl, rfl, by decide +kernel, (hepisodes .nil).2⟩

end Punter
