/-
# Episodes by what their calls came to

A step is two calls with a decision and a pause between them.  The lemmas of this file open the
definitions of a step, of the loop of steps and of an episode once: by the outcomes of the two
calls, by the outcome of the first step, and by what the steps and the pages came to.
-/
import Mathlib
import Punter.Episode.Run

namespace Punter

variable {σ ρ α : Type} [Scalar α] [Service σ α] [RandomSource ρ α]

namespace Stepper

variable {a : Stepper} {session : SessionId} {profile : Profile α} {policy : Policy α}
  {fixed : Option Duration} {r r₁ r₂ : ρ} {w w₁ w₂ w₃ : World σ α}

omit [Service σ α] in
/-- What drawing a number keeps is kept when the length of a pause is chosen. -/
lemma target_keeps {P : ρ → Prop} (hdraw : ∀ {r}, P r → P (RandomSource.draw (α := α) r).2)
    {d : Duration} (hr : P r) (h : Stepper.target profile fixed r = (d, r₁)) : P r₁ := by
  unfold Stepper.target at h
  cases fixed with
  | some d' =>
    obtain ⟨-, rfl⟩ := Prod.mk.inj h
    exact hr
  | none =>
    rcases huniform : RandomSource.uniform (Scalar.ofNat profile.minDelay : α)
      (Scalar.ofNat profile.maxDelay) r with ⟨ms, r'⟩
    dsimp only at h
    rw [huniform] at h
    obtain ⟨-, rfl⟩ := Prod.mk.inj h
    unfold RandomSource.uniform at huniform
    split at huniform <;> obtain ⟨-, rfl⟩ := Prod.mk.inj huniform
    · exact hr
    · exact hdraw hr

/-- A step by what its calls and its pause came to. -/
lemma step_of_calls {before : Observation α} {proposal : Proposal α} {target actual : Duration}
    {outcome : Except ServiceError (Observation α)}
    (hget : a.call (.get session) w = (.ok before, w₁))
    (hdecide : policy.decide before.phase r = (proposal, r₁))
    (htarget : Stepper.target profile fixed r₁ = (target, r₂))
    (hwait : a.pacer.wait target w₁ = (actual, w₂))
    (hplay : a.call (.play session (proposal.toPlay profile (profile.likeness actual.toMillis)))
      w₂ = (outcome, w₃)) :
    a.step session profile policy fixed r w =
      (outcome.map fun after =>
        ⟨after, proposal, profile.likeness actual.toMillis, target, actual⟩, r₂, w₃) := by
  unfold Stepper.step
  rw [hget]
  dsimp only
  rw [hdecide]
  dsimp only
  rw [htarget]
  dsimp only
  rw [hwait]
  dsimp only
  rw [hplay]
  cases outcome <;> rfl

/-- A step ends where its session cannot be read. -/
lemma step_of_unread {e : ServiceError} (hget : a.call (.get session) w = (.error e, w₁)) :
    a.step session profile policy fixed r w = (.error e, r, w₁) := by
  unfold Stepper.step
  rw [hget]

/-- What a step went through if it did not fail. -/
lemma step_eq_ok {o : StepOutcome α}
    (h : a.step session profile policy fixed r w = (.ok o, r₂, w₃)) :
    ∃ before r₁ w₁ w₂, a.call (.get session) w = (.ok before, w₁) ∧
      policy.decide before.phase r = (o.proposal, r₁) ∧
      Stepper.target profile fixed r₁ = (o.target, r₂) ∧
      a.pacer.wait o.target w₁ = (o.actual, w₂) ∧
      o.likeness = profile.likeness o.actual.toMillis ∧
      a.call (.play session (o.proposal.toPlay profile o.likeness)) w₂ =
        (.ok o.observation, w₃) := by
  rcases hget : a.call (.get session) w with ⟨e | before, w₁⟩
  · rw [step_of_unread hget] at h
    cases h
  · rcases hdecide : policy.decide before.phase r with ⟨proposal, r₁⟩
    rcases htarget : Stepper.target profile fixed r₁ with ⟨target, r₂⟩
    rcases hwait : a.pacer.wait target w₁ with ⟨actual, w₂⟩
    rcases hplay : a.call (.play session (proposal.toPlay profile
      (profile.likeness actual.toMillis))) w₂ with ⟨e | after, w₃⟩ <;>
      rw [step_of_calls hget hdecide htarget hwait hplay] at h <;> cases h
    exact ⟨before, r₁, w₁, w₂, rfl, hdecide, htarget, hwait, rfl, hplay⟩

omit [Scalar α] in
/-- How far the pages are followed makes no difference to what they come to. -/
lemma fetchFrom_of_le {limit m n offset : Nat} {sofar : List (Experience α)}
    (h : (a.fetchFrom session limit n offset sofar w).1 ≠ none) (hn : n ≤ m) :
    a.fetchFrom session limit m offset sofar w = a.fetchFrom session limit n offset sofar w := by
  induction n generalizing m offset sofar w with
  | zero => exact absurd rfl h
  | succ n ih =>
    obtain ⟨m, rfl⟩ := Nat.exists_eq_add_of_le' (Nat.zero_lt_of_lt hn)
    rw [fetchFrom] at h
    rw [fetchFrom, fetchFrom]
    rcases hcall : a.call (.page session limit offset) w with ⟨e | page, w₁⟩
    · rfl
    · rw [hcall] at h
      dsimp only at h ⊢
      split
      · rfl
      · next hfull =>
        rw [if_neg hfull] at h
        exact ih h (Nat.le_of_succ_le_succ hn)

end Stepper

namespace Agent

variable {a : Agent} {session : SessionId} {profile : Profile α} {policy : Policy α} {n : Nat}
  {p : Progress α} {r r₁ : ρ} {w w₁ : World σ α}

lemma steps_of_stopped (h : p.stopped = true) :
    a.steps session profile policy n p r w = (.ok p, r, w) := by
  cases n with
  | zero => rfl
  | succ n => rw [steps, if_pos h]

lemma steps_of_error {e : ServiceError} (h : ¬ p.stopped = true)
    (hstep : a.stepper.step session profile policy a.settings.fixedDelay r w =
      (.error e, r₁, w₁)) :
    a.steps session profile policy (n + 1) p r w = (.error e, r₁, w₁) := by
  rw [steps, if_neg h, hstep]

lemma steps_of_ok {o : StepOutcome α} (h : ¬ p.stopped = true)
    (hstep : a.stepper.step session profile policy a.settings.fixedDelay r w =
      (.ok o, r₁, w₁)) :
    a.steps session profile policy (n + 1) p r w =
      a.steps session profile policy n (p.after o) r₁ w₁ := by
  rw [steps, if_neg h, hstep]

variable {fresh : GameId} {opened : Opened} {e : ServiceError} {w₂ w₃ : World σ α}

lemma runEpisode_of_unopened
    (hcreate : a.stepper.call (.create (a.settings.game.getD fresh) profile.player) w =
      (.error e, w₁)) :
    a.runEpisode fresh profile policy r w = (some (.error e), r, w₁) := by
  simp only [runEpisode, hcreate]

lemma runEpisode_of_broken
    (hcreate : a.stepper.call (.create (a.settings.game.getD fresh) profile.player) w =
      (.ok opened, w₁))
    (hsteps : a.steps opened.session profile policy a.maxSteps
      (.start opened.phase a.settings.breakerThreshold) r w₁ = (.error e, r₁, w₂)) :
    a.runEpisode fresh profile policy r w = (some (.error e), r₁, w₂) := by
  simp only [runEpisode, hcreate, hsteps]

/-- An episode by what its steps and its pages came to. -/
lemma runEpisode_of_reached {fetched : Option (Except ServiceError (List (Experience α)))}
    (hcreate : a.stepper.call (.create (a.settings.game.getD fresh) profile.player) w =
      (.ok opened, w₁))
    (hsteps : a.steps opened.session profile policy a.maxSteps
      (.start opened.phase a.settings.breakerThreshold) r w₁ = (.ok p, r₁, w₂))
    (hfetch : a.fetch opened.session w₂ = (fetched, w₃)) :
    a.runEpisode fresh profile policy r w =
      (fetched.map fun fetched => .ok ⟨opened.session, p.observation, orNone fetched, p.steps,
        p.termination, p.likeness / Scalar.ofNat p.steps⟩, r₁, w₃) := by
  simp only [runEpisode, hcreate, hsteps, hfetch]

/-- The same agent, whose pages are followed for another number of them. -/
def withHorizon (a : Agent) (horizon : Nat) : Agent := { a with horizon := horizon }

lemma steps_withHorizon (a : Agent) (horizon : Nat) :
    (a.withHorizon horizon).steps session profile policy n p r w =
      a.steps session profile policy n p r w := by
  induction n generalizing p r w with
  | zero => rfl
  | succ n ih =>
    simp only [steps, ih]
    rfl

omit [Scalar α] in
lemma fetch_withHorizon (h : (a.fetch session w).1 ≠ none) (hn : a.horizon ≤ n) :
    (a.withHorizon n).fetch session w = a.fetch session w :=
  Stepper.fetchFrom_of_le h hn

/-- An episode that has an outcome is the same however much further its pages are followed. -/
lemma runEpisode_withHorizon (h : (a.runEpisode fresh profile policy r w).1 ≠ none)
    (hn : a.horizon ≤ n) :
    (a.withHorizon n).runEpisode fresh profile policy r w =
      a.runEpisode fresh profile policy r w := by
  rcases hcreate : a.stepper.call (.create (a.settings.game.getD fresh) profile.player) w with
    ⟨e | opened, w₁⟩
  · rw [runEpisode_of_unopened hcreate, runEpisode_of_unopened (a := a.withHorizon n) hcreate]
  · rcases hsteps : a.steps opened.session profile policy a.maxSteps
      (.start opened.phase a.settings.breakerThreshold) r w₁ with ⟨e | p, r₁, w₂⟩ <;>
      have hsteps' := (a.steps_withHorizon n).trans hsteps
    · rw [runEpisode_of_broken hcreate hsteps,
        runEpisode_of_broken (a := a.withHorizon n) hcreate hsteps']
    · rcases hfetch : a.fetch opened.session w₂ with ⟨fetched, w₃⟩
      rw [runEpisode_of_reached hcreate hsteps hfetch] at h ⊢
      have hended : (a.fetch opened.session w₂).1 ≠ none := by
        rw [hfetch]
        rintro rfl
        exact h rfl
      have hfetch' : (a.withHorizon n).fetch opened.session w₂ = (fetched, w₃) :=
        (fetch_withHorizon hended hn).trans hfetch
      exact runEpisode_of_reached (a := a.withHorizon n) hcreate hsteps' hfetch'

end Agent

end Punter
