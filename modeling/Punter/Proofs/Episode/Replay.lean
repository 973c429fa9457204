/-
# Episodes as the simulated service sees them

An agent does two things to the world: it calls the service, and it lets time pass
(`World.Reaches`).  The log of the world leaves nothing out, and so it can be replayed: taken for a
run of the simulated service, the exchanges of an episode lead to the state in which the episode has
left it, with the same answers (`World.Reaches.replays`).  What is known of runs of the service is
known of episodes in this way, and nothing has to be said about the loops of the agent again.
-/
import Mathlib
import Punter.Proofs.Episode.Steps
import Punter.Proofs.Resilience.Attempts
import Punter.Proofs.Simulation.Runs

namespace Punter

variable {σ ρ α : Type}

/-! ## What an agent does to the world -/

/-- A world that is reached from `w` by calls and by letting time pass. -/
inductive World.Reaches [Service σ α] (w : World σ α) : World σ α → Prop
  | refl : Reaches w w
  | ask {w₁ : World σ α} (before : Reaches w w₁) (c : Call α) : Reaches w (w₁.ask c).2
  | rest {w₁ w₂ : World σ α} (before : Reaches w w₁) (service : w₂.service = w₁.service)
      (log : w₂.log = w₁.log) : Reaches w w₂

section Reaches

variable [Service σ α]

lemma World.Reaches.trans {w w₁ w₂ : World σ α} (h : w.Reaches w₁) (h' : w₁.Reaches w₂) :
    w.Reaches w₂ := by
  induction h' with
  | refl => exact h
  | ask _ c ih => exact ih.ask c
  | rest _ service log ih => exact ih.rest service log

/-- What holds of a service and is kept by its answers still holds in a world that is reached. -/
lemma World.Reaches.invariant {P : σ → Prop}
    (answer : ∀ {s : σ} (c : Call α) (now : Duration), P s → P (Service.answer c now s).2)
    {w w' : World σ α} (h : w.Reaches w') (hw : P w.service) : P w'.service := by
  induction h with
  | refl => exact hw
  | @ask w₁ _ c ih => exact answer c w₁.clock ih
  | rest _ service _ ih =>
    rw [service]
    exact ih

lemma Retrier.reaches_attempts (r : Retrier) (c : Call α) (left attempt : Nat) (w : World σ α) :
    w.Reaches (r.attempts World.sleep (World.ask c) left attempt w).2 := by
  induction left generalizing attempt w with
  | zero =>
    rcases hask : w.ask c with ⟨e | v, w₁⟩
    · rw [attempts_zero hask, ← hask]
      exact .ask .refl c
    · rw [attempts_of_ok hask, ← hask]
      exact .ask .refl c
  | succ left ih =>
    have hfirst : w.Reaches (w.ask c).2 := .ask .refl c
    rcases hask : w.ask c with ⟨e | v, w₁⟩ <;> rw [hask] at hfirst
    · by_cases he : r.classifier.isRetryable e = true
      · rw [attempts_succ hask he]
        have hslept : w.Reaches (w₁.sleep (r.backoff.delay attempt)) := hfirst.rest rfl rfl
        exact hslept.trans (ih (Number.next32 attempt) _)
      · rw [attempts_of_final hask (Bool.eq_false_of_not_eq_true he)]
        exact hfirst
    · rw [attempts_of_ok hask]
      exact hfirst

namespace Stepper

lemma reaches_call (s : Stepper) (c : Call α) (w : World σ α) : w.Reaches (s.call c w).2 :=
  s.retrier.reaches_attempts c _ _ w

lemma reaches_fetchFrom (s : Stepper) (session : SessionId) (limit pages offset : Nat)
    (sofar : List (Experience α)) (w : World σ α) :
    w.Reaches (s.fetchFrom session limit pages offset sofar w).2 := by
  induction pages generalizing offset sofar w with
  | zero => exact .refl
  | succ pages ih =>
    have hfirst := s.reaches_call (.page session limit offset) w
    rcases hcall : s.call (.page session limit offset) w with ⟨e | page, w₁⟩ <;>
      rw [hcall] at hfirst <;> simp only [fetchFrom, hcall]
    · exact hfirst
    · split
      · exact hfirst
      · exact hfirst.trans (ih _ _ w₁)

variable [Scalar α] [RandomSource ρ α]

lemma reaches_step (s : Stepper) (session : SessionId) (profile : Profile α) (policy : Policy α)
    (fixed : Option Duration) (r : ρ) (w : World σ α) :
    w.Reaches (s.step session profile policy fixed r w).2.2 := by
  have hread := s.reaches_call (.get session) w
  rcases hget : s.call (.get session) w with ⟨e | before, w₁⟩ <;> rw [hget] at hread
  · rw [step_of_unread hget]
    exact hread
  · rcases hdecide : policy.decide before.phase r with ⟨proposal, r₁⟩
    rcases htarget : Stepper.target profile fixed r₁ with ⟨target, r₂⟩
    have hpause : w₁.Reaches (s.pacer.wait target w₁).2 := .rest .refl rfl rfl
    rcases hwait : s.pacer.wait target w₁ with ⟨actual, w₂⟩
    have hplayed := s.reaches_call
      (.play session (proposal.toPlay profile (profile.likeness actual.toMillis))) w₂
    rw [hwait] at hpause
    rw [step_of_calls hget hdecide htarget hwait rfl]
    exact hread.trans (hpause.trans hplayed)

end Stepper

namespace Agent

variable [Scalar α] [RandomSource ρ α]

lemma reaches_steps (a : Agent) (session : SessionId) (profile : Profile α) (policy : Policy α)
    (n : Nat) (p : Progress α) (r : ρ) (w : World σ α) :
    w.Reaches (a.steps session profile policy n p r w).2.2 := by
  induction n generalizing p r w with
  | zero => exact .refl
  | succ n ih =>
    by_cases hstopped : p.stopped = true
    · rw [steps_of_stopped hstopped]
      exact .refl
    · have hfirst := a.stepper.reaches_step session profile policy a.settings.fixedDelay r w
      rcases h : a.stepper.step session profile policy a.settings.fixedDelay r w with
        ⟨e | o, r₁, w₁⟩ <;> rw [h] at hfirst
      · rw [steps_of_error hstopped h]
        exact hfirst
      · rw [steps_of_ok hstopped h]
        exact hfirst.trans (ih _ _ w₁)

/-- An episode does nothing to the world but what an agent can do. -/
theorem reaches_runEpisode (a : Agent) (fresh : GameId) (profile : Profile α) (policy : Policy α)
    (r : ρ) (w : World σ α) : w.Reaches (a.runEpisode fresh profile policy r w).2.2 := by
  have hopened := a.stepper.reaches_call (.create (a.settings.game.getD fresh) profile.player) w
  rcases hcreate : a.stepper.call (.create (a.settings.game.getD fresh) profile.player) w with
    ⟨e | opened, w₁⟩ <;> rw [hcreate] at hopened
  · rw [runEpisode_of_unopened hcreate]
    exact hopened
  · have hplayed := a.reaches_steps opened.session profile policy a.maxSteps
      (.start opened.phase a.settings.breakerThreshold) r w₁
    rcases hsteps : a.steps opened.session profile policy a.maxSteps
      (.start opened.phase a.settings.breakerThreshold) r w₁ with ⟨e | p, r₁, w₂⟩ <;>
      rw [hsteps] at hplayed
    · rw [runEpisode_of_broken hcreate hsteps]
      exact hopened.trans hplayed
    · have hfetched : w₂.Reaches (a.fetch opened.session w₂).2 :=
        a.stepper.reaches_fetchFrom opened.session _ _ _ _ w₂
      rcases hfetch : a.fetch opened.session w₂ with ⟨fetched, w₃⟩
      rw [hfetch] at hfetched
      rw [runEpisode_of_reached hcreate hsteps hfetch]
      exact hopened.trans (hplayed.trans hfetched)

end Agent

end Reaches

/-! ## The simulated service -/

/-- What was done with the service in an exchange. -/
def Exchange.operation (x : Exchange α) : Simulation.Operation α := .call x.call x.time

namespace Simulation.State

variable {γ : Type} [Scalar α] [Chance γ α]

lemma exchanges_append (s : State γ α) (ops more : List (Operation α)) :
    s.exchanges (ops ++ more) = s.exchanges ops ++ (s.run ops).exchanges more := by
  induction ops generalizing s with
  | nil => rfl
  | cons op ops ih => cases op <;> simp only [List.cons_append, exchanges, ih] <;> rfl

/-- A queue from which nothing can be taken stays as it is. -/
lemma failures_answer_of_nil {s : State γ α} {k : CallKind} (h : s.failures.of k = [])
    (c : Call α) (now : Duration) : (s.answer c now).2.failures.of k = [] := by
  cases hl : CallKind.of? c with
  | none =>
    cases c <;> cases hl
    exact h
  | some l =>
    cases hq : s.failures.of l with
    | nil =>
      rw [answer_eq_serve hl hq]
      exact h
    | cons e es =>
      rw [answer_of_cons hl hq]
      have hkl : k ≠ l := by
        rintro rfl
        simp [h] at hq
      simpa [queue, count, hkl] using h

end Simulation.State

namespace World.Reaches

variable {γ : Type} [Scalar α] [Chance γ α] {w w' : World (Simulation.State γ α) α}

/-- The log tells in which state the service was left. -/
theorem replays (h : w.Reaches w') :
    ∃ trace, w'.history = w.history ++ trace ∧
      w'.service = w.service.run (trace.map Exchange.operation) ∧
      w.service.exchanges (trace.map Exchange.operation) = trace := by
  induction h with
  | refl => exact ⟨[], (List.append_nil _).symm, rfl, rfl⟩
  | @ask w₁ _ c ih =>
    obtain ⟨trace, hhistory, hservice, hexchanges⟩ := ih
    refine ⟨trace ++ [⟨w₁.clock, c, (w₁.service.answer c w₁.clock).1⟩], ?_, ?_, ?_⟩
    · rw [← List.append_assoc, ← hhistory]
      exact List.reverse_cons
    · rw [List.map_append, Simulation.State.run_append, ← hservice]
      rfl
    · rw [List.map_append, Simulation.State.exchanges_append, hexchanges, ← hservice]
      rfl
  | @rest w₁ w₂ _ service log ih =>
    obtain ⟨trace, hhistory, hservice, hexchanges⟩ := ih
    refine ⟨trace, ?_, service.trans hservice, hexchanges⟩
    rw [← hhistory, history, log, history]

lemma unqueued (h : w.Reaches w') {k : Simulation.CallKind}
    (hk : w.service.failures.of k = []) : w'.service.failures.of k = [] :=
  h.invariant (P := fun s => s.failures.of k = [])
    (fun c now hs => Simulation.State.failures_answer_of_nil hs c now) hk

end World.Reaches

end Punter
