/-
# Calls that are tried again

A queued failure is answered before its call has an effect, and a call that is refused has none.
So it does not show in the simulated service how often a call was tried: as long as the retrier
makes up for the queued failures (`Spared`), the service is left as if the call had been served
once, with its queue drained (`Serves`).
-/
import Mathlib
import Punter.Episode.Step
import Punter.Proofs.Resilience.Attempts
import Punter.Proofs.Simulation.Calls

namespace Punter.Simulation.State

variable {γ α : Type}

/-- All queued failures are made up for: none of them is final, and no queue is longer than the
number of retries. -/
def Spared (r : Retrier) (s : State γ α) : Prop :=
  ∀ k, (∀ e ∈ s.failures.of k, r.classifier.isRetryable e = true) ∧
    (s.failures.of k).length ≤ r.backoff.maxRetries

/-- Queues failures for all kinds of call. -/
def injectAll (s : State γ α) (errs : CallKind → List ServiceError) : State γ α :=
  (((s.inject .create (errs .create)).inject .get (errs .get)).inject .play (errs .play)).inject
    .page (errs .page)

lemma failures_injectAll (s : State γ α) (errs : CallKind → List ServiceError) (k : CallKind) :
    (s.injectAll errs).failures.of k = s.failures.of k ++ errs k := by
  cases k <;> simp [injectAll, inject]

/-- Between two states of a service the queues were drained, except for kinds of call that were
not made. -/
def Drained (s s' : State γ α) : Prop :=
  ∀ k, s'.failures.of k = [] ∨
    (s'.failures.of k = s.failures.of k ∧ s'.calls.of k = s.calls.of k)

/-- Queues and counters are the same for all kinds of call but one. -/
def KeepsOthers (k : CallKind) (s s' : State γ α) : Prop :=
  ∀ l ≠ k, s'.failures.of l = s.failures.of l ∧ s'.calls.of l = s.calls.of l

lemma Drained.refl (s : State γ α) : s.Drained s := fun _ => Or.inr ⟨rfl, rfl⟩

lemma Drained.trans {s s₁ s₂ : State γ α} (h : s.Drained s₁) (h' : s₁.Drained s₂) :
    s.Drained s₂ := by
  intro k
  rcases h' k with hnil | ⟨hfailures, hcalls⟩
  · exact Or.inl hnil
  · rw [hfailures, hcalls]
    exact h k

lemma Spared.drained {r : Retrier} {s s' : State γ α} (hs : s.Spared r) (h : s.Drained s') :
    s'.Spared r := by
  intro k
  rcases h k with hnil | ⟨hfailures, -⟩
  · rw [hnil]
    exact ⟨by simp, Nat.zero_le _⟩
  · rw [hfailures]
    exact hs k

lemma KeepsOthers.drained {k : CallKind} {s s' : State γ α} (h : KeepsOthers k s s')
    (hk : s'.failures.of k = []) : s.Drained s' := by
  intro l
  by_cases hl : l = k
  · exact Or.inl (hl ▸ hk)
  · exact Or.inr (h l hl)

lemma KeepsOthers.trans {k : CallKind} {s s₁ s₂ : State γ α} (h : KeepsOthers k s s₁)
    (h' : KeepsOthers k s₁ s₂) : KeepsOthers k s s₂ :=
  fun l hl => ⟨(h' l hl).1.trans (h l hl).1, (h' l hl).2.trans (h l hl).2⟩

lemma keepsOthers_count (k : CallKind) (s : State γ α) : KeepsOthers k s (s.count k) :=
  fun l hl => ⟨rfl, by simp [count, hl]⟩

lemma keepsOthers_queue (k : CallKind) (s : State γ α) (es : List ServiceError) :
    KeepsOthers k s ((s.count k).queue k es) :=
  fun l hl => ⟨by simp [count, queue, hl], by simp [count, queue, hl]⟩

variable [Scalar α] [Chance γ α]

/-- What a call of a kind comes to: outcome and service are those of the served call, its queue is
drained, and queues and counters of other calls are kept. -/
structure Serves (c : Call α) (k : CallKind) (w : World (State γ α) α)
    (result : Except ServiceError c.Answer × World (State γ α) α) : Prop where
  served : ∃ now, result.1 = (w.service.serve c now).1 ∧
    result.2.service = (w.service.serve c now).2.withTallies result.2.service
  drained : result.2.service.failures.of k = []
  keepsOthers : KeepsOthers k w.service result.2.service

variable {c : Call α} {k : CallKind} {w : World (State γ α) α}

/-- An attempt that failed without effect may be left out. -/
lemma Serves.of_failed {w₁ : World (State γ α) α}
    {result : Except ServiceError c.Answer × World (State γ α) α}
    (hservice : w₁.service = w.service.withTallies w₁.service)
    (hkeeps : KeepsOthers k w.service w₁.service) (h : Serves c k w₁ result) :
    Serves c k w result := by
  obtain ⟨now, houtcome, hafter⟩ := h.served
  have hserve := serve_withTallies w.service w₁.service c now
  rw [← hservice] at hserve
  rw [hserve] at houtcome hafter
  exact ⟨⟨now, houtcome, hafter⟩, h.drained, hkeeps.trans h.keepsOthers⟩

/-- An attempt for which no failure is queued. -/
lemma serves_ask (hk : CallKind.of? c = some k) (hq : w.service.failures.of k = []) :
    Serves c k w (w.ask c) := by
  rw [World.ask_of_answer (answer_eq_serve hk hq w.clock)]
  refine ⟨⟨w.clock, rfl, rfl⟩, hq, ?_⟩
  exact keepsOthers_count k w.service

/-- An attempt that fails, with what the attempts after it come to.  Whether the failure was
queued or the call was refused, the service is as before. -/
lemma serves_attempts_of_error {r : Retrier} {left attempt : Nat} {e : ServiceError}
    {w₁ : World (State γ α) α} (hask : w.ask c = (.error e, w₁))
    (he : r.classifier.isRetryable e = true)
    (hservice : w₁.service = w.service.withTallies w₁.service)
    (hkeeps : KeepsOthers k w.service w₁.service)
    (hrest : ∀ w₂ : World (State γ α) α, w₂.service = w₁.service →
      Serves c k w₂ (r.attempts World.sleep (World.ask c) left (Number.next32 attempt) w₂)) :
    Serves c k w (r.attempts World.sleep (World.ask c) (left + 1) attempt w) := by
  rw [Retrier.attempts_succ hask he]
  have hrest := hrest (w₁.sleep (r.backoff.delay attempt)) rfl
  -- time passes before the next attempt, but nothing happens to the service
  have hslept : (w₁.sleep (r.backoff.delay attempt)).service =
      w.service.withTallies (w₁.sleep (r.backoff.delay attempt)).service := hservice
  exact hrest.of_failed hslept hkeeps

/-- The attempts of a call come to the call being served once.  The induction is on the retries
that are left, which are at least as many as the failures that are still queued. -/
lemma serves_attempts {r : Retrier} (hk : CallKind.of? c = some k) {left attempt : Nat}
    (hretryable : ∀ e ∈ w.service.failures.of k, r.classifier.isRetryable e = true)
    (hleft : (w.service.failures.of k).length ≤ left) :
    Serves c k w (r.attempts World.sleep (World.ask c) left attempt w) := by
  induction left generalizing attempt w with
  | zero =>
    have hq := List.eq_nil_of_length_eq_zero (Nat.le_zero.mp hleft)
    have hserves := serves_ask hk hq
    rcases hask : w.ask c with ⟨e | v, w₁⟩
    · rw [Retrier.attempts_zero hask, ← hask]
      exact hserves
    · rw [Retrier.attempts_of_ok hask, ← hask]
      exact hserves
  | succ left ih =>
    cases hq : w.service.failures.of k with
    | cons e es =>
      have hask : w.ask c = (.error e, w.exchanged ⟨w.clock, c, .error e⟩
          ((w.service.count k).queue k es)) :=
        World.ask_of_answer (answer_of_cons hk hq w.clock)
      rw [hq] at hretryable hleft
      refine serves_attempts_of_error hask (hretryable e (List.mem_cons_self ..)) rfl
        (keepsOthers_queue k w.service es) ?_
      intro w₂ hw₂
      refine ih ?_ ?_ <;> rw [hw₂, World.service_exchanged] <;>
        simp only [queue, count, PerCall.of_set, if_true]
      · exact fun e' he' => hretryable e' (List.mem_cons_of_mem _ he')
      · exact Nat.le_of_succ_le_succ hleft
    | nil =>
      have hserves := serves_ask hk hq
      rcases hask : w.ask c with ⟨e | v, w₁⟩
      · by_cases he : r.classifier.isRetryable e = true
        · rw [hask] at hserves
          -- the call was refused, and will be refused again
          obtain ⟨now, houtcome, hservice⟩ := hserves.served
          obtain ⟨hsame, -⟩ := serve_eq_error (Prod.ext houtcome.symm rfl :
            w.service.serve c now = (.error e, (w.service.serve c now).2))
          rw [hsame] at hservice
          refine serves_attempts_of_error hask he hservice hserves.keepsOthers ?_
          intro w₂ hw₂
          have hq₂ : w₂.service.failures.of k = [] := hw₂ ▸ hserves.drained
          exact ih (by simp [hq₂]) (by simp [hq₂])
        · rw [Retrier.attempts_of_final hask (Bool.eq_false_of_not_eq_true he), ← hask]
          exact hserves
      · rw [Retrier.attempts_of_ok hask, ← hask]
        exact hserves

/-- A call of the agent comes to the call being served once. -/
theorem serves_call (a : Stepper) (hk : CallKind.of? c = some k) (hs : w.service.Spared a.retrier) :
    Serves c k w (a.call c w) :=
  serves_attempts hk (hs k).1 (hs k).2

/-! ## Services on which nothing is queued -/

omit [Scalar α] [Chance γ α] in
lemma spared_of_unqueued {s : State γ α} (h : ∀ k, s.failures.of k = []) (r : Retrier) :
    s.Spared r :=
  fun k => by simp [h k]

/-- Where no failure is queued, a call of the agent comes to what it comes to when it is served, and
nothing is queued afterwards. -/
theorem unqueued_call (a : Stepper) (hk : CallKind.of? c = some k)
    (hq : ∀ l, w.service.failures.of l = []) :
    (∃ now, (a.call c w).1 = (w.service.serve c now).1 ∧
      (a.call c w).2.service = (w.service.serve c now).2.withTallies (a.call c w).2.service) ∧
      ∀ l, (a.call c w).2.service.failures.of l = [] := by
  have hserves := serves_call a hk (spared_of_unqueued hq a.retrier)
  refine ⟨hserves.served, fun l => ?_⟩
  rcases hserves.keepsOthers.drained hserves.drained l with hnil | ⟨hkept, -⟩
  · exact hnil
  · rw [hkept]
    exact hq l

lemma ask_of_unqueued (hk : CallKind.of? c = some k) (hq : w.service.failures.of k = []) :
    w.ask c = ((w.service.serve c w.clock).1,
      w.exchanged ⟨w.clock, c, (w.service.serve c w.clock).1⟩
        ((w.service.serve c w.clock).2.withTallies (w.service.count k))) :=
  World.ask_of_answer (answer_eq_serve hk hq w.clock)

/-- Where no failure is queued, a call that is tried again is refused again for the same reason: in
the log all attempts came to what the call comes to when it is served. -/
lemma log_attempts {r : Retrier} (hk : CallKind.of? c = some k)
    (hq : w.service.failures.of k = []) (left attempt : Nat) :
    ∃ trace, (r.attempts World.sleep (World.ask c) left attempt w).2.history =
        w.history ++ trace ∧
      ∀ x ∈ trace, ∃ now, x = ⟨now, c, (w.service.serve c now).1⟩ := by
  induction left generalizing attempt w with
  | zero =>
    refine ⟨[⟨w.clock, c, (w.service.serve c w.clock).1⟩], ?_, by simp⟩
    have hask := ask_of_unqueued hk hq
    rcases houtcome : (w.service.serve c w.clock).1 with e | v <;> rw [houtcome] at hask
    · rw [Retrier.attempts_zero hask, World.history_exchanged]
    · rw [Retrier.attempts_of_ok hask, World.history_exchanged]
  | succ left ih =>
    have hask := ask_of_unqueued hk hq
    rcases houtcome : (w.service.serve c w.clock).1 with e | v <;> rw [houtcome] at hask
    · by_cases he : r.classifier.isRetryable e = true
      · -- the service is as before, but for its tallies
        obtain ⟨hsame, -⟩ := serve_eq_error (Prod.ext houtcome rfl :
          w.service.serve c w.clock = (.error e, (w.service.serve c w.clock).2))
        rw [hsame] at hask
        rw [Retrier.attempts_succ hask he]
        obtain ⟨trace, hhistory, htrace⟩ := ih
          (w := (w.exchanged ⟨w.clock, c, .error e⟩
            (w.service.withTallies (w.service.count k))).sleep (r.backoff.delay attempt))
          hq (Number.next32 attempt)
        refine ⟨⟨w.clock, c, .error e⟩ :: trace, ?_, ?_⟩
        · rw [hhistory, World.history_sleep, World.history_exchanged, List.append_assoc]
          rfl
        · intro x hx
          rcases List.mem_cons.mp hx with rfl | hx
          · exact ⟨w.clock, by rw [houtcome]⟩
          · obtain ⟨now, rfl⟩ := htrace x hx
            have hserve : ((w.service.withTallies (w.service.count k)).serve c now).1 =
                (w.service.serve c now).1 := by rw [serve_withTallies]
            exact ⟨now, congrArg (Exchange.mk now c) hserve⟩
      · refine ⟨[⟨w.clock, c, .error e⟩], ?_, by simp [← houtcome]⟩
        rw [Retrier.attempts_of_final hask (Bool.eq_false_of_not_eq_true he),
          World.history_exchanged]
    · refine ⟨[⟨w.clock, c, .ok v⟩], ?_, by simp [← houtcome]⟩
      rw [Retrier.attempts_of_ok hask, World.history_exchanged]

end Punter.Simulation.State
