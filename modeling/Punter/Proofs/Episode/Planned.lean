/-
# Episodes by the plan

An agent that never explores plays its session by the plan, as far as the service lets it.  On a
simulated service on which no failure is queued it can only be stopped by three things: the end of
its session, the number of steps that it is allowed, and a wallet that does not hold the bet that is
due.  In all three cases the number of steps says how many spins were made.  It then has an outcome,
unless so many steps were allowed that the pages need not end.

Nothing is assumed about the settings of the service, or about the other sessions that it holds.
-/
import Mathlib
import Punter.Proofs.Episode.Protocol
import Punter.Proofs.Episode.Recorded
import Punter.Proofs.Episode.Solvency
import Punter.Proofs.Policy.Planning
import Punter.Proofs.Simulation.Planned

namespace Punter

open RandomSource (NeverBelow)
open Simulation (BetDue CallKind Follows Game Move Names Settings State acceptedPlay)

variable {γ ρ σ : Type} {settings : Settings ℚ} {profile : Profile ℚ} {id : SessionId}
  {g : Game ℚ} {ms ms' : List (Move ℚ)}

/-! ## What is logged -/

/-- The failures that a session in the state `g` can meet when it is played by the plan: a bet is
due that the wallet does not hold, or the session is completed and has been dropped. -/
inductive PlannedFailure (profile : Profile ℚ) (id : SessionId) (g : Game ℚ) : Exchange ℚ → Prop
  | overdrawn (now : Duration) (p : Play ℚ) (due : BetDue g.phase)
      (short : g.balance < profile.minBet) :
      PlannedFailure profile id g ⟨now, .play id p, .error (g.overdrawn profile.minBet)⟩
  | dropped (now : Duration) (limit offset : ℕ) (ended : g.phase = .completed) :
      PlannedFailure profile id g ⟨now, .page id limit offset, .error (State.notFound id)⟩

/-- Between two worlds the accepted plays were those of the moves `ms`, and whatever has failed,
attempts that were made again included, is one of the given failures. -/
def World.Logs (failure : Exchange ℚ → Prop) (ms : List (Move ℚ)) (w w' : World σ ℚ) : Prop :=
  ∃ trace, w'.history = w.history ++ trace ∧
    trace.filterMap acceptedPlay = ms.map (fun m => (m.session, m.play, m.observation)) ∧
    ∀ x ∈ trace, x.succeeded = false → failure x

namespace World.Logs

variable {failure failure' : Exchange ℚ → Prop} {w w₁ w₂ : World σ ℚ}

lemma of_history_eq (h : w₁.history = w.history) : w.Logs failure [] w₁ :=
  ⟨[], by rw [h, List.append_nil], rfl, by simp⟩

lemma trans (h : w.Logs failure ms w₁) (h' : w₁.Logs failure ms' w₂) :
    w.Logs failure (ms ++ ms') w₂ := by
  obtain ⟨trace, hhistory, hplays, hfailures⟩ := h
  obtain ⟨trace', hhistory', hplays', hfailures'⟩ := h'
  refine ⟨trace ++ trace', ?_, ?_, ?_⟩
  · rw [hhistory', hhistory, List.append_assoc]
  · rw [List.filterMap_append, hplays, hplays', List.map_append]
  · intro x hx
    exact (List.mem_append.mp hx).elim (hfailures x) (hfailures' x)

lemma mono (h : w.Logs failure ms w₁) (hfailure : ∀ x, failure x → failure' x) :
    w.Logs failure' ms w₁ := by
  obtain ⟨trace, hhistory, hplays, hfailures⟩ := h
  exact ⟨trace, hhistory, hplays, fun x hx hfailed => hfailure x (hfailures x hx hfailed)⟩

end World.Logs

variable [Chance γ ℚ] {w w₁ : World (State γ ℚ) ℚ}

/-- What a call of the agent leaves in the log, where no failure is queued. -/
lemma Stepper.logs_call (a : Stepper) {c : Call ℚ} {k : CallKind} (hk : CallKind.of? c = some k)
    (hq : w.service.failures.of k = []) {failure : Exchange ℚ → Prop}
    (hplays : ∀ now, [(⟨now, c, (a.call c w).1⟩ : Exchange ℚ)].filterMap acceptedPlay =
      ms.map (fun m => (m.session, m.play, m.observation)))
    (hfailure : ∀ now e, (w.service.serve c now).1 = .error e → failure ⟨now, c, .error e⟩) :
    w.Logs failure ms (a.call c w).2 := by
  obtain ⟨now, trace, hhistory, hblocks⟩ := a.asks_call c w
  obtain ⟨trace', hhistory', htrace⟩ :=
    State.log_attempts (r := a.retrier) hk hq a.retrier.backoff.maxRetries 0
  obtain rfl : trace' = trace := List.append_cancel_left (hhistory'.symm.trans hhistory)
  refine ⟨trace', hhistory, ?_, ?_⟩
  · rw [hblocks.filterMap_eq fun _ c _ => by cases c <;> rfl]
    exact hplays now
  · intro x hx hfailed
    obtain ⟨now', rfl⟩ := htrace x hx
    rcases houtcome : (w.service.serve c now').1 with e | v
    · exact hfailure now' e houtcome
    · rw [houtcome] at hfailed
      cases hfailed

/-! ## Steps -/

/-- A service on which nothing is queued, and which holds a session in the state `g`, unless the
session is completed. -/
structure Simulation.State.Poised (settings : Settings ℚ) (id : SessionId) (g : Game ℚ)
    (s : State γ ℚ) : Prop where
  settings_eq : s.settings = settings
  unqueued : ∀ k, s.failures.of k = []
  found : g.phase ≠ .completed → ∃ h, s.find? id = some h ∧ h.game = g

namespace Stepper

variable (a : Stepper)

/-- A session that is open is read as it is, and nothing changes. -/
lemma planned_get (hw : w.service.Poised settings id g) (hopen : g.phase ≠ .completed) :
    ∃ w₁, a.call (.get id) w = (.ok (g.observation none), w₁) ∧
      w₁.service.Poised settings id g ∧ w.Logs (fun _ => False) [] w₁ := by
  obtain ⟨h, found, rfl⟩ := hw.found hopen
  have hget : w.service.get id = .ok (h.game.observation none) := by simp only [State.get, found]
  obtain ⟨⟨now, hread, hservice⟩, hunqueued⟩ :=
    State.unqueued_call a (c := .get id) rfl hw.unqueued
  have hlogs : w.Logs (fun _ => False) [] (a.call (.get id) w).2 := by
    refine a.logs_call (c := .get id) rfl (hw.unqueued .get) ?_ ?_
    · intro now
      rw [hread]
      simp only [State.serve, hget]
      rfl
    · intro now e he
      simp only [State.serve, hget] at he
      cases he
  refine ⟨_, Prod.ext (hread.trans hget) rfl, ⟨?_, hunqueued, fun _ => ⟨h, ?_, rfl⟩⟩, hlogs⟩
  · rw [hservice]
    exact hw.settings_eq
  · rw [hservice]
    exact found

/-- The planned play of a session that is open, with whatever score of its pace, is refused for want
of money, or makes the planned turn. -/
lemma planned_play {j : ℕ} (hw : w.service.Poised settings id g)
    (hg : g.OnPlan settings profile j) (hprofile : profile.Playable)
    (hopen : g.phase ≠ .completed) {p : Play ℚ} (hp : p.action = g.planned profile) :
    (a.call (.play id p) w).1 = .error (g.overdrawn profile.minBet) ∧ BetDue g.phase ∧
        g.balance < profile.minBet ∧
        w.Logs (PlannedFailure profile id g) [] (a.call (.play id p) w).2 ∨
      ∃ t c, (a.call (.play id p) w).1 = .ok (t.after.observation (some t.result)) ∧
        g.Plays settings p.action w.service.chances t c ∧
        (a.call (.play id p) w).2.service.Poised settings id t.after ∧
        w.Logs (fun _ => False) [⟨id, p, g, t⟩] (a.call (.play id p) w).2 := by
  obtain ⟨h, found, rfl⟩ := hw.found hopen
  obtain ⟨⟨now, hplayed, hservice⟩, hunqueued⟩ :=
    State.unqueued_call a (c := .play id p) rfl hw.unqueued
  rcases hg.refuses_or_plays γ hprofile hopen with ⟨hdue, hshort, hrefuses⟩ | ⟨-, hplays⟩
  · -- it is refused as often as it is tried
    have hrefused : ∀ now, w.service.play now id p =
        (.error (h.game.overdrawn profile.minBet), w.service) := by
      refine State.play_of_refuses found ?_
      rwa [hw.settings_eq, hp]
    rw [State.serve, hrefused] at hplayed
    refine .inl ⟨hplayed, hdue, hshort, a.logs_call rfl (hw.unqueued .play) ?_ ?_⟩
    · intro now
      rw [hplayed]
      rfl
    · intro now e he
      rw [State.serve, hrefused] at he
      obtain rfl := Except.error.inj he
      exact .overdrawn now p hdue hshort
  · obtain ⟨t, c, hplays⟩ := hplays w.service.chances
    rw [← hp] at hplays
    have haccepted : ∀ now, w.service.play now id p =
        (.ok (t.after.observation (some t.result)), w.service.settled now h p t c) := by
      refine State.play_of_plays found ?_
      rwa [hw.settings_eq]
    rw [State.serve, haccepted] at hplayed hservice
    refine .inr ⟨t, c, hplayed, hplays, ⟨?_, hunqueued, fun hopen => ?_⟩,
      a.logs_call rfl (hw.unqueued .play) ?_ ?_⟩
    · rw [hservice]
      exact State.settled_settings.trans hw.settings_eq
    · obtain rfl := State.id_of_find? found
      rcases State.find?_settled now p t c found with hfind | ⟨hended, -⟩
      · exact ⟨_, by rw [hservice, State.find?_withTallies, hfind], rfl⟩
      · exact absurd hended hopen
    · intro now
      rw [hplayed]
      rfl
    · intro now e he
      rw [State.serve, haccepted] at he
      cases he

variable [RandomSource ρ ℚ] {policy : Policy ℚ} {r : ρ}

/-- A step by the plan. -/
lemma planned_step (fixed : Option Duration) (planned : Follows γ settings profile id ms g)
    (hw : w.service.Poised settings id g) (hprofile : profile.Playable)
    (hr : NeverBelow policy.epsilon r) (hopen : g.phase ≠ .completed) :
    ∃ r₁ w₁, NeverBelow policy.epsilon r₁ ∧
      (a.step id profile policy fixed r w = (.error (g.overdrawn profile.minBet), r₁, w₁) ∧
          BetDue g.phase ∧ g.balance < profile.minBet ∧
          w.Logs (PlannedFailure profile id g) [] w₁ ∨
        ∃ o m, a.step id profile policy fixed r w = (.ok o, r₁, w₁) ∧
          Follows γ settings profile id (ms ++ [m]) m.turn.after ∧ o.observation = m.observation ∧
          w₁.service.Poised settings id m.turn.after ∧ w.Logs (fun _ => False) [m] w₁) := by
  obtain ⟨w₁, hget, hw₁, hread⟩ := a.planned_get hw hopen
  obtain ⟨r₁, hdecide, hr₁⟩ := Policy.decide_of_neverBelow hr g.phase
  rcases htarget : target profile fixed r₁ with ⟨d, r₂⟩
  rcases hwait : a.pacer.wait d w₁ with ⟨actual, w₂⟩
  -- nothing happens to the service during the pause
  have hpaused : w₂ = (a.pacer.wait d w₁).2 := by rw [hwait]
  have hw₂ : w₂.service.Poised settings id g := by
    rw [hpaused]
    exact hw₁
  have hlogged : w.Logs (fun _ => False) [] w₂ :=
    hread.trans (.of_history_eq (by rw [hpaused]; rfl))
  have hplayed := a.planned_play hw₂ planned.onPlan hprofile hopen
    (p := (Proposal.plan g.phase).toPlay profile (profile.likeness actual.toMillis)) rfl
  rcases hcall : a.call (.play id ((Proposal.plan g.phase).toPlay profile
    (profile.likeness actual.toMillis))) w₂ with ⟨outcome, w₃⟩
  rw [hcall] at hplayed
  have hstep := step_of_calls hget hdecide htarget hwait hcall
  refine ⟨r₂, w₃, neverBelow_of_target hr₁ htarget, ?_⟩
  rcases hplayed with ⟨rfl, hdue, hshort, hlogs⟩ | ⟨t, c, rfl, hplays, hw₃, hlogs⟩
  · exact .inl ⟨hstep, hdue, hshort, (hlogged.mono fun _ => False.elim).trans hlogs⟩
  · exact .inr ⟨_, ⟨id, _, g, t⟩, hstep, .snoc planned rfl hopen rfl hplays, rfl, hw₃,
      hlogged.trans hlogs⟩

end Stepper

/-! ## The loop of steps -/

/-- The progress of an episode that has made the moves `ms`, which led its session to `g`. -/
structure Progress.Mirrors (ms : List (Move ℚ)) (g : Game ℚ) (p : Progress ℚ) : Prop where
  steps : p.steps = ms.length
  phase : p.observation.phase = g.phase
  counters : p.observation.counters = g.counters
  done : p.done = g.phase.isTerminal
  closed : p.breaker.Closed

lemma Progress.Mirrors.after {p : Progress ℚ} (hp : p.Mirrors ms g) {o : StepOutcome ℚ}
    {m : Move ℚ} (ho : o.observation = m.observation) :
    (p.after o).Mirrors (ms ++ [m]) m.turn.after where
  steps := by
    rw [List.length_append, ← hp.steps]
    rfl
  phase := congrArg Observation.phase ho
  counters := congrArg Observation.counters ho
  done := congrArg Observation.isTerminal ho
  closed := by
    rw [Progress.breaker_after hp.closed]
    exact hp.closed

/-- What steps by the plan come to: as many moves as were allowed, or all that the session takes, or
a bet that the wallet does not hold. -/
inductive Progress.PlannedEnd (settings : Settings ℚ) (profile : Profile ℚ) (id : SessionId)
    (n : ℕ) (ms ms' : List (Move ℚ)) (g : Game ℚ) (w : World (State γ ℚ) ℚ) :
    Except ServiceError (Progress ℚ) → Prop
  | reached {p : Progress ℚ} (mirrors : p.Mirrors (ms ++ ms') g)
      (poised : w.service.Poised settings id g) (ended : g.phase ≠ .completed → ms'.length = n) :
      PlannedEnd settings profile id n ms ms' g w (.ok p)
  | refused (due : BetDue g.phase) (short : g.balance < profile.minBet) (lt : ms'.length < n) :
      PlannedEnd settings profile id n ms ms' g w (.error (g.overdrawn profile.minBet))

omit [Chance γ ℚ] in
lemma Progress.PlannedEnd.cons {n : ℕ} {m : Move ℚ} {result : Except ServiceError (Progress ℚ)}
    (h : Progress.PlannedEnd settings profile id n (ms ++ [m]) ms' g w result) :
    Progress.PlannedEnd settings profile id (n + 1) ms (m :: ms') g w result := by
  cases h with
  | reached mirrors poised ended =>
    rw [List.append_assoc] at mirrors
    exact .reached mirrors poised fun hopen => congrArg (· + 1) (ended hopen)
  | refused due short lt => exact .refused due short (Nat.succ_lt_succ lt)

namespace Agent

variable [RandomSource ρ ℚ] {policy : Policy ℚ} {r : ρ}

/-- The loop of steps.  The induction is on the steps that are left. -/
lemma planned_steps (a : Agent) (hprofile : profile.Playable) (n : ℕ) {p : Progress ℚ}
    (planned : Follows γ settings profile id ms g) (hw : w.service.Poised settings id g)
    (hr : NeverBelow policy.epsilon r) (hp : p.Mirrors ms g) :
    ∃ ms' g', Follows γ settings profile id (ms ++ ms') g' ∧
      w.Logs (PlannedFailure profile id g') ms' (a.steps id profile policy n p r w).2.2 ∧
      Progress.PlannedEnd settings profile id n ms ms' g' (a.steps id profile policy n p r w).2.2
        (a.steps id profile policy n p r w).1 := by
  induction n generalizing ms g p r w with
  | zero =>
    refine ⟨[], g, by rwa [List.append_nil], .of_history_eq rfl, ?_⟩
    exact .reached (by rwa [List.append_nil]) hw fun _ => rfl
  | succ n ih =>
    have hstopped : p.stopped = g.phase.isTerminal :=
      (Progress.stopped_eq_done hp.closed).trans hp.done
    by_cases hopen : g.phase = .completed
    · rw [steps_of_stopped (hstopped.trans ((Phase.isTerminal_iff _).mpr hopen))]
      refine ⟨[], g, by rwa [List.append_nil], .of_history_eq rfl, ?_⟩
      exact .reached (by rwa [List.append_nil]) hw fun hne => absurd hopen hne
    · have hgoing : ¬ p.stopped = true := by rwa [hstopped, Phase.isTerminal_iff]
      obtain ⟨r₁, w₁, hr₁, ⟨hstep, hdue, hshort, hlogs⟩ | ⟨o, m, hstep, hm, ho, hw₁, hlogs⟩⟩ :=
        a.stepper.planned_step a.settings.fixedDelay planned hw hprofile hr hopen
      · rw [steps_of_error hgoing hstep]
        exact ⟨[], g, by rwa [List.append_nil], hlogs, .refused hdue hshort (Nat.succ_pos n)⟩
      · rw [steps_of_ok hgoing hstep]
        obtain ⟨ms', g', hfollows, hlogs', hend⟩ := ih hm hw₁ hr₁ (hp.after ho)
        rw [List.append_assoc] at hfollows
        exact ⟨m :: ms', g', hfollows, (hlogs.mono fun _ => False.elim).trans hlogs', hend.cons⟩

/-- Fetching fails only where the session is completed, and has been dropped. -/
lemma planned_fetchFrom (s : Stepper) (hw : w.service.Poised settings id g)
    (limit pages offset : ℕ) (sofar : List (Experience ℚ)) :
    w.Logs (PlannedFailure profile id g) [] (s.fetchFrom id limit pages offset sofar w).2 := by
  induction pages generalizing offset sofar w with
  | zero => exact .of_history_eq rfl
  | succ pages ih =>
    obtain ⟨⟨now, -, hservice⟩, hunqueued⟩ :=
      State.unqueued_call s (c := .page id limit offset) rfl hw.unqueued
    have hlogs : w.Logs (PlannedFailure profile id g) [] (s.call (.page id limit offset) w).2 := by
      refine s.logs_call (c := .page id limit offset) rfl (hw.unqueued .page) ?_ ?_
      · intro now
        rfl
      · intro now e he
        obtain rfl := State.page_eq_error he
        refine .dropped now limit offset ?_
        by_contra hopen
        obtain ⟨h, found, -⟩ := hw.found hopen
        simp [State.serve, State.page, found] at he
    have hw₁ : (s.call (.page id limit offset) w).2.service.Poised settings id g :=
      ⟨by rw [hservice]; exact hw.settings_eq, hunqueued,
        fun hopen => by rw [hservice]; exact hw.found hopen⟩
    rcases hcall : s.call (.page id limit offset) w with ⟨e | page, w₁⟩ <;>
      rw [hcall] at hlogs hw₁ <;> simp only [Stepper.fetchFrom, hcall]
    · exact hlogs
    · split
      · exact hlogs
      · exact hlogs.trans (ih hw₁ _ _)

lemma planned_fetch (a : Agent) (profile : Profile ℚ) (hw : w.service.Poised settings id g) :
    w.Logs (PlannedFailure profile id g) [] (a.fetch id w).2 :=
  planned_fetchFrom a.stepper hw _ _ _ _

end Agent

/-! ## Episodes -/

/-- An outcome that shows a session in the state `g`, with a step for each of the moves `ms`. -/
structure EpisodeOutcome.Mirrors (ms : List (Move ℚ)) (g : Game ℚ) (o : EpisodeOutcome ℚ) :
    Prop where
  steps : o.steps = ms.length
  phase : o.final.phase = g.phase
  counters : o.final.counters = g.counters

/-- What an episode by the plan comes to when its moves lead its session to `g`. -/
inductive PlannedEnd (settings : Settings ℚ) (profile : Profile ℚ) (maxSteps : ℕ)
    (ms : List (Move ℚ)) (g : Game ℚ) : Option (Except ServiceError (EpisodeOutcome ℚ)) → Prop
  /-- The session has ended. -/
  | done {o : EpisodeOutcome ℚ} (mirrors : o.Mirrors ms g) (ended : g.phase = .completed)
      (termination : o.termination = .done)
      (steps_eq : o.steps = 2 * o.final.counters.totalSpins + settings.probeRound.toNat)
      (spins_le : o.final.counters.totalSpins ≤ max 1 settings.spinsPerSession) :
      PlannedEnd settings profile maxSteps ms g (some (.ok o))
  /-- No further step is allowed. -/
  | capped {o : EpisodeOutcome ℚ} (mirrors : o.Mirrors ms g) (going : g.phase ≠ .completed)
      (termination : o.termination = .stepCap) (steps_eq : o.steps = maxSteps) :
      PlannedEnd settings profile maxSteps ms g (some (.ok o))
  /-- A bet is due that the wallet does not hold. -/
  | refused (due : BetDue g.phase) (short : g.balance < profile.minBet)
      (length_lt : ms.length < maxSteps) :
      PlannedEnd settings profile maxSteps ms g (some (.error (g.overdrawn profile.minBet)))
  /-- The session has ended or no further step is allowed, but the pages do not end as far as they
  are followed. -/
  | unended (stopped : g.phase = .completed ∨ ms.length = maxSteps) :
      PlannedEnd settings profile maxSteps ms g none

/-- An episode that went by the plan: its exchanges `trace` made the moves `ms` in the session
`id`, which led it to `g`, and the episode came to `result`. -/
structure PlannedEpisode (γ : Type) [Chance γ ℚ] (settings : Settings ℚ) (profile : Profile ℚ)
    (maxSteps : ℕ) (id : SessionId) (trace : List (Exchange ℚ)) (ms : List (Move ℚ)) (g : Game ℚ)
    (result : Option (Except ServiceError (EpisodeOutcome ℚ))) : Prop where
  answered : trace.filterMap acceptedPlay = ms.map (fun m => (m.session, m.play, m.observation))
  follows : Follows γ settings profile id ms g
  /-- No move is in vain. -/
  alongEdge : ∀ m ∈ ms, m.AlongEdge settings
  /-- After the probe round every other move is a spin. -/
  spins : ∀ j ≤ ms.length, settings.probeRound.toNat ≤ j →
    ((ms.take j).filter Move.isSpin).length = (j - settings.probeRound.toNat) / 2
  failures : ∀ x ∈ trace, x.succeeded = false → PlannedFailure profile id g x
  ends : PlannedEnd settings profile maxSteps ms g result
  /-- The episode fails exactly where a bet is due that the wallet does not hold. -/
  refused_iff : (∃ e, result = some (.error e)) ↔
    ms.length < maxSteps ∧ BetDue g.phase ∧ g.balance < profile.minBet
  /-- Where enough steps are allowed, they are not what ends it. -/
  uncapped : 2 * max 1 settings.spinsPerSession + settings.probeRound.toNat ≤ maxSteps →
    ∀ o, result = some (.ok o) → o.termination ≠ .stepCap

namespace PlannedEnd

variable {maxSteps : ℕ} {result : Option (Except ServiceError (EpisodeOutcome ℚ))}

lemma refused_iff (h : PlannedEnd settings profile maxSteps ms g result) :
    (∃ e, result = some (.error e)) ↔
      ms.length < maxSteps ∧ BetDue g.phase ∧ g.balance < profile.minBet := by
  cases h with
  | done _ ended =>
    have hnone : ¬ BetDue g.phase := by simp [BetDue, ended]
    simp [hnone]
  | capped mirrors _ _ steps_eq => simp [← mirrors.steps, steps_eq]
  | refused due short length_lt => simp [due, short, length_lt]
  | unended stopped =>
    rcases stopped with ended | hlength
    · have hnone : ¬ BetDue g.phase := by simp [BetDue, ended]
      simp [hnone]
    · simp [hlength]

lemma uncapped (h : PlannedEnd settings profile maxSteps ms g result)
    (planned : Follows γ settings profile id ms g)
    (hmax : 2 * max 1 settings.spinsPerSession + settings.probeRound.toNat ≤ maxSteps)
    (o : EpisodeOutcome ℚ) (ho : result = some (.ok o)) : o.termination ≠ .stepCap := by
  cases h with
  | done _ _ termination =>
    obtain rfl := Except.ok.inj (Option.some.inj ho)
    simp [termination]
  | capped mirrors going _ steps_eq =>
    have hlt := planned.length_lt_of_open going
    have hsteps := mirrors.steps
    omega
  | refused => cases ho
  | unended => cases ho

end PlannedEnd

namespace Agent

variable [RandomSource ρ ℚ] {policy : Policy ℚ} {r : ρ}

omit [Chance γ ℚ] in
/-- The session that an episode opens is the one that it finds. -/
lemma poised_create {s : State γ ℚ} (fresh : s.Fresh (s.names.session s.opened))
    (hq : ∀ k, s.failures.of k = []) (game : GameId) (player : Player ℚ) :
    (s.create game player).2.Poised s.settings (s.names.session s.opened)
      (.new s.settings game player) where
  settings_eq := rfl
  unqueued := hq
  found := fun _ => by
    refine ⟨⟨s.names.session s.opened, .new s.settings game player⟩, ?_, rfl⟩
    have hnone : s.held.find? (fun h => h.id = s.names.session s.opened) = none := by
      simpa [List.find?_eq_none] using fresh.held
    rw [State.find?, fresh.held_create, List.find?_append, hnone, Option.none_or,
      List.find?_cons_of_pos (by simp)]

omit [Chance γ ℚ] in
lemma mirrors_start (settings : Settings ℚ) (game : GameId) (player : Player ℚ) (threshold : ℕ) :
    (Progress.start .initialized threshold).Mirrors [] (.new settings game player) where
  steps := rfl
  phase := rfl
  counters := rfl
  done := rfl
  closed := Breaker.closed_new threshold

/-- Opening a session that is then poised to be played in. -/
lemma planned_create (a : Stepper)
    (fresh : w.service.Fresh (w.service.names.session w.service.opened))
    (hq : ∀ k, w.service.failures.of k = []) (game : GameId) (player : Player ℚ) :
    ∃ w₁, a.call (.create game player) w =
        (.ok ⟨w.service.names.session w.service.opened, .initialized⟩, w₁) ∧
      w₁.service.Poised w.service.settings (w.service.names.session w.service.opened)
        (.new w.service.settings game player) ∧
      w.Logs (fun _ => False) [] w₁ := by
  obtain ⟨⟨now, hopened, hservice⟩, hunqueued⟩ :=
    State.unqueued_call a (c := .create game player) rfl hq
  have hpoised := poised_create fresh hq game player
  refine ⟨_, Prod.ext hopened rfl, ⟨?_, hunqueued, fun hopen => ?_⟩,
    a.logs_call rfl (hq .create) (fun _ => rfl) fun now e he => by cases he⟩
  · rw [hservice]
    exact hpoised.settings_eq
  · rw [hservice]
    exact hpoised.found hopen

/-- An episode by what its steps by the plan came to. -/
lemma planned_reached (a : Agent) {p : Progress ℚ} {o : EpisodeOutcome ℚ}
    (planned : Follows γ settings profile id ms g) (hp : p.Mirrors ms g)
    (ended : g.phase ≠ .completed → ms.length = a.maxSteps) (final : o.final = p.observation)
    (steps : o.steps = p.steps) (termination : o.termination = p.termination) :
    PlannedEnd settings profile (max a.settings.maxSteps 1) ms g (some (.ok o)) := by
  have hmirrors : o.Mirrors ms g :=
    ⟨steps.trans hp.steps, final ▸ hp.phase, final ▸ hp.counters⟩
  have htermination : o.termination = if g.phase.isTerminal then .done else .stepCap := by
    rw [termination, Progress.termination_eq hp.closed, hp.done]
  by_cases hopen : g.phase = .completed
  · rw [(Phase.isTerminal_iff _).mpr hopen] at htermination
    refine .done hmirrors hopen htermination ?_ ?_
    · rw [hmirrors.steps, hmirrors.counters]
      exact (hopen ▸ planned.onPlan.station).moves_of_completed
    · rw [hmirrors.counters]
      exact planned.onPlan.sound.spins_le
  · rw [if_neg (mt (Phase.isTerminal_iff _).mp hopen)] at htermination
    exact .capped hmirrors hopen htermination (hmirrors.steps.trans (ended hopen))

/-- **The plan drives every session forward.**  Take a simulated service that some run has led to,
with any settings, that gives the next session an identifier of its own and has no failure queued,
and a source of random numbers none of which lies below the probability of exploring.  Then an
episode with a profile that may be played with goes by the plan: no move is in vain and after the
probe round every other one is a spin; nothing fails but bets that the wallet does not hold and
pages of a session that was dropped; and the episode ends when its session does, when it has made
all steps that it is allowed, or when a bet is due that the wallet does not hold.  Where fewer than
`2 ^ 32` steps are allowed, its pages end as well. -/
theorem planned_episode (a : Agent) (fresh : GameId) (profile : Profile ℚ) (policy : Policy ℚ)
    (r : ρ) (w : World (State γ ℚ) ℚ) (reachable : w.service.Reachable)
    (distinct : w.service.names.Distinct (w.service.opened + 1))
    (unqueued : ∀ k, w.service.failures.of k = []) (valid : profile.check = .ok ())
    (planning : NeverBelow policy.epsilon r) :
    ∃ trace ms g,
      (a.runEpisode fresh profile policy r w).2.2.history = w.history ++ trace ∧
      PlannedEpisode γ w.service.settings profile (max a.settings.maxSteps 1)
        (w.service.names.session w.service.opened) trace ms g
        (a.runEpisode fresh profile policy r w).1 ∧
      (max a.settings.maxSteps 1 < UInt32.size → max a.settings.maxSteps 1 < a.horizon →
        (a.runEpisode fresh profile policy r w).1 ≠ none) := by
  have hprofile : profile.Playable := profile.check_eq_ok_iff.mp valid
  have hfresh := reachable.fresh (fun _ _ => rfl) distinct
  obtain ⟨w₁, hcreate, hw₁, hlogs⟩ := planned_create a.stepper hfresh unqueued
    (a.settings.game.getD fresh) profile.player
  obtain ⟨ms, g, hfollows, hlogs', hend⟩ := a.planned_steps hprofile a.maxSteps
    (.nil (a.settings.game.getD fresh)) hw₁ planning
    (mirrors_start _ _ _ a.settings.breakerThreshold)
  -- what is known of the moves settles all but the log and the outcome
  suffices h : w.Logs (PlannedFailure profile (w.service.names.session w.service.opened) g) ms
        (a.runEpisode fresh profile policy r w).2.2 ∧
      PlannedEnd w.service.settings profile (max a.settings.maxSteps 1) ms g
        (a.runEpisode fresh profile policy r w).1 by
    obtain ⟨⟨trace, hhistory, hanswered, hfailures⟩, hends⟩ := h
    exact ⟨trace, ms, g, hhistory,
      { answered := hanswered
        follows := hfollows
        alongEdge := hfollows.alongEdge
        spins := fun j hj hprobe => hfollows.spins_take hj hprobe
        failures := hfailures
        ends := hends
        refused_iff := hends.refused_iff
        uncapped := hends.uncapped hfollows },
      a.runEpisode_ne_none fresh profile policy r w reachable distinct (unqueued .page)⟩
  have hmade := (hlogs.mono fun _ => False.elim).trans hlogs'
  rcases hsteps : a.steps (w.service.names.session w.service.opened) profile policy a.maxSteps
    (.start .initialized a.settings.breakerThreshold) r w₁ with ⟨outcome, r₁, w₂⟩
  rw [hsteps] at hmade hend
  cases hend with
  | refused due short lt =>
    rw [runEpisode_of_broken hcreate hsteps]
    exact ⟨hmade, .refused due short lt⟩
  | @reached p mirrors poised ended =>
    rcases hfetch : a.fetch (w.service.names.session w.service.opened) w₂ with ⟨fetched, w₃⟩
    have hfetched := a.planned_fetch profile (w := w₂) poised
    rw [hfetch] at hfetched
    rw [runEpisode_of_reached hcreate hsteps hfetch]
    refine ⟨by simpa using hmade.trans hfetched, ?_⟩
    cases fetched with
    | none =>
      refine .unended ?_
      by_cases hopen : g.phase = .completed
      · exact .inl hopen
      · exact .inr (ended hopen)
    | some fetched => exact planned_reached a hfollows mirrors ended rfl rfl rfl

/-- A session of two spins with a probe round, under the strictest rules. -/
theorem planned_episode_strict :
    let settings : Settings ℚ := { Settings.standard with
      spinsPerSession := 2, probeRound := true, rejectInvalid := true, enforceMaxBet := true }
    let a : Agent := ⟨⟨.standard, .instant⟩, { EpisodeSettings.standard with maxSteps := 5 }, 6⟩
    let w : World (State Generator ℚ) ℚ := .start (.new settings .counting (Generator.ofSeed 7))
    let r : Script ℚ := .ofList [1 / 2, 3 / 4]
    ∃ o trace ms g, (a.runEpisode ⟨7⟩ .standard .standard r w).1 = some (.ok o) ∧ o.steps = 5 ∧
      PlannedEpisode Generator settings .standard 5 ⟨0⟩ trace ms g (some (.ok o)) := by
  intro settings a w r
  have hplanning : NeverBelow (Policy.standard : Policy ℚ).epsilon r :=
    RandomSource.neverBelow_script (by decide +kernel) (by decide +kernel)
  have hdistinct : w.service.names.Distinct (w.service.opened + 1) :=
    Names.distinct_counting (by decide +kernel)
  obtain ⟨trace, ms, g, -, hplanned, hended⟩ := planned_episode a ⟨7⟩ .standard .standard r w
    ⟨_, _, _, [], rfl⟩ hdistinct (fun k => by cases k <;> rfl) (by decide +kernel) hplanning
  have hsteps : (a.runEpisode ⟨7⟩ .standard .standard r w).1.bind
      (·.toOption.map (·.steps)) = some 5 := by decide +kernel
  have hended : (a.runEpisode ⟨7⟩ .standard .standard r w).1 ≠ none :=
    hended (by decide) (by decide)
  rcases hrun : (a.runEpisode ⟨7⟩ .standard .standard r w).1 with - | e | o <;>
    rw [hrun] at hsteps hplanned hended
  · exact absurd rfl hended
  · cases hsteps
  · exact ⟨o, trace, ms, g, rfl, Option.some.inj hsteps, hplanned⟩

end Agent

end Punter
