/-
# Episodes that cannot fail

On a service that holds solvent sessions and has no failures queued, an episode with a playable
profile makes all its steps: its session is held for as long as it plays in it, what it stakes is
moderate, and so every call is accepted at the first attempt.  What the episode leaves behind is a
service of the same kind.  The pages may come to nothing if completed sessions are not kept, but
this does not fail an episode.  What remains is that its pages come to an end, which does not depend
on stakes and wallets.
-/
import Mathlib
import Punter.Proofs.Episode.Outcome
import Punter.Proofs.Simulation.Solvency

namespace Punter

open RandomSource (InUnit)
open Simulation (CallKind Settings State)

variable {γ ρ : Type} [Chance γ ℚ] {settings : Settings ℚ} {w : World (State γ ℚ) ℚ}

/-- A call comes to what it comes to when it is served. -/
lemma Simulation.State.Solvent.call (hw : w.service.Solvent settings) (a : Stepper) (c : Call ℚ)
    {k : CallKind} (hk : CallKind.of? c = some k) :
    ∃ now, (a.call c w).1 = (w.service.serve c now).1 ∧
      ((w.service.serve c now).2.Solvent settings → (a.call c w).2.service.Solvent settings) ∧
      ∀ id, (a.call c w).2.service.find? id = (w.service.serve c now).2.find? id := by
  obtain ⟨⟨now, houtcome, hservice⟩, hunqueued⟩ := State.unqueued_call a hk hw.unqueued
  refine ⟨now, houtcome, fun hafter => ?_, fun id => ?_⟩
  · rw [hservice]
    exact hafter.withTallies hunqueued
  · rw [hservice]
    rfl

namespace Stepper

variable [RandomSource ρ ℚ] {r r' : ρ}

omit [Chance γ ℚ] in
lemma inUnit_of_target (hr : InUnit r) {profile : Profile ℚ} {fixed : Option Duration}
    {d : Duration} (h : target profile fixed r = (d, r')) : InUnit r' :=
  target_keeps (fun hr => (hr.draw rfl).2.2) hr h

variable {session : SessionId} {profile : Profile ℚ}

/-- A step in a session that is held, which is held afterwards unless the step has ended it. -/
lemma exists_step (a : Stepper) (policy : Policy ℚ) (fixed : Option Duration)
    (hw : w.service.Solvent settings) (generous : settings.Generous) (hprofile : profile.Playable)
    (hr : InUnit r) (found : ∃ h, w.service.find? session = some h) :
    ∃ o r₁ w₁, a.step session profile policy fixed r w = (.ok o, r₁, w₁) ∧
      w₁.service.Solvent settings ∧ InUnit r₁ ∧
      (o.done = false → ∃ h, w₁.service.find? session = some h) := by
  obtain ⟨h, found⟩ := found
  obtain ⟨now, hread, hsolvent₁, hfind₁⟩ := hw.call a (.get session) rfl
  have hget : w.service.get session = .ok (h.game.observation none) := by
    simp only [State.get, found]
  rcases hcall : a.call (.get session) w with ⟨before, w₁⟩
  rw [hcall] at hread hsolvent₁ hfind₁
  obtain rfl : before = .ok (h.game.observation none) := hread.trans hget
  rcases hdecide : policy.decide (h.game.observation none).phase r with ⟨proposal, r₁⟩
  obtain ⟨hr₁, hproposal⟩ := Policy.exploratory_of_decide hr hdecide
  rcases htarget : target profile fixed r₁ with ⟨d, r₂⟩
  rcases hwait : a.pacer.wait d w₁ with ⟨actual, w₂⟩
  have hservice₂ : w₂.service = w₁.service := by
    rw [show w₂ = (a.pacer.wait d w₁).2 by rw [hwait]]
    rfl
  have hw₂ : w₂.service.Solvent settings := hservice₂ ▸ hsolvent₁ hw
  have found₂ : w₂.service.find? session = some h := by
    rw [hservice₂, hfind₁]
    exact found
  -- the play is made on a service on which nothing has happened since the session was read
  have hmoderate := Proposal.moderate_toAction hprofile hproposal
  obtain ⟨now', hplayed, hsolvent₃, hfind₃⟩ := hw₂.call a
    (.play session (proposal.toPlay profile (profile.likeness actual.toMillis))) rfl
  obtain ⟨o, s', hplay, hs', hheld⟩ := hw₂.play generous found₂
    (p := proposal.toPlay profile (profile.likeness actual.toMillis)) hmoderate now'
  rcases hcall' : a.call (.play session (proposal.toPlay profile
    (profile.likeness actual.toMillis))) w₂ with ⟨outcome, w₃⟩
  rw [hcall'] at hplayed hsolvent₃ hfind₃
  simp only [State.serve, hplay] at hplayed hsolvent₃ hfind₃
  obtain rfl : outcome = .ok o := hplayed
  refine ⟨_, r₂, w₃, step_of_calls hcall hdecide htarget hwait hcall', hsolvent₃ hs',
    inUnit_of_target hr₁ htarget, fun hopen => ?_⟩
  rw [hfind₃]
  exact hheld hopen

lemma solvent_fetchFrom (a : Stepper) (session : SessionId) (hw : w.service.Solvent settings)
    (limit pages offset : ℕ) (sofar : List (Experience ℚ)) :
    (a.fetchFrom session limit pages offset sofar w).2.service.Solvent settings := by
  induction pages generalizing offset sofar w with
  | zero => exact hw
  | succ pages ih =>
    obtain ⟨now, -, hsolvent, -⟩ := hw.call a (.page session limit offset) rfl
    rcases hcall : a.call (.page session limit offset) w with ⟨e | page, w₁⟩ <;>
      rw [hcall] at hsolvent <;> simp only [fetchFrom, hcall]
    · exact hsolvent hw
    · split
      · exact hsolvent hw
      · exact ih (hsolvent hw) _ _

end Stepper

namespace Agent

variable [RandomSource ρ ℚ] {profile : Profile ℚ} {r : ρ}

/-- The loop of steps.  As long as another step is to be made the session is held. -/
lemma exists_steps (a : Agent) (policy : Policy ℚ) {session : SessionId}
    (hw : w.service.Solvent settings) (generous : settings.Generous) (hprofile : profile.Playable)
    (hr : InUnit r) (n : ℕ) {p : Progress ℚ}
    (found : p.done = false → ∃ h, w.service.find? session = some h) :
    ∃ p' r₁ w₁, a.steps session profile policy n p r w = (.ok p', r₁, w₁) ∧
      w₁.service.Solvent settings ∧ InUnit r₁ := by
  induction n generalizing p r w with
  | zero => exact ⟨p, r, w, rfl, hw, hr⟩
  | succ n ih =>
    by_cases hstopped : p.stopped = true
    · exact ⟨p, r, w, steps_of_stopped hstopped, hw, hr⟩
    · have hdone : p.done = false := by
        simp only [Progress.stopped, Bool.or_eq_true, not_or, Bool.not_eq_true] at hstopped
        exact hstopped.1
      obtain ⟨o, r₁, w₁, hstep, hw₁, hr₁, hheld⟩ := a.stepper.exists_step policy
        a.settings.fixedDelay hw generous hprofile hr (found hdone)
      rw [steps_of_ok hstopped hstep]
      exact ih hw₁ hr₁ (p := p.after o) hheld

/-- An episode does not fail.  If it has an outcome, its session has ended or all steps were made. -/
theorem exists_runEpisode (a : Agent) (fresh : GameId) (policy : Policy ℚ)
    (hw : w.service.Solvent settings) (generous : settings.Generous) (hprofile : profile.Playable)
    (hr : InUnit r) :
    ∃ result r₁ w₁, a.runEpisode fresh profile policy r w = (result, r₁, w₁) ∧
      w₁.service.Solvent settings ∧ InUnit r₁ ∧
      (result = none ∨
        ∃ o, result = some (.ok o) ∧ (o.termination = .done ∨ o.termination = .stepCap)) := by
  obtain ⟨now, hopened, hsolvent, hfind⟩ :=
    hw.call a.stepper (.create (a.settings.game.getD fresh) profile.player) rfl
  rcases hcreate : a.stepper.call (.create (a.settings.game.getD fresh) profile.player) w with
    ⟨opened, w₁⟩
  rw [hcreate] at hopened hsolvent hfind
  obtain rfl : opened = .ok (w.service.create _ profile.player).1 := hopened
  have hw₁ : w₁.service.Solvent settings := hsolvent (hw.create generous _ _)
  have hheld : ∃ h, w₁.service.find?
      (w.service.create (a.settings.game.getD fresh) profile.player).1.session = some h := by
    rw [hfind]
    exact State.exists_find?_create _ _ _
  obtain ⟨p, r₁, w₂, hsteps, hw₂, hr₁⟩ := a.exists_steps policy hw₁ generous hprofile hr a.maxSteps
    (p := .start .initialized a.settings.breakerThreshold) (fun _ => hheld)
  have hw₃ : (a.fetch (w.service.create (a.settings.game.getD fresh) profile.player).1.session
      w₂).2.service.Solvent settings := a.stepper.solvent_fetchFrom _ hw₂ _ _ _ _
  rcases hfetch : a.fetch (w.service.create (a.settings.game.getD fresh)
    profile.player).1.session w₂ with ⟨fetched, w₃⟩
  rw [hfetch] at hw₃
  have hrun : a.runEpisode fresh profile policy r w = _ :=
    runEpisode_of_reached hcreate hsteps hfetch
  refine ⟨_, r₁, _, hrun, hw₃, hr₁, ?_⟩
  cases fetched with
  | none => exact .inl rfl
  | some fetched =>
    obtain ⟨xs, -, hepisode⟩ := a.asks_runEpisode fresh profile policy r w
    rw [hrun] at hepisode
    have hunbroken := hepisode.reflects.unbroken
    refine .inr ⟨_, rfl, ?_⟩
    dsimp only at hunbroken ⊢
    cases h : p.termination with
    | done => exact Or.inl rfl
    | stepCap => exact Or.inr rfl
    | breakerOpen => exact (hunbroken h).elim

end Agent

end Punter
