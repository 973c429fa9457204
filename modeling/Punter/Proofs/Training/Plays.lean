/-
# The plays of a run

A run submits well-formed plays only.  Each of its episodes plays with a profile that is playable,
since adapting keeps it so, and with a source whose numbers lie between 0 and 1, since drawing keeps
it so; what the service answers and how long the pauses are does not matter.
-/
import Mathlib
import Punter.Proofs.Episode.Plays
import Punter.Proofs.Simulation.Retention
import Punter.Proofs.Training.Bounds

namespace Punter

open RandomSource (InUnit)
open Simulation (Names NoLuck Settings State)

namespace Trainer

section Service

variable {σ ρ φ : Type} [Service σ ℚ] [RandomSource ρ ℚ] [Storage φ] {t : Trainer} {number : ℕ}
  {c c' : Course ρ σ φ ℚ} {yielded : Option (Option (TrainingError ℚ) × Summary ℚ)}

/-- The plays of an episode are well formed for the profile with which it begins. -/
lemma Yields.submits (h : t.Yields number c yielded c') (hprofile : c.profile.Playable)
    (hr : InUnit c.random) :
    c.world.Submits (Play.WellFormed c.profile) c'.world ∧ InUnit c'.random := by
  have hrun := Agent.submits_runEpisode (t.agent.stepper.makes_wellFormed hprofile _)
    (t.games number) c.policy hr c.world
  cases h with
  | unended run => rwa [run] at hrun
  | failed run => rwa [run] at hrun
  | unexported run save => rwa [run] at hrun
  | exported run save => rwa [run] at hrun

lemma Yields.reaches (h : t.Yields number c yielded c') : c.world.Reaches c'.world := by
  have hrun := t.agent.reaches_runEpisode (t.games number) c.profile c.policy c.random c.world
  cases h with
  | unended run => rwa [run] at hrun
  | failed run => rwa [run] at hrun
  | unexported run save => rwa [run] at hrun
  | exported run save => rwa [run] at hrun

lemma inUnit_courseAt (hprofile : c.profile.check = .ok ()) (hpolicy : c.policy.check = .ok ())
    (hr : InUnit c.random) (k : ℕ) : InUnit (t.courseAt c k).random := by
  -- that the profiles are playable is carried along
  have hcourse : c.Keeps (t.courseAt c k) ∧ InUnit (t.courseAt c k).random := by
    refine courseAt_induction (P := fun _ c' => c.Keeps c' ∧ InUnit c'.random)
      ⟨keeps_courseAt (t := t) hprofile hpolicy 0, hr⟩ ?_ k
    rintro k c' yielded c'' ⟨hkeeps, hr'⟩ h
    exact ⟨h.keeps hkeeps, (h.submits hkeeps.playable hr').2⟩
  exact hcourse.2

lemma submits_courseAt_succ (hprofile : c.profile.check = .ok ())
    (hpolicy : c.policy.check = .ok ()) (hr : InUnit c.random) (k : ℕ) :
    (t.courseAt c k).world.Submits (Play.WellFormed (t.courseAt c k).profile)
      (t.courseAt c (k + 1)).world := by
  obtain ⟨yielded, hyields⟩ := t.exists_yields_courseAt c k
  exact (hyields.submits (keeps_courseAt hprofile hpolicy k).playable
    (inUnit_courseAt hprofile hpolicy hr k)).1

lemma reaches_courseAt (k : ℕ) : c.world.Reaches (t.courseAt c k).world :=
  courseAt_induction (P := fun _ c' => c.world.Reaches c'.world) .refl
    (fun hreaches h => hreaches.trans h.reaches) k

lemma submits_courseAt (hprofile : c.profile.check = .ok ()) (hpolicy : c.policy.check = .ok ())
    (hr : InUnit c.random) (k : ℕ) : c.world.Submits Play.Staked (t.courseAt c k).world := by
  induction k with
  | zero => exact .of_history_eq rfl
  | succ k ih =>
    have hnext := submits_courseAt_succ (t := t) hprofile hpolicy hr k
    exact ih.trans (hnext.mono fun p hp => hp.staked)

/-- **Plays.**  From a profile and a policy that are accepted, and with a source of numbers from the
interval from 0 to 1, every play that reaches the service in a run is well formed for the profile of
its episode, which was adapted to what came before: the score of the pace lies between 0 and 1, a
bet carries the smallest stake of the profile or an exploratory one, in either case at least one
half, and nothing else carries a stake.  This is so for every service, and however long the pauses
are.  A simulated service therefore never answers such a run that its input is invalid, unless this
failure was queued before the run. -/
theorem run_submits_wellFormed (t : Trainer) (c : Course ρ σ φ ℚ)
    (hprofile : c.profile.check = .ok ()) (hpolicy : c.policy.check = .ok ())
    (draws : InUnit c.random) :
    (∃ n ≤ t.settings.episodes, (t.run c).2 = t.courseAt c n ∧ ∀ k < n,
        c.profile.SameButStakes (t.courseAt c k).profile ∧
        (t.courseAt c k).world.Submits (Play.WellFormed (t.courseAt c k).profile)
          (t.courseAt c (k + 1)).world) ∧
      ∀ (γ : Type) [Chance γ ℚ] (w : World (State γ ℚ) ℚ),
        let c' : Course ρ (State γ ℚ) φ ℚ := ⟨c.profile, c.policy, c.random, w, c.files⟩
        ∃ trace, (t.run c').2.world.history = w.history ++ trace ∧
          ∀ x ∈ trace, ∀ e, x.outcome = .error e → e.code? = some .invalidInput →
            ∃ k, e ∈ w.service.failures.of k := by
  refine ⟨?_, ?_⟩
  · obtain ⟨n, hn, hrun⟩ := (runsTo_run (t := t) hprofile hpolicy).exists_courseAt
    refine ⟨n, hn, hrun, fun k _ => ⟨?_, ?_⟩⟩
    · exact (keeps_courseAt hprofile hpolicy k).sameButStakes
    · exact submits_courseAt_succ hprofile hpolicy draws k
  · intro γ _ w c'
    obtain ⟨n, -, hrun⟩ := (runsTo_run (t := t) (c := c') hprofile hpolicy).exists_courseAt
    rw [hrun]
    exact (submits_courseAt (c := c') hprofile hpolicy draws n).queued (reaches_courseAt n)

end Service

/-- Two episodes on a service on which no spin wins.  In both of them exploring makes a bet, and the
second one plays with a profile that was adapted. -/
theorem run_submits_wellFormed_two :
    let t : Trainer :=
      ⟨⟨⟨.standard, .fixed (.ofMillis 3000)⟩, { EpisodeSettings.standard with maxSteps := 4 }, 10⟩,
        ⟨2, "out", 2, true⟩, fun _ => .nil⟩
    let settings : Settings ℚ :=
      { Settings.standard with spinsPerSession := 2, startingBalance := 20 }
    let profile : Profile ℚ := { Profile.standard with minBet := 8, maxBet := 9 }
    let c : Course (Script ℚ) (State NoLuck ℚ) FileTree ℚ :=
      ⟨profile, .standard, .ofList [1 / 2, 1 / 10, 1 / 5, 3 / 5, 1 / 2, 2 / 5, 1 / 10, 0],
        .start (.new settings .counting .noLuck), .empty []⟩
    let submitted? : Exchange ℚ → Option (ActionKind × Option (Money ℚ) × ℚ)
      | ⟨_, .play _ p, _⟩ => some (p.action.kind, p.action.amount, p.humanLikeness)
      | _ => none
    c.profile.check = .ok () ∧ c.policy.check = .ok () ∧ InUnit c.random ∧
      (∃ n ≤ 2, (t.run c).2 = t.courseAt c n ∧ ∀ k < n,
        (t.courseAt c k).world.Submits (Play.WellFormed (t.courseAt c k).profile)
          (t.courseAt c (k + 1)).world) ∧
      (t.run c).2.world.history.filterMap submitted? =
        [(.placeBet, some ⟨8, .aud⟩, 7 / 11), (.spin, none, 7 / 11),
          (.placeBet, some ⟨8, .aud⟩, 7 / 11), (.placeBet, some ⟨11 / 2, .aud⟩, 7 / 11),
          (.placeBet, some ⟨807 / 100, .aud⟩, 7 / 11), (.spin, none, 7 / 11),
          (.placeBet, some ⟨11 / 2, .aud⟩, 7 / 11), (.spin, none, 7 / 11)] ∧
      ∀ x ∈ (t.run c).2.world.history, ∀ e, x.outcome = .error e →
        e.code? ≠ some .invalidInput := by
  intro t settings profile c submitted?
  have hprofile : c.profile.check = .ok () := by decide +kernel
  have hpolicy : c.policy.check = .ok () := by decide +kernel
  have hdraws : InUnit c.random := RandomSource.inUnit_ofList _
  obtain ⟨⟨n, hn, hrun, hplays⟩, hvalid⟩ := run_submits_wellFormed t c hprofile hpolicy hdraws
  obtain ⟨trace, htrace, hqueued⟩ := hvalid NoLuck c.world
  refine ⟨hprofile, hpolicy, hdraws, ⟨n, hn, hrun, fun k hk => (hplays k hk).2⟩, ?_, ?_⟩
  · decide +kernel
  · intro x hx e he hcode
    have hmem : x ∈ trace := by
      rw [show (t.run c).2.world.history = trace from htrace] at hx
      exact hx
    -- nothing was queued
    obtain ⟨k, hk⟩ := hqueued x hmem e he hcode
    cases k <;> cases hk

end Trainer

end Punter
