/-
# What a valid configuration is good for

A configuration is checked once, before anything is done with it.  The parts of a run look again at
what they are given: profile and policy are checked when a run starts, and sizes, limits and
probabilities that are out of bounds are moved to the nearest bound.  For a configuration that was
accepted none of this has any effect (`Config.TakenAsSet`), and so it is with any other behavior of
its profile.
-/
import Mathlib
import Punter.Config.Basic
import Punter.Proofs.Episode.Protocol
import Punter.Proofs.Profile.Behaviors
import Punter.Proofs.Resilience.Delays
import Punter.Proofs.Simulation.Asked
import Punter.Proofs.Simulation.Ledger
import Punter.Proofs.Simulation.Retention
import Punter.Proofs.Training.Courses

namespace Punter

open Simulation (Names Noting Operation State accepted)

namespace Config

/-! ## Accepted configurations -/

section Checks

variable {ε ε' T U : Type}

lemma bind_eq_ok_iff {x : Except ε T} {f : T → Except ε U} {b : U} :
    x >>= f = .ok b ↔ ∃ a, x = .ok a ∧ f a = .ok b := by
  cases x with
  | error e => simp [bind, Except.bind]
  | ok a => simp [bind, Except.bind]

lemma mapError_eq_ok_iff {x : Except ε T} {f : ε → ε'} {a : T} :
    x.mapError f = .ok a ↔ x = .ok a := by
  cases x <;> simp [Except.mapError]

lemma ensure_eq_ok_iff {α : Type} {P : Prop} [Decidable P] {f : Flaw α} {u : Unit} :
    ensure P f = .ok u ↔ P := by
  unfold ensure
  split <;> simp [*]

end Checks

variable {α : Type} [Scalar α]

/-- What is looked at when a configuration is accepted. -/
structure Valid (c : Config α) (remote : Bool) : Prop where
  baseUrl : remote = true → c.remote.baseUrl ≠ ""
  threshold_pos : 0 < c.breakerThreshold
  base_le_cap : c.retrier.backoff.base.nanos ≤ c.retrier.backoff.cap.nanos
  policy : ∃ p, c.initialPolicy = .ok p
  profile : c.profile.check = .ok ()
  maxSteps_pos : 0 < c.training.maxSteps
  pageSize_mem : 1 ≤ c.training.pageSize ∧ c.training.pageSize ≤ Call.maxPage
  winProbability : Scalar.within 0.0 1.0 c.simulation.winProbability = true
  retained_pos : 0 < c.simulation.retained

lemma check_eq_ok_iff (c : Config α) (remote : Bool) :
    c.check remote = .ok () ↔ c.Valid remote := by
  simp only [check, bind_eq_ok_iff, mapError_eq_ok_iff, ensure_eq_ok_iff, exists_const,
    exists_and_right]
  constructor
  · rintro ⟨hurl, hthreshold, hdelays, hpolicy, ⟨⟨⟩, hprofile⟩, hsteps, hpages, hwin, hretained⟩
    exact ⟨hurl, hthreshold, hdelays, hpolicy, hprofile, hsteps, hpages, hwin, hretained⟩
  · rintro ⟨hurl, hthreshold, hdelays, hpolicy, hprofile, hsteps, hpages, hwin, hretained⟩
    exact ⟨hurl, hthreshold, hdelays, hpolicy, ⟨(), hprofile⟩, hsteps, hpages, hwin, hretained⟩

variable {c : Config α} {remote : Bool}

/-- A configuration stays valid with another behavior of its profile. -/
lemma Valid.withBehavior [Behavior.Fitting α] (hc : c.Valid remote) (b : Behavior) :
    (c.withBehavior b).Valid remote where
  __ := hc
  profile := by
    have hprofile := hc.profile
    rw [Profile.check_eq_ok_iff_fits] at hprofile ⊢
    exact hprofile.withBehavior b

/-- The policy of the first episode is one that runs accept. -/
lemma initialPolicy_eq_ok_iff {p : Policy α} :
    c.initialPolicy = .ok p ↔ ⟨c.start.epsilon, 0, c.start.decayRate⟩ = p ∧ p.check = .ok () := by
  simp only [initialPolicy, Policy.start, bind_eq_ok_iff]
  constructor
  · rintro ⟨⟨⟩, hcheck, hp⟩
    obtain rfl := Except.ok.inj hp
    exact ⟨rfl, hcheck⟩
  · rintro ⟨rfl, hcheck⟩
    exact ⟨(), hcheck, rfl⟩

/-! ## Runs -/

/-- Runs from the profile and the policy of a configuration begin: if one does not end with a
report, an episode or an export has failed. -/
def Begins (c : Config α) : Prop :=
  ∃ p : Policy α, c.initialPolicy = .ok p ∧
    ∀ {σ ρ φ : Type} [Service σ α] [RandomSource ρ α] [Storage φ] (t : Trainer)
      (first : Course ρ σ φ α), first.profile = c.profile → first.policy = p →
        t.RunsTo first t.settings.episodes (t.run first) ∧
          ∀ e, (t.run first).1 = some (.error e) →
            ∃ number, (∃ e', e = .episodeFailed number e') ∨ ∃ e', e = .exportFailed number e'

section Trainer

variable {σ ρ φ : Type} [Service σ α] [RandomSource ρ α] [Storage φ] {t : Trainer} {number : ℕ}
  {first next : Course ρ σ φ α} {e : TrainingError α}

/-- What ends a run in the middle. -/
lemma failed_of_episode (h : t.episode number first = (some (.error e), next)) :
    (∃ e', e = .episodeFailed number e') ∨ ∃ e', e = .exportFailed number e' := by
  obtain ⟨s, hyields, -⟩ := Trainer.yields_of_episode_error h
  cases hyields with
  | failed => exact .inl ⟨_, rfl⟩
  | unexported => exact .inr ⟨_, rfl⟩

end Trainer

lemma Valid.begins (hc : c.Valid remote) : c.Begins := by
  obtain ⟨p, hp⟩ := hc.policy
  refine ⟨p, hp, fun t first hprofile hpolicy => ?_⟩
  have hruns : t.RunsTo first t.settings.episodes (t.run first) :=
    Trainer.runsTo_run (hprofile ▸ hc.profile) (hpolicy ▸ (initialPolicy_eq_ok_iff.mp hp).2)
  refine ⟨hruns, fun e he => ?_⟩
  -- neither profile nor policy was rejected, so that an episode has stopped the run
  rcases hrun : t.run first with ⟨result, last⟩
  rw [hrun] at hruns he
  obtain rfl : result = some (.error e) := he
  cases hruns with
  | @stopped k _ lt before failed => exact ⟨k + 1, failed_of_episode failed⟩

/-! ## Episodes -/

/-- Episodes keep to the limits of a configuration as they are: whatever is played and answered,
at most as many steps are made as it says, so many experiences are asked for at once, and the
breaker has its threshold throughout. -/
def LimitsEpisodes (c : Config α) : Prop :=
  ∀ {σ ρ : Type} [Service σ α] [RandomSource ρ α] (stepper : Stepper) (horizon : ℕ)
    (profile : Profile α) (policy : Policy α) (r : ρ) (w : World σ α),
      let agent : Agent := ⟨stepper, c.episodeSettings, horizon⟩
      agent.maxSteps = c.training.maxSteps ∧
      Stepper.pageLimit agent.settings.pageSize = c.training.pageSize ∧
      (∀ fresh : GameId, ∃ xs,
        stepper.retrier.Asks xs w (agent.runEpisode fresh profile policy r w).2.2 ∧
        Protocol.Episode (c.remote.game.getD fresh) profile.player c.training.maxSteps
          c.training.pageSize horizon xs (agent.runEpisode fresh profile policy r w).1) ∧
      ∀ (session : SessionId) (phase : Phase) (n : ℕ) (p : Progress α),
        (agent.steps session profile policy n
            (.start phase agent.settings.breakerThreshold) r w).1 = .ok p →
          p.breaker = ⟨0, c.breakerThreshold⟩

lemma Valid.limitsEpisodes (hc : c.Valid remote) : c.LimitsEpisodes := by
  intro σ ρ _ _ stepper horizon profile policy r w agent
  -- where a limit is used it is moved into its bounds, in which it lies already
  have hsteps : agent.maxSteps = c.training.maxSteps := max_eq_left hc.maxSteps_pos
  have hpages : Stepper.pageLimit agent.settings.pageSize = c.training.pageSize := by
    obtain ⟨hpos, hle⟩ := hc.pageSize_mem
    change min (max c.training.pageSize 1) Call.maxPage = _
    rw [max_eq_left hpos, min_eq_left hle]
  have hbreaker : Breaker.new c.breakerThreshold = ⟨0, c.breakerThreshold⟩ := by
    rw [Breaker.new, max_eq_left hc.threshold_pos]
  refine ⟨hsteps, hpages, fun fresh => ?_, fun session phase n p hp => ?_⟩
  · obtain ⟨xs, hasks, hepisode⟩ := agent.asks_runEpisode fresh profile policy r w
    rw [hsteps, hpages] at hepisode
    exact ⟨xs, hasks, hepisode⟩
  · obtain ⟨xs, -, hwalks⟩ := agent.asks_steps session profile policy n
      (p := .start phase agent.settings.breakerThreshold) (Breaker.closed_new _) r w
    rw [hp] at hwalks
    cases hwalks with
    | reached _ reached => exact reached.breaker.trans hbreaker

/-! ## The simulated service -/

/-- The simulated service plays with the probability of a configuration: if the source of chances
notes what it is asked, which makes no difference to the answers, it has noted this probability, and
nothing else, once for each spin. -/
def AsksForProbability (c : Config α) : Prop :=
  ∀ {γ : Type} [Chance γ α] (names : Names) (chances : γ) (ops : List (Operation α)),
    let noting : State (Noting γ α) α := .new c.simulation names ⟨chances, []⟩
    let s : State γ α := .new c.simulation names chances
    noting.exchanges ops = s.exchanges ops ∧ (noting.run ops).plain = s.run ops ∧
      (noting.run ops).chances.asked =
        List.replicate (s.spins ops).length c.simulation.winProbability

lemma Valid.asksForProbability [Scalar.Ordered α] (hc : c.Valid remote) :
    c.AsksForProbability := by
  intro γ _ names chances ops noting s
  refine ⟨(State.exchanges_noting noting ops).symm, (State.run_plain noting ops).symm, ?_⟩
  have hasked := State.asked_run c.simulation names chances ops
  rw [Scalar.clamp_of_within hc.winProbability] at hasked
  exact hasked

/-- The simulated service still has the session that was completed last, with an experience for
each play that it accepted, and its pages are as long as a configuration says. -/
def ExportsCompleted (c : Config α) : Prop :=
  ∀ {γ : Type} [Chance γ α] (names : Names) (chances : γ) (ops : List (Operation α)),
    let s : State γ α := State.run (.new c.simulation names chances) ops
    let xs := State.exchanges (.new c.simulation names chances : State γ α) ops
    names.Distinct s.opened →
      ∀ id, (xs.filterMap Exchange.completedSession).eraseDups.getLast? = some id →
        ∃ h, s.find? id = some h ∧
          (s.records.of id).length = (xs.filterMap (accepted id)).length ∧
          ∀ offset, s.page id c.training.pageSize offset =
            .ok (((s.records.of id).drop offset).take c.training.pageSize)

lemma Valid.exportsCompleted (hc : c.Valid remote) : c.ExportsCompleted := by
  intro γ _ names chances ops s xs distinct id hlast
  have keeps : State.Keeps names _ s := State.keeps_run c.simulation names chances ops distinct
  have accounts : State.Accounts c.simulation names _ s :=
    State.accounts_run c.simulation names chances ops distinct
  rw [State.completedSession_exchanges] at hlast
  have hretained : 0 < s.settings.retained := by
    rw [accounts.settings_eq]
    exact hc.retained_pos
  obtain ⟨h, found⟩ := keeps.exists_of_last accounts hretained hlast
  refine ⟨h, found, ?_, fun offset => ?_⟩
  · obtain ⟨game, player, hleads⟩ := accounts.accounted h (State.mem_of_find? found)
    rw [State.id_of_find? found] at hleads
    rw [Simulation.length_of_leads hleads, State.accepted_exchanges, List.length_map]
  · simp only [State.page, found, min_eq_left hc.pageSize_mem.2]

/-! ## Everything together -/

/-- The first retry comes after the base of the delays. -/
lemma Valid.delay_zero (hc : c.Valid remote) (hcap : c.retrier.backoff.cap.InRange) :
    c.retrier.backoff.delay 0 = c.retrier.backoff.base := by
  rw [Backoff.delay_of_lt hcap (by decide), pow_zero, mul_one, min_eq_left hc.base_le_cap]

/-- A configuration is taken as it is set. -/
structure TakenAsSet (c : Config α) : Prop where
  begins : c.Begins
  limitsEpisodes : c.LimitsEpisodes
  within : Scalar.within 0.0 1.0 c.simulation.winProbability = true
  asksForProbability : c.AsksForProbability
  delay_zero : c.retrier.backoff.delay 0 = c.retrier.backoff.base
  exportsCompleted : c.ExportsCompleted

lemma Valid.takenAsSet [Scalar.Ordered α] (hc : c.Valid remote)
    (hcap : c.retrier.backoff.cap.InRange) : c.TakenAsSet :=
  ⟨hc.begins, hc.limitsEpisodes, hc.winProbability, hc.asksForProbability, hc.delay_zero hcap,
    hc.exportsCompleted⟩

/-- **The check covers the run.**  A configuration that is accepted is taken as it is set: runs
begin with its profile and its policy, no limit, size, threshold or probability is moved to a bound
on its way to where it is used, the first delay is the base, and a session that has just been
completed can be exported from the simulated service.  With another behavior it is accepted as well,
and taken as it is set; the bounds of the stakes are replaced together where they are the standard
ones and else kept, and so are those of the pauses, nothing else of the profile changes, and the
same behavior once more changes nothing. -/
theorem check_covers_run [Scalar.Ordered α] [Behavior.Fitting α] (c : Config α) (remote : Bool)
    (hcap : c.retrier.backoff.cap.InRange) (hc : c.check remote = .ok ()) :
    c.TakenAsSet ∧
      ∀ b, (c.withBehavior b).check remote = .ok () ∧ (c.withBehavior b).TakenAsSet ∧
        c.profile.Turns b (c.withBehavior b).profile ∧
        (c.withBehavior b).withBehavior b = c.withBehavior b := by
  rw [check_eq_ok_iff] at hc
  refine ⟨hc.takenAsSet hcap, fun b => ⟨?_, ?_, c.profile.turns_withBehavior b, ?_⟩⟩
  · rw [check_eq_ok_iff]
    exact hc.withBehavior b
  · exact (hc.withBehavior b).takenAsSet hcap
  · rw [withBehavior, withBehavior, Profile.withBehavior_withBehavior]

/-- Pauses of the user's own, and the standard stakes: only the stakes are replaced. -/
theorem check_covers_run_own_pauses :
    let profile : Profile Float :=
      { (.standard : Profile Float) with minDelay := 100, maxDelay := 200 }
    let c : Config Float := { (.standard : Config Float) with profile := profile }
    let c' : Config Float := c.withBehavior .aggressive
    (c.retrier.backoff.cap.InRange ∧ c.check false = .ok ()) ∧ c.TakenAsSet ∧
      c'.check false = .ok () ∧ c'.TakenAsSet ∧
      c'.profile = ⟨5.0, 15.0, .aud, 100, 200, none, .aggressive⟩ := by
  intro profile c c'
  have hcap : c.retrier.backoff.cap.InRange := by decide +kernel
  have hpolicy : (⟨c.start.epsilon, 0, c.start.decayRate⟩ : Policy Float).check = .ok () := by
    decide +kernel
  have hc : c.check false = .ok () := by
    rw [check_eq_ok_iff]
    refine ⟨?_, ?_, ?_, ⟨_, initialPolicy_eq_ok_iff.mpr ⟨rfl, hpolicy⟩⟩, ?_, ?_, ?_, ?_, ?_⟩ <;>
      decide +kernel
  obtain ⟨htaken, hother⟩ := check_covers_run c false hcap hc
  obtain ⟨hcheck, htaken', -, -⟩ := hother .aggressive
  exact ⟨⟨hcap, hc⟩, htaken, hcheck, htaken', by decide +kernel⟩

end Config

end Punter
