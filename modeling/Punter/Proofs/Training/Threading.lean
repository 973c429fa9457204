/-
# What a run of episodes learns

A run that does not stop at failures plays each of its episodes with the profile and the policy that
were learned from the episodes before: an episode that was completed contributes one decay and one
adaptation to its own rewards, and an episode that failed contributes nothing.  What becomes of the
export has no part in this, and neither do pages that could not be fetched, which only leave an
episode without rewards.

What is learned is a fold over what the episodes came to (`Learned.upTo`).  A step of the loop
extends it by one outcome at the front, since the loop goes on from what it has learned.

The run comes to its report unless it comes to an episode that goes on for ever.  The episodes before
that one are played as in any other run.
-/
import Mathlib
import Punter.Proofs.Policy.Decay
import Punter.Proofs.Training.Courses
import Punter.Random.Source
import Punter.Service.Scripted

namespace Punter

variable {σ ρ φ α : Type} [Scalar α]

/-! ## What is learned -/

/-- What a run has learned: with what the next episode is played. -/
structure Learned (α : Type) where
  profile : Profile α
  policy : Policy α

namespace Learned

/-- What is known after one more episode. -/
def after (window : Nat) (l : Learned α) : Except ServiceError (EpisodeOutcome α) → Learned α
  | .ok o => ⟨l.profile.adapt (o.experiences.map (·.reward)) window, l.policy.decay⟩
  | .error _ => l

/-- What is known after the first `k` of some episodes. -/
def upTo (window : Nat) (l : Learned α) (outcomes : List (Except ServiceError (EpisodeOutcome α)))
    (k : Nat) : Learned α :=
  (outcomes.take k).foldl (after window) l

variable {window : Nat} {l : Learned α} {outcome : Except ServiceError (EpisodeOutcome α)}
  {outcomes : List (Except ServiceError (EpisodeOutcome α))}

lemma upTo_cons_succ (k : Nat) :
    l.upTo window (outcome :: outcomes) (k + 1) = (l.after window outcome).upTo window outcomes k :=
  rfl

/-- The policy counts the episodes that were completed. -/
lemma episodes_upTo : (l.upTo window outcomes outcomes.length).policy.episodes =
    Number.next64^[outcomes.countP Except.isOk] l.policy.episodes := by
  induction outcomes generalizing l with
  | nil => rfl
  | cons o os ih =>
    rw [List.length_cons, upTo_cons_succ, ih]
    cases o with
    | error e => rfl
    | ok o =>
      rw [List.countP_cons_of_pos rfl, Function.iterate_succ_apply]
      rfl

end Learned

/-- What a run has learned when it has come so far. -/
def Course.learned (c : Course ρ σ φ α) : Learned α := ⟨c.profile, c.policy⟩

/-- A summary of the episode with a number that was played with what is in `l`. -/
structure Summary.Reports (number : Nat) (l : Learned α)
    (outcome : Except ServiceError (EpisodeOutcome α)) (s : Summary α) : Prop where
  episode : s.episode = number
  epsilon : s.epsilon = l.policy.epsilon
  minBet : s.minBet = l.profile.minBet
  maxBet : s.maxBet = l.profile.maxBet
  /-- An episode that was completed has no error, whatever became of its export. -/
  error : s.error.isNone = outcome.isOk

/-! ## One episode after another -/

variable [Service σ α] [RandomSource ρ α]

/-- The episodes from the one with the number `number` on, what each came to, and their summaries.
Between the episodes the random source and the world are those of `turn`. -/
structure Trainer.Threads (t : Trainer) (number : Nat) (l : Learned α) (turn : Nat → ρ × World σ α)
    (outcomes : List (Except ServiceError (EpisodeOutcome α))) (ss : List (Summary α)) : Prop where
  length_eq : ss.length = outcomes.length
  /-- Each episode is played with what was learned from those before. -/
  plays : ∀ k outcome, outcomes[k]? = some outcome →
    t.agent.runEpisode (t.games (number + k)) (l.upTo t.settings.window outcomes k).profile
      (l.upTo t.settings.window outcomes k).policy (turn k).1 (turn k).2 =
        (some outcome, turn (k + 1))
  /-- Each summary shows with what its episode was played. -/
  reports : ∀ k outcome (s : Summary α), outcomes[k]? = some outcome → ss[k]? = some s →
    s.Reports (number + k) (l.upTo t.settings.window outcomes k) outcome

namespace Trainer

variable {t : Trainer} {number : Nat} {l : Learned α}

lemma threads_nil (turn : Nat → ρ × World σ α) : t.Threads number l turn [] [] where
  length_eq := rfl
  plays := by simp
  reports := by simp

/-- The episode after some others goes on for ever. -/
def Unended (t : Trainer) (number : Nat) (l : Learned α) (turn : Nat → ρ × World σ α)
    (outcomes : List (Except ServiceError (EpisodeOutcome α))) : Prop :=
  (t.agent.runEpisode (t.games (number + outcomes.length))
    (l.upTo t.settings.window outcomes outcomes.length).profile
    (l.upTo t.settings.window outcomes outcomes.length).policy (turn outcomes.length).1
    (turn outcomes.length).2).1 = none

/-- One more episode before others. -/
lemma Threads.cons {first : ρ × World σ α} {turn : Nat → ρ × World σ α}
    {outcome : Except ServiceError (EpisodeOutcome α)}
    {outcomes : List (Except ServiceError (EpisodeOutcome α))} {s : Summary α}
    {ss : List (Summary α)}
    (hrun : t.agent.runEpisode (t.games number) l.profile l.policy first.1 first.2 =
      (some outcome, turn 0))
    (hs : s.Reports number l outcome)
    (h : t.Threads (number + 1) (l.after t.settings.window outcome) turn outcomes ss) :
    t.Threads number l (fun k => k.casesOn first turn) (outcome :: outcomes) (s :: ss) where
  length_eq := congrArg (· + 1) h.length_eq
  plays := by
    intro k o ho
    cases k with
    | zero =>
      rw [List.getElem?_cons_zero, Option.some.injEq] at ho
      rw [← ho]
      exact hrun
    | succ k =>
      rw [List.getElem?_cons_succ] at ho
      rw [← Nat.succ_add_eq_add_succ number k]
      exact h.plays k o ho
  reports := by
    intro k o s' ho hs'
    cases k with
    | zero =>
      rw [List.getElem?_cons_zero, Option.some.injEq] at ho hs'
      rw [← ho, ← hs']
      exact hs
    | succ k =>
      rw [List.getElem?_cons_succ] at ho hs'
      rw [← Nat.succ_add_eq_add_succ number k]
      exact h.reports k o s' ho hs'

/-- The summaries tell which episodes were completed. -/
lemma Threads.completed_eq {turn : Nat → ρ × World σ α}
    {outcomes : List (Except ServiceError (EpisodeOutcome α))} {ss : List (Summary α)}
    (h : t.Threads number l turn outcomes ss) (profile : Profile α) (policy : Policy α) :
    (⟨ss, profile, policy⟩ : Report α).completed = outcomes.countP Except.isOk := by
  have hmap : ss.map (·.error.isNone) = outcomes.map Except.isOk := by
    refine List.ext_getElem (by simp [h.length_eq]) ?_
    intro k hk hk'
    rw [List.length_map] at hk hk'
    rw [List.getElem_map, List.getElem_map]
    exact (h.reports k _ _ (List.getElem?_eq_getElem hk') (List.getElem?_eq_getElem hk)).error
  have hcount : ss.countP (·.error.isNone) = (ss.map (·.error.isNone)).countP id := by
    rw [List.countP_map]
    rfl
  rw [Report.completed, ← List.countP_eq_length_filter, hcount, hmap, List.countP_map]
  rfl

section Run

variable [Storage φ]

/-- An episode of a run that does not stop at failures. -/
lemma episode_of_runEpisode (continues : t.settings.abortOnError = false) {c : Course ρ σ φ α}
    {outcome : Except ServiceError (EpisodeOutcome α)} {turn : ρ × World σ α}
    (hrun : t.agent.runEpisode (t.games number) c.profile c.policy c.random c.world =
      (some outcome, turn)) :
    ∃ s files, t.episode number c = (some (.ok s),
        ⟨(c.learned.after t.settings.window outcome).profile,
          (c.learned.after t.settings.window outcome).policy, turn.1, turn.2, files⟩) ∧
      s.Reports number c.learned outcome := by
  obtain ⟨random, world⟩ := turn
  cases outcome with
  | error e =>
    refine ⟨.failed number c.profile c.policy e.message, c.files, ?_, ⟨rfl, rfl, rfl, rfl, rfl⟩⟩
    simp only [episode, hrun, continues, Bool.false_eq_true, if_false]
    rfl
  | ok o =>
    rcases hexport : t.exportEpisode number o.experiences c.files with ⟨e | path, files⟩
    · refine ⟨.ofOutcome number o c.profile c.policy none
        (some (causes (TrainingError.chain (.exportFailed number e : TrainingError α)))),
        Storage.release e files, ?_, ⟨rfl, rfl, rfl, rfl, rfl⟩⟩
      simp only [episode, hrun, hexport, continues, Bool.false_eq_true, if_false]
      rfl
    · refine ⟨.ofOutcome number o c.profile c.policy path none, files, ?_,
        ⟨rfl, rfl, rfl, rfl, rfl⟩⟩
      simp only [episode, hrun, hexport]
      rfl

/-- The loop of episodes, up to its end or to an episode that goes on for ever.  The induction is on
the episodes that are left. -/
lemma episodes_threads (continues : t.settings.abortOnError = false) (n number : Nat)
    (c : Course ρ σ φ α) :
    ∃ outcomes turn ss, turn 0 = (c.random, c.world) ∧
      t.Threads number c.learned turn outcomes ss ∧
      ((outcomes.length = n ∧ ∃ files, t.episodes n number c = (some (.ok ss),
          ⟨(c.learned.upTo t.settings.window outcomes n).profile,
            (c.learned.upTo t.settings.window outcomes n).policy, (turn n).1, (turn n).2,
            files⟩)) ∨
        (outcomes.length < n ∧ (t.episodes n number c).1 = none ∧
          t.Unended number c.learned turn outcomes)) := by
  induction n generalizing number c with
  | zero =>
    exact ⟨[], fun _ => (c.random, c.world), [], rfl, threads_nil _, .inl ⟨rfl, c.files, rfl⟩⟩
  | succ n ih =>
    rcases hrun : t.agent.runEpisode (t.games number) c.profile c.policy c.random c.world with
      ⟨outcome, next⟩
    cases outcome with
    | none =>
      refine ⟨[], fun _ => (c.random, c.world), [], rfl, threads_nil _,
        .inr ⟨Nat.succ_pos n, ?_, congrArg Prod.fst hrun⟩⟩
      simp only [episodes, episode, hrun]
    | some outcome =>
      obtain ⟨s, files, hepisode, hs⟩ := episode_of_runEpisode continues hrun
      obtain ⟨outcomes, turn, ss, hturn, hthreads, hrest⟩ := ih (number + 1)
        ⟨(c.learned.after t.settings.window outcome).profile,
          (c.learned.after t.settings.window outcome).policy, next.1, next.2, files⟩
      have hrun' : t.agent.runEpisode (t.games number) c.learned.profile c.learned.policy c.random
          c.world = (some outcome, turn 0) :=
        hrun.trans (congrArg (Prod.mk (some outcome)) hturn.symm)
      refine ⟨outcome :: outcomes, fun k => k.casesOn (c.random, c.world) turn, s :: ss, rfl,
        .cons hrun' hs hthreads, ?_⟩
      rcases hrest with ⟨hlength, files', hepisodes⟩ | ⟨hlt, hnone, hunended⟩
      · refine .inl ⟨congrArg (· + 1) hlength, files', ?_⟩
        rw [episodes, hepisode]
        dsimp only
        rw [hepisodes]
        rfl
      · refine .inr ⟨Nat.succ_lt_succ hlt, episodes_fst_of_rest hepisode hnone, ?_⟩
        rw [Unended, List.length_cons, ← Nat.succ_add_eq_add_succ]
        exact hunended

end Run

end Trainer

end Punter
