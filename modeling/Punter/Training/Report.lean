/-
# Reports of training runs

A run of many episodes is reported as one summary per episode, together with the profile and the
policy at its end.
-/
import Punter.Profile
import Punter.Policy

namespace Punter

/-- Why the steps of an episode stopped. -/
inductive Termination where
  /-- The session has ended. -/
  | done
  /-- Too many steps failed in a row. -/
  | breakerOpen
  /-- No more steps were allowed. -/
  | stepCap
  deriving DecidableEq, Repr

namespace Termination

/-- The name of a termination in reports. -/
def label : Termination → String
  | done => "done"
  | breakerOpen => "breaker_open"
  | stepCap => "step_cap"

/-- The name of a termination where it is shown to the user. -/
def title : Termination → String
  | done => "Done"
  | breakerOpen => "BreakerOpen"
  | stepCap => "StepCap"

/-- All terminations under their names. -/
def all : List (String × Termination) :=
  [done, breakerOpen, stepCap].map fun t => (t.label, t)

/-- Terminations in JSON are their names. -/
def codec {α : Type} [Scalar α] : Codec α Termination := .variants all none label

end Termination

/-- What is reported about an episode. -/
structure Summary (α : Type) where
  /-- The number of the episode, counted from one. -/
  episode : Nat
  session : Option SessionId
  totalReward : α
  /-- The probability of exploring while the episode ran. -/
  epsilon : α
  steps : Nat
  finalPhase : Option Phase
  meanReward : α
  rewardVariance : α
  episodeLength : Nat
  meanLikeness : α
  /-- The smallest stake while the episode ran. -/
  minBet : α
  /-- The largest stake while the episode ran. -/
  maxBet : α
  termination : Option Termination
  exportPath : Option String
  /-- Why the experiences of the episode could not be written. -/
  exportError : Option String
  /-- Why the episode failed. -/
  error : Option String
  deriving DecidableEq

namespace Summary

variable {α : Type}

/-- Summaries in JSON. -/
def codec [Scalar α] : Codec α (Summary α) :=
  .record "struct EpisodeSummary"
    (.cons (.required "episode" .size) <|
     .cons (.optional "session_id" Uuid.codec) <|
     .cons (.required "total_reward" .scalar) <|
     .cons (.required "epsilon" .scalar) <|
     .cons (.required "steps" .size) <|
     .cons (.optional "final_state" Phase.codec) <|
     .cons (.required "mean_reward" .scalar) <|
     .cons (.required "reward_variance" .scalar) <|
     .cons (.required "episode_length" .size) <|
     .cons (.required "mean_human_likeness" .scalar) <|
     .cons (.required "min_bet" .scalar) <|
     .cons (.required "max_bet" .scalar) <|
     .cons (.optional "termination" Termination.codec) <|
     .cons (.optional "export_path" .path) <|
     .cons ((Field.optional "export_error" .string).whenSome.orAbsent none) <|
     .cons (.optional "error" .string) .nil)
    (fun (episode, session, totalReward, epsilon, steps, finalPhase, meanReward, rewardVariance,
        episodeLength, meanLikeness, minBet, maxBet, termination, exportPath, exportError,
        error, _) =>
      ⟨episode, session, totalReward, epsilon, steps, finalPhase, meanReward, rewardVariance,
        episodeLength, meanLikeness, minBet, maxBet, termination, exportPath, exportError,
        error⟩)
    (fun s => (s.episode, s.session, s.totalReward, s.epsilon, s.steps, s.finalPhase,
      s.meanReward, s.rewardVariance, s.episodeLength, s.meanLikeness, s.minBet, s.maxBet,
      s.termination, s.exportPath, s.exportError, s.error, ()))

/-- The summary of an episode that failed. -/
def failed [Scalar α] (episode : Nat) (profile : Profile α) (policy : Policy α)
    (error : String) : Summary α where
  episode := episode
  session := none
  totalReward := 0.0
  epsilon := policy.epsilon
  steps := 0
  finalPhase := none
  meanReward := 0.0
  rewardVariance := 0.0
  episodeLength := 0
  meanLikeness := 0.0
  minBet := profile.minBet
  maxBet := profile.maxBet
  termination := none
  exportPath := none
  exportError := none
  error := some error

/-- The name of the last phase, as it is shown to the user. -/
def finalLabel (s : Summary α) : String :=
  match s.finalPhase with
  | some p => p.label
  | none => "n/a"

end Summary

/-- What is reported about a run. -/
structure Report (α : Type) where
  summaries : List (Summary α)
  profile : Profile α
  policy : Policy α
  deriving DecidableEq

namespace Report

variable {α : Type}

/-- Reports in JSON. -/
def codec [Scalar α] : Codec α (Report α) :=
  .record "struct TrainingReport"
    (.cons (.required "summaries" (.list Summary.codec)) <|
     .cons (.required "final_profile" Profile.codec) <|
     .cons (.required "final_policy" Policy.codec) .nil)
    (fun (summaries, profile, policy, _) => ⟨summaries, profile, policy⟩)
    (fun r => (r.summaries, r.profile, r.policy, ()))

/-- How many episodes did not fail. -/
def completed (r : Report α) : Nat := (r.summaries.filter fun s => s.error.isNone).length

end Report

end Punter
