/-
# Training runs

A run plays a number of episodes one after the other.  After each completed episode the profile is
adapted to its rewards, the policy decays, and its experiences are exported.

An episode that fails either ends the run, or is summarised with its failure and leaves profile
and policy as they are.  An export that fails follows the same rule, but its episode counts.  The
error for which a run ends is returned with what it holds; one that is summarised is let go of.  A
run of which an episode goes on for ever has no outcome.
-/
import Punter.Episode.Run
import Punter.Files.Export
import Punter.Profile.Adapt

namespace Punter

/-- How a run goes. -/
structure TrainingSettings where
  episodes : Nat
  /-- The directory for exports. -/
  outputDir : String
  /-- How many rewards the adaptation looks at. -/
  window : Nat
  /-- Whether the first failure ends the run. -/
  abortOnError : Bool
  deriving DecidableEq, Repr

/-- Why a run ends early. -/
inductive TrainingError (α : Type) where
  | badProfile (flaw : Profile.Flaw α)
  | badPolicy (flaw : Policy.Flaw α)
  | episodeFailed (number : Nat) (error : ServiceError)
  | exportFailed (number : Nat) (error : WriteError)

/-- The wording of an error, followed by those of its causes. -/
def TrainingError.chain {α : Type} [Scalar α] : TrainingError α → List String
  | badProfile f => ["invalid starting profile", f.message]
  | badPolicy f => ["invalid starting policy", f.message]
  | episodeFailed n e => ["episode " ++ Number.numeral n ++ " failed", e.message]
  | exportFailed n e => ("failed to export episode " ++ Number.numeral n) :: e.chain

/-- The file that an error holds. -/
def TrainingError.held? {α : Type} : TrainingError α → Option Place
  | exportFailed _ e => e.held?
  | _ => none

/-- Lets go of an error, and of the file that it holds. -/
def TrainingError.release {φ α : Type} [Storage φ] (e : TrainingError α) (files : φ) : φ :=
  match e with
  | exportFailed _ e => Storage.release e files
  | _ => files

/-- The wordings of an error and its causes in one line. -/
def causes (chain : List String) : String := ": ".intercalate chain

/-- What changes in the course of a run. -/
structure Course (ρ σ φ α : Type) where
  profile : Profile α
  policy : Policy α
  random : ρ
  world : World σ α
  files : φ

/-- Who carries out runs. -/
structure Trainer where
  agent : Agent
  settings : TrainingSettings
  /-- The games of episodes for which the settings give none. -/
  games : Nat → GameId

/-- The summary of an episode that was completed. -/
def Summary.ofOutcome {α : Type} [Scalar α] (episode : Nat) (o : EpisodeOutcome α)
    (profile : Profile α) (policy : Policy α) (path : Option String)
    (exportError : Option String) : Summary α :=
  let rewards := o.experiences.map (·.reward)
  { episode := episode
    session := some o.session
    totalReward := Rewards.total rewards
    epsilon := policy.epsilon
    steps := o.steps
    finalPhase := some o.final.phase
    meanReward := Rewards.mean rewards
    rewardVariance := Rewards.variance none rewards
    episodeLength := Rewards.episodeLength (o.experiences.map (·.done))
    meanLikeness := o.meanLikeness
    minBet := profile.minBet
    maxBet := profile.maxBet
    termination := some o.termination
    exportPath := path
    exportError := exportError
    error := none }

namespace Trainer

variable {σ ρ φ α : Type} [Scalar α] [Service σ α] [RandomSource ρ α] [Storage φ]

/-- Exports the experiences of an episode, if there are any, and gives the path of the file. -/
def exportEpisode (t : Trainer) (number : Nat) (es : List (Experience α)) (files : φ) :
    Except WriteError (Option String) × φ :=
  if es.isEmpty then (.ok none, files)
  else
    let path := Path.ofEpisode t.settings.outputDir number
    match Experience.save path es files with
    | (.ok _, files) => (.ok (some path), files)
    | (.error e, files) => (.error e, files)

/-- Plays the episode with a number. -/
def episode (t : Trainer) (number : Nat) (c : Course ρ σ φ α) :
    Option (Except (TrainingError α) (Summary α)) × Course ρ σ φ α :=
  match t.agent.runEpisode (t.games number) c.profile c.policy c.random c.world with
  | (none, random, world) => (none, { c with random := random, world := world })
  | (some (.error e), random, world) =>
    let next := { c with random := random, world := world }
    if t.settings.abortOnError then (some (.error (.episodeFailed number e)), next)
    else (some (.ok (.failed number c.profile c.policy e.message)), next)
  | (some (.ok o), random, world) =>
    let (exported, files) := t.exportEpisode number o.experiences c.files
    let next : Course ρ σ φ α :=
      { profile := c.profile.adapt (o.experiences.map (·.reward)) t.settings.window
        policy := c.policy.decay
        random := random
        world := world
        files := files }
    match exported with
    | .ok path => (some (.ok (.ofOutcome number o c.profile c.policy path none)), next)
    | .error e =>
      let e : TrainingError α := .exportFailed number e
      if t.settings.abortOnError then (some (.error e), next)
      else (some (.ok (.ofOutcome number o c.profile c.policy none (some (causes e.chain)))),
        { next with files := e.release files })

/-- Plays a number of episodes, the first of them with the number `number`. -/
def episodes (t : Trainer) : Nat → Nat → Course ρ σ φ α →
    Option (Except (TrainingError α) (List (Summary α))) × Course ρ σ φ α
  | 0, _, c => (some (.ok []), c)
  | n + 1, number, c =>
    match t.episode number c with
    | (none, c) => (none, c)
    | (some (.error e), c) => (some (.error e), c)
    | (some (.ok s), c) =>
      match episodes t n (number + 1) c with
      | (none, c) => (none, c)
      | (some (.error e), c) => (some (.error e), c)
      | (some (.ok ss), c) => (some (.ok (s :: ss)), c)

/-- Carries out a run from a valid profile and a valid policy. -/
def run (t : Trainer) (c : Course ρ σ φ α) :
    Option (Except (TrainingError α) (Report α)) × Course ρ σ φ α :=
  match c.profile.check, c.policy.check with
  | .error f, _ => (some (.error (.badProfile f)), c)
  | .ok (), .error f => (some (.error (.badPolicy f)), c)
  | .ok (), .ok () =>
    match t.episodes t.settings.episodes 1 c with
    | (none, c) => (none, c)
    | (some (.error e), c) => (some (.error e), c)
    | (some (.ok ss), c) => (some (.ok ⟨ss, c.profile, c.policy⟩), c)

end Trainer

end Punter
