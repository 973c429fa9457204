/-
# Episodes

An episode opens a session and makes steps until the session has ended or no more steps are
allowed; a step that fails ends the episode with its failure.  Then the experiences of the session
are fetched.  A failure to do so does not fail the episode, which then has no experiences.  An episode
has no outcome only if the pages go on.
-/
import Punter.Episode.Fetch
import Punter.Resilience.Breaker
import Punter.Training.Report

namespace Punter

/-- The limits of an episode. -/
structure EpisodeSettings where
  /-- The game to play; a fresh one for each episode if none is given. -/
  game : Option GameId
  /-- How many steps are allowed.  The first one always is. -/
  maxSteps : Nat
  breakerThreshold : Nat
  /-- How many experiences are asked for at once. -/
  pageSize : Nat
  /-- A length for all pauses. -/
  fixedDelay : Option Duration
  deriving DecidableEq

/-- The limits that are used where nothing else is said. -/
def EpisodeSettings.standard : EpisodeSettings := ⟨none, 500, 5, 1000, none⟩

/-- What came of an episode. -/
structure EpisodeOutcome (α : Type) where
  session : SessionId
  /-- What was seen last. -/
  final : Observation α
  experiences : List (Experience α)
  steps : Nat
  termination : Termination
  meanLikeness : α

/-- How far an episode has come. -/
structure Progress (α : Type) where
  steps : Nat
  /-- The sum of the scores of the pace. -/
  likeness : α
  observation : Observation α
  done : Bool
  breaker : Breaker

namespace Progress

variable {α : Type} [Scalar α]

/-- No step has been made. -/
def start (phase : Phase) (threshold : Nat) : Progress α :=
  ⟨0, 0.0, .initial phase, false, .new threshold⟩

/-- One more step has been made. -/
def after (p : Progress α) (o : StepOutcome α) : Progress α :=
  ⟨p.steps + 1, p.likeness + o.likeness, o.observation, o.done, p.breaker.succeed⟩

/-- Whether no further step is to be made. -/
def stopped (p : Progress α) : Bool := p.done || p.breaker.isOpen

/-- Why the steps stopped. -/
def termination (p : Progress α) : Termination :=
  if p.done then .done else if p.breaker.isOpen then .breakerOpen else .stepCap

end Progress

/-- Who plays episodes. -/
structure Agent where
  stepper : Stepper
  settings : EpisodeSettings
  /-- How many pages of a session are looked at, at most. -/
  horizon : Nat

namespace Agent

variable {σ ρ α : Type} [Scalar α] [Service σ α] [RandomSource ρ α]

/-- Makes up to a number of steps. -/
def steps (a : Agent) (session : SessionId) (profile : Profile α) (policy : Policy α) :
    Nat → Progress α → ρ → World σ α → Except ServiceError (Progress α) × ρ × World σ α
  | 0, p, r, w => (.ok p, r, w)
  | n + 1, p, r, w =>
    if p.stopped then (.ok p, r, w)
    else
      match a.stepper.step session profile policy a.settings.fixedDelay r w with
      | (.error e, r, w) => (.error e, r, w)
      | (.ok o, r, w) => steps a session profile policy n (p.after o) r w

/-- How many steps are allowed. -/
def maxSteps (a : Agent) : Nat := max a.settings.maxSteps 1

/-- Fetches the experiences of a session. -/
def fetch (a : Agent) (session : SessionId) (w : World σ α) :
    Option (Except ServiceError (List (Experience α))) × World σ α :=
  a.stepper.fetch session a.settings.pageSize a.horizon w

/-- What a failure to fetch leaves. -/
def orNone : Except ServiceError (List (Experience α)) → List (Experience α)
  | .ok es => es
  | .error _ => []

/-- Plays an episode.  `fresh` is the game if the settings give none. -/
def runEpisode (a : Agent) (fresh : GameId) (profile : Profile α) (policy : Policy α) (r : ρ)
    (w : World σ α) : Option (Except ServiceError (EpisodeOutcome α)) × ρ × World σ α :=
  match a.stepper.call (.create (a.settings.game.getD fresh) profile.player) w with
  | (.error e, w) => (some (.error e), r, w)
  | (.ok opened, w) =>
    let start := Progress.start opened.phase a.settings.breakerThreshold
    match a.steps opened.session profile policy a.maxSteps start r w with
    | (.error e, r, w) => (some (.error e), r, w)
    | (.ok p, r, w) =>
      let (fetched, w) := a.fetch opened.session w
      (fetched.map fun fetched => .ok {
        session := opened.session
        final := p.observation
        experiences := orNone fetched
        steps := p.steps
        termination := p.termination
        meanLikeness := p.likeness / Scalar.ofNat p.steps }, r, w)

end Agent

end Punter
