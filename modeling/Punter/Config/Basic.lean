/-
# The whole configuration

The sections together, what the environment adds to them, when they are accepted, and what the
other parts of the program take from them.
-/
import Punter.Config.Sections
import Punter.Training.Run

namespace Punter

/-- A configuration. -/
structure Config (α : Type) where
  remote : Config.Remote
  retrier : Retrier
  breakerThreshold : Nat
  start : Config.Start α
  profile : Profile α
  training : Config.Training
  simulation : Simulation.Settings α

namespace Config

variable {α : Type} [Scalar α]

/-- The configuration where nothing is said. -/
def standard : Config α where
  remote := .standard
  retrier := .standard
  breakerThreshold := Breaker.standard
  start := .standard
  profile := .standard
  training := .standard
  simulation := .standard

/-- Configurations in JSON. -/
def codec : Codec α (Config α) :=
  let d : Config α := standard
  .record "struct ParlayConfig"
    (.cons (.standard "service" Remote.codec d.remote) <|
     .cons (.standard "retry" Retry.codec d.retrier) <|
     .cons (.standard "breaker" Breaker.codec d.breakerThreshold) <|
     .cons (.standard "policy" Start.codec d.start) <|
     .cons (.standard "profile" Profile.codec d.profile) <|
     .cons (.standard "training" Training.codec d.training) <|
     .cons (.standard "mock" Simulation.Settings.codec d.simulation) .nil)
    (fun (remote, retrier, threshold, start, profile, training, simulation, _) =>
      ⟨remote, retrier, threshold, start, profile, training, simulation⟩)
    (fun c => (c.remote, c.retrier, c.breakerThreshold, c.start, c.profile, c.training,
      c.simulation, ()))

/-! ## The environment -/

/-- The variable that gives the key where the configuration has none. -/
def keyVariable : String := "PARLAY_API_KEY"

/-- The variable that gives the address where the configuration has none. -/
def urlVariable : String := "PARLAY_BASE_URL"

/-- A text, or the value of a variable where it is empty. -/
def orVariable (lookup : String → Option String) (name text : String) : String :=
  if text.isEmpty then (lookup name).getD text else text

/-- The configuration with its gaps filled from the environment. -/
def withEnvironment (c : Config α) (lookup : String → Option String) : Config α :=
  { c with remote := { c.remote with
      apiKey := orVariable lookup keyVariable c.remote.apiKey
      baseUrl := orVariable lookup urlVariable c.remote.baseUrl } }

/-- The configuration with another behavior of its profile. -/
def withBehavior (c : Config α) (b : Behavior) : Config α :=
  { c with profile := c.profile.withBehavior b }

/-! ## Which configurations are accepted -/

/-- What can be wrong with a configuration. -/
inductive Flaw (α : Type) where
  | noBaseUrl
  | thresholdZero
  | delaysCrossed
  | policy (flaw : Policy.Flaw α)
  | profile (flaw : Profile.Flaw α)
  | noSteps
  | pageSizeOutside
  | winProbabilityOutside
  | noneRetained

/-- The wording of a flaw, followed by that of its cause. -/
def Flaw.chain : Flaw α → List String
  | noBaseUrl => ["service.base_url is empty; set it in the config or via " ++ urlVariable]
  | thresholdZero => ["breaker.threshold must be positive"]
  | delaysCrossed => ["retry base_delay exceeds cap_delay"]
  | policy f => ["invalid policy section", f.message]
  | profile f => ["invalid profile section", f.message]
  | noSteps => ["training.max_steps must be positive"]
  | pageSizeOutside =>
    ["training.export_page_size must lie in [1, " ++ Number.numeral Call.maxPage ++ "]"]
  | winProbabilityOutside => ["mock.win_probability must lie in [0, 1]"]
  | noneRetained => ["mock.retained_sessions must be positive"]

/-- The policy of the first episode. -/
def initialPolicy (c : Config α) : Except (Policy.Flaw α) (Policy α) :=
  Policy.start c.start.epsilon c.start.decayRate

/-- Fails with a flaw unless a condition holds. -/
def ensure (condition : Prop) [Decidable condition] (f : Flaw α) : Except (Flaw α) Unit :=
  if condition then .ok () else .error f

/-- Accepts the configurations without flaws.  A remote service needs an address. -/
def check (c : Config α) (remote : Bool) : Except (Flaw α) Unit := do
  ensure (remote = true → c.remote.baseUrl ≠ "") .noBaseUrl
  ensure (0 < c.breakerThreshold) .thresholdZero
  ensure (c.retrier.backoff.base.nanos ≤ c.retrier.backoff.cap.nanos) .delaysCrossed
  let _ ← c.initialPolicy.mapError .policy
  c.profile.check.mapError .profile
  ensure (0 < c.training.maxSteps) .noSteps
  ensure (1 ≤ c.training.pageSize ∧ c.training.pageSize ≤ Call.maxPage) .pageSizeOutside
  ensure (Scalar.within 0.0 1.0 c.simulation.winProbability = true) .winProbabilityOutside
  ensure (0 < c.simulation.retained) .noneRetained

/-! ## What the other parts take -/

/-- The limits of episodes. -/
def episodeSettings (c : Config α) : EpisodeSettings where
  game := c.remote.game
  maxSteps := c.training.maxSteps
  breakerThreshold := c.breakerThreshold
  pageSize := c.training.pageSize
  fixedDelay := c.training.fixedDelay.map .ofMillis

/-- How training runs go. -/
def trainingSettings (c : Config α) : TrainingSettings where
  episodes := c.training.episodes
  outputDir := c.training.outputDir
  window := c.training.window
  abortOnError := c.training.abortOnError

/-- How long a call of the remote service may take. -/
def timeout (c : Config α) : Duration := .ofSeconds c.remote.timeout

end Config

end Punter
