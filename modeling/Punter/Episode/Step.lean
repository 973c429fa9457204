/-
# Steps

In a step the agent reads the session, decides what to do, pauses, and plays the action together
with the score of its pace.  Both calls are tried again where they fail; the pause is not.
-/
import Punter.Episode.Pacer
import Punter.Policy.Decide
import Punter.Resilience.Retry

namespace Punter

/-- What came of a step. -/
structure StepOutcome (α : Type) where
  observation : Observation α
  proposal : Proposal α
  likeness : α
  /-- How long the pause was meant to be. -/
  target : Duration
  /-- How long the pause was reported to be. -/
  actual : Duration

namespace StepOutcome

/-- Whether the session has ended. -/
def done {α : Type} (o : StepOutcome α) : Bool := o.observation.isTerminal

end StepOutcome

/-- What steps are made with. -/
structure Stepper where
  retrier : Retrier
  pacer : Pacer

namespace Stepper

variable {σ ρ α : Type} [Scalar α] [Service σ α] [RandomSource ρ α]

/-- Calls the service, again where that is called for.  What is noted down about the attempts does
not belong to the world. -/
def call (s : Stepper) (c : Call α) (w : World σ α) : Except ServiceError c.Answer × World σ α :=
  s.retrier.run (fun _ w => w) World.sleep (World.ask c) w

/-- The length of the next pause: the given one, or one between the bounds of the profile, in
whole milliseconds. -/
def target (profile : Profile α) (fixed : Option Duration) (r : ρ) : Duration × ρ :=
  match fixed with
  | some d => (d, r)
  | none =>
    let (ms, r) :=
      RandomSource.uniform (Scalar.ofNat profile.minDelay : α) (Scalar.ofNat profile.maxDelay) r
    (.ofMillis (Scalar.toCount (Scalar.round ms)), r)

/-- Makes a step. -/
def step (s : Stepper) (session : SessionId) (profile : Profile α) (policy : Policy α)
    (fixed : Option Duration) (r : ρ) (w : World σ α) :
    Except ServiceError (StepOutcome α) × ρ × World σ α :=
  match s.call (.get session) w with
  | (.error e, w) => (.error e, r, w)
  | (.ok before, w) =>
    let (proposal, r) := policy.decide before.phase r
    let (target, r) := target profile fixed r
    let (actual, w) := s.pacer.wait target w
    let likeness := profile.likeness actual.toMillis
    match s.call (.play session (proposal.toPlay profile likeness)) w with
    | (.error e, w) => (.error e, r, w)
    | (.ok after, w) => (.ok ⟨after, proposal, likeness, target, actual⟩, r, w)

end Stepper

end Punter
