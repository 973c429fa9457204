/-
# Decisions

A decision draws one number to choose between exploring and the plan.  Exploring draws a second
one for the kind of action and, for a bet, a third one for the stake.  Exploratory stakes have
bounds and a currency of their own, which do not follow the profile.
-/
import Punter.Policy
import Punter.Policy.Plan
import Punter.Random.Source

namespace Punter.Policy

variable {α ρ : Type} [Scalar α] [RandomSource ρ α]

/-- The lowest exploratory stake. -/
def lowestStake : α := 1.0

/-- The highest exploratory stake. -/
def highestStake : α := 10.0

/-- The currency of exploratory stakes. -/
def stakeCurrency : Currency := .aud

/-- Which of the three kinds of action a number stands for. -/
def kindOf (x : α) : ActionKind :=
  match min (Scalar.toCount (x * 3.0)) 2 with
  | 0 => .placeBet
  | 1 => .spin
  | _ => .cashOut

/-- A move chosen at random. -/
def explore (r : ρ) : Proposal α × ρ :=
  let (x, r) := RandomSource.draw r
  match kindOf (α := α) x with
  | .placeBet =>
    let (stake, r) := RandomSource.uniform (lowestStake : α) highestStake r
    (.placeBet (some ⟨Scalar.round2 stake, stakeCurrency⟩), r)
  | .spin => (.spin, r)
  | .cashOut => (.cashOut, r)

/-- The next move in a phase. -/
def decide (p : Policy α) (phase : Phase) (r : ρ) : Proposal α × ρ :=
  let (x, r) := RandomSource.draw r
  if x < p.epsilon then explore r else (.plan phase, r)

end Punter.Policy
