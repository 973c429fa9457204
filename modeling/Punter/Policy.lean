/-
# Policies

The agent explores with a probability `epsilon`, and otherwise follows a plan.  The probability
decays from episode to episode down to a floor.
-/
import Punter.Json.Codec
import Punter.Number.Counts

namespace Punter

/-- How much the agent explores, and how that changes. -/
structure Policy (α : Type) where
  epsilon : α
  /-- How many episodes have been completed, counted in 64 bits. -/
  episodes : Nat
  decayRate : α
  deriving DecidableEq, Repr

namespace Policy

variable {α : Type} [Scalar α]

/-- The lowest probability of exploring. -/
def floor : α := 0.05

/-- The policy that is used where nothing else is said. -/
def standard : Policy α := ⟨0.2, 0, 0.95⟩

/-- Policies in JSON. -/
def codec : Codec α (Policy α) :=
  .record "struct PolicyState"
    (.cons (.required "epsilon" .scalar) <|
     .cons (.required "episode_count" .count64) <|
     .cons (.required "decay_rate" .scalar) .nil)
    (fun (epsilon, episodes, decayRate, _) => ⟨epsilon, episodes, decayRate⟩)
    (fun p => (p.epsilon, p.episodes, p.decayRate, ()))

/-- What can be wrong with a policy. -/
inductive Flaw (α : Type) where
  | epsilonOutside (epsilon : α)
  | rateOutside (rate : α)
  deriving DecidableEq, Repr

/-- The wording of a flaw. -/
def Flaw.message : Flaw α → String
  | epsilonOutside x => "epsilon " ++ Scalar.text x ++ " must lie in [" ++
      Scalar.text (floor : α) ++ ", 1.0]"
  | rateOutside x => "decay_rate " ++ Scalar.text x ++ " must lie in (0, 1]"

/-- The first flaw of a policy, if it has one. -/
def flaw? (p : Policy α) : Option (Flaw α) :=
  if !Scalar.within floor 1.0 p.epsilon then some (.epsilonOutside p.epsilon)
  else if ¬ ((0.0 : α) < p.decayRate ∧ p.decayRate ≤ 1.0) then some (.rateOutside p.decayRate)
  else none

/-- Accepts the policies without flaws. -/
def check (p : Policy α) : Except (Flaw α) Unit :=
  match p.flaw? with
  | some f => .error f
  | none => .ok ()

/-- The policy of the first episode. -/
def start (epsilon decayRate : α) : Except (Flaw α) (Policy α) := do
  let p : Policy α := ⟨epsilon, 0, decayRate⟩
  p.check
  return p

/-- The policy of the next episode. -/
def decay (p : Policy α) : Policy α :=
  { p with
    epsilon := Scalar.atLeast floor (p.epsilon * p.decayRate)
    episodes := Number.next64 p.episodes }

end Policy

end Punter
