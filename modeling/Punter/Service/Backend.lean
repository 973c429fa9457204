/-
# The service in use

The service that a program uses is either the remote one or the simulated one.
-/
import Punter.Http.Client
import Punter.Simulation.State

namespace Punter

/-- A remote or a simulated service. -/
inductive Backend (τ γ α : Type) where
  | remote (client : Http.Client τ)
  | simulated (state : Simulation.State γ α)

namespace Backend

variable {τ γ α : Type} [Scalar α] [Http.Link τ] [Chance γ α]

/-- The answer to a call. -/
def answer (c : Call α) (now : Duration) : Backend τ γ α →
    Except ServiceError c.Answer × Backend τ γ α
  | remote client =>
    let (outcome, client) := Service.answer c now client
    (outcome, remote client)
  | simulated state =>
    let (outcome, state) := Service.answer c now state
    (outcome, simulated state)

instance : Service (Backend τ γ α) α := ⟨answer⟩

end Backend

end Punter
