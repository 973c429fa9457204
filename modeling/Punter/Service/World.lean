/-
# The world around the agent

Everything the agent acts on: the service with its state, a clock, and the number of pauses made
so far.  The world also remembers every call that reached the service, so that laws about what
the agent does can be stated as laws about this log.
-/
import Punter.Service.Call

namespace Punter

/-- A call that reached the service, and what came of it. -/
structure Exchange (α : Type) where
  /-- The time of the call. -/
  time : Duration
  call : Call α
  outcome : Except ServiceError call.Answer

/-- A service with its state, a clock, and a log. -/
structure World (σ α : Type) where
  service : σ
  clock : Duration
  /-- How many pauses the agent has made. -/
  pauses : Nat
  /-- The exchanges so far, the latest first. -/
  log : List (Exchange α)

namespace World

variable {σ α : Type}

/-- The world in which nothing has happened. -/
def start (service : σ) : World σ α := ⟨service, .zero, 0, []⟩

/-- The exchanges so far, in their order. -/
def history (w : World σ α) : List (Exchange α) := w.log.reverse

/-- Calls the service. -/
def ask [Service σ α] (c : Call α) (w : World σ α) : Except ServiceError c.Answer × World σ α :=
  let (outcome, service) := Service.answer c w.clock w.service
  (outcome, { w with service := service, log := ⟨w.clock, c, outcome⟩ :: w.log })

/-- Lets time pass. -/
def sleep (d : Duration) (w : World σ α) : World σ α := { w with clock := w.clock.add d }

end World

end Punter
