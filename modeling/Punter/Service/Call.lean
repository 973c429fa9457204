/-
# Calls of the service

The service takes five kinds of call.  Each call has its own type of answer, and every call may
fail.  A service is anything that answers calls and may change its state while doing so.
-/
import Punter.Action
import Punter.Experience.Basic
import Punter.Service.Error
import Punter.Time.Duration

namespace Punter

/-- A call of the service. -/
inductive Call (α : Type) where
  /-- Opens a session for a game. -/
  | create (game : GameId) (player : Player α)
  /-- Reads a session. -/
  | get (session : SessionId)
  /-- Plays an action in a session. -/
  | play (session : SessionId) (play : Play α)
  /-- Asks for a page of the experiences of a session. -/
  | page (session : SessionId) (limit offset : Nat)
  /-- Asks whether the service is well. -/
  | health

namespace Call

variable {α : Type}

/-- The type of the answer to a call. -/
abbrev Answer : Call α → Type
  | create _ _ => Opened
  | get _ => Observation α
  | play _ _ => Observation α
  | page _ _ _ => List (Experience α)
  | health => Health

/-- The most experiences that one page has. -/
def maxPage : Nat := 10000

/-- The largest offset of a page. -/
def maxOffset : Nat := UInt32.size - 1

end Call

/-- Something with state `σ` that answers calls.  It is told the time of the call. -/
class Service (σ α : Type) where
  answer : (c : Call α) → (now : Duration) → σ → Except ServiceError c.Answer × σ

end Punter
