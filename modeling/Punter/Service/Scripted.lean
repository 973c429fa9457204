/-
# A scripted service

A service that answers each kind of call from a list of prepared outcomes.  When a list is used
up, calls of its kind fail.
-/
import Punter.Service.Call

namespace Punter

/-- The outcomes that are prepared for each kind of call. -/
structure Scripted (α : Type) where
  creates : List (Except ServiceError Opened)
  gets : List (Except ServiceError (Observation α))
  plays : List (Except ServiceError (Observation α))
  pages : List (Except ServiceError (List (Experience α)))

namespace Scripted

variable {α : Type}

/-- The failure of calls for which nothing is prepared. -/
def exhausted : ServiceError := .transport "script exhausted"

/-- The next outcome, and those after it. -/
def next {T : Type} : List (Except ServiceError T) →
    Except ServiceError T × List (Except ServiceError T)
  | [] => (.error exhausted, [])
  | x :: xs => (x, xs)

/-- The answer to a call. -/
def answer (c : Call α) (s : Scripted α) : Except ServiceError c.Answer × Scripted α :=
  match c with
  | .create _ _ =>
    let (x, xs) := next s.creates
    (x, { s with creates := xs })
  | .get _ =>
    let (x, xs) := next s.gets
    (x, { s with gets := xs })
  | .play _ _ =>
    let (x, xs) := next s.plays
    (x, { s with plays := xs })
  | .page _ _ _ =>
    let (x, xs) := next s.pages
    (x, { s with pages := xs })
  | .health => (.ok ⟨"healthy"⟩, s)

instance : Service (Scripted α) α := ⟨fun c _ s => answer c s⟩

end Scripted

end Punter
