/-
# The experiences of the sessions

The service keeps experiences apart from the sessions that they belong to: there is an entry for
each session for which something has been recorded.  That entries stand for sessions that are held
is not a matter of course, and nothing here sees to it.
-/
import Punter.Experience.Basic
import Punter.Session

namespace Punter.Simulation

/-- The experiences that were recorded for a session, in their order. -/
structure Entry (α : Type) where
  session : SessionId
  experiences : List (Experience α)

/-- The experiences of the sessions. -/
abbrev Log (α : Type) := List (Entry α)

namespace Log

variable {α : Type}

/-- The experiences of a session.  There are none where it has no entry. -/
def of : Log α → SessionId → List (Experience α)
  | [], _ => []
  | x :: l, id => if x.session = id then x.experiences else of l id

/-- Records an experience of a session, which gets an entry if it has none. -/
def push : Log α → SessionId → Experience α → Log α
  | [], id, e => [⟨id, [e]⟩]
  | x :: l, id, e =>
    if x.session = id then { x with experiences := x.experiences ++ [e] } :: l
    else x :: push l id e

/-- Drops the entries of sessions. -/
def drop (l : Log α) (ids : List SessionId) : Log α := l.filter fun x => !ids.contains x.session

/-- All experiences. -/
def all (l : Log α) : List (Experience α) := l.flatMap Entry.experiences

end Log

end Punter.Simulation
