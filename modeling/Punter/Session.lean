/-
# Sessions

A session is opened for a game and passes through phases until it is completed.  The service
reports a session as a whole; the agent looks at observations only: the phase, the counters, and
the result of the action that led there.
-/
import Punter.Money
import Punter.Text.Uuid

namespace Punter

/-- What identifies a session. -/
abbrev SessionId := Uuid

/-- What identifies a game. -/
abbrev GameId := Uuid

/-- The phases of a session. -/
inductive Phase where
  | idle
  | initialized
  | probing
  | playing
  | evaluating
  | completed
  deriving DecidableEq, Repr

namespace Phase

/-- The name of a phase. -/
def label : Phase → String
  | idle => "Idle"
  | initialized => "Initialized"
  | probing => "Probing"
  | playing => "Playing"
  | evaluating => "Evaluating"
  | completed => "Completed"

/-- Whether a session in this phase has ended. -/
def isTerminal : Phase → Bool
  | completed => true
  | _ => false

/-- All phases under their names. -/
def all : List (String × Phase) :=
  [idle, initialized, probing, playing, evaluating, completed].map fun p => (p.label, p)

/-- Phases in JSON are their names. -/
def codec {α : Type} [Scalar α] : Codec α Phase := .variants all none label

theorem isTerminal_iff (p : Phase) : p.isTerminal = true ↔ p = completed := by
  cases p <;> simp [isTerminal]

end Phase

/-- The counters that the service keeps for a session. -/
structure Counters (α : Type) where
  totalSpins : Nat
  totalPayout : α
  deriving DecidableEq, Repr

namespace Counters

variable {α : Type} [Scalar α]

/-- The counters of a session in which nothing has happened. -/
def zero : Counters α := ⟨0, 0.0⟩

/-- Counters in JSON. -/
def codec : Codec α (Counters α) :=
  .record "struct SessionMetrics"
    (.cons (.required "totalSpins" .count64) <|
     .cons (.required "totalPayout" .scalar) .nil)
    (fun (spins, payout, _) => ⟨spins, payout⟩)
    (fun c => (c.totalSpins, c.totalPayout, ()))

end Counters

/-- A session as the service reports it. -/
structure Session (α : Type) where
  session : SessionId
  game : GameId
  phase : Phase
  counters : Counters α
  deriving DecidableEq

/-- Sessions in JSON. -/
def Session.codec {α : Type} [Scalar α] : Codec α (Session α) :=
  .record "struct Session"
    (.cons (.required "sessionId" Uuid.codec) <|
     .cons (.required "gameId" Uuid.codec) <|
     .cons (.required "state" Phase.codec) <|
     .cons (.standard "metrics" Counters.codec .zero) .nil)
    (fun (session, game, phase, counters, _) => ⟨session, game, phase, counters⟩)
    (fun s => (s.session, s.game, s.phase, s.counters, ()))

/-- What the service is told about the player when a session is opened. -/
structure Player (α : Type) where
  behavior : String
  maxBet : Option (Money α)
  deriving DecidableEq, Repr

/-- Players in JSON. -/
def Player.codec {α : Type} [Scalar α] : Codec α (Player α) :=
  .record "struct PlayerProfile"
    (.cons (.required "behaviorType" .string) <|
     .cons (Field.optional "maxBet" Money.codec).whenSome .nil)
    (fun (behavior, maxBet, _) => ⟨behavior, maxBet⟩)
    (fun p => (p.behavior, p.maxBet, ()))

/-- The wish to open a session. -/
structure Opening (α : Type) where
  game : GameId
  player : Player α

/-- Openings in JSON. -/
def Opening.codec {α : Type} [Scalar α] : Codec α (Opening α) :=
  .record "struct CreateSessionRequest"
    (.cons (.required "gameId" Uuid.codec) <|
     .cons (.required "playerProfile" Player.codec) .nil)
    (fun (game, player, _) => ⟨game, player⟩)
    (fun o => (o.game, o.player, ()))

/-- The session that has been opened. -/
structure Opened where
  session : SessionId
  phase : Phase
  deriving DecidableEq

/-- Opened sessions in JSON. -/
def Opened.codec {α : Type} [Scalar α] : Codec α Opened :=
  .record "struct CreateSessionResponse"
    (.cons (.required "sessionId" Uuid.codec) <|
     .cons (.required "state" Phase.codec) .nil)
    (fun (session, phase, _) => ⟨session, phase⟩)
    (fun o => (o.session, o.phase, ()))

end Punter
