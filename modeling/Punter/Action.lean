/-
# Actions and their results

The service accepts three kinds of action; a bet carries a stake.  Playing an action gives a
result, and the session as it is afterwards.
-/
import Punter.Session

namespace Punter

/-- The kinds of action. -/
inductive ActionKind where
  | placeBet
  | spin
  | cashOut
  deriving DecidableEq, Repr

namespace ActionKind

/-- The name of a kind of action. -/
def label : ActionKind → String
  | placeBet => "PlaceBet"
  | spin => "Spin"
  | cashOut => "CashOut"

/-- All kinds of action under their names. -/
def all : List (String × ActionKind) := [placeBet, spin, cashOut].map fun k => (k.label, k)

/-- Kinds of action in JSON are their names. -/
def codec {α : Type} [Scalar α] : Codec α ActionKind := .variants all none label

end ActionKind

/-- An action as the service takes it. -/
structure Action (α : Type) where
  kind : ActionKind
  amount : Option (Money α)
  deriving DecidableEq, Repr

/-- Actions in JSON. -/
def Action.codec {α : Type} [Scalar α] : Codec α (Action α) :=
  .record "struct GameplayAction"
    (.cons (.required "type" ActionKind.codec) <|
     .cons (Field.optional "amount" Money.codec).whenSome .nil)
    (fun (kind, amount, _) => ⟨kind, amount⟩)
    (fun a => (a.kind, a.amount, ()))

/-- An action together with the score of the pace at which it is played. -/
structure Play (α : Type) where
  action : Action α
  humanLikeness : α
  deriving DecidableEq, Repr

/-- Plays in JSON. -/
def Play.codec {α : Type} [Scalar α] : Codec α (Play α) :=
  .record "struct PlayActionRequest"
    (.cons (.required "action" Action.codec) <|
     .cons (.required "humanLikeness" .scalar) .nil)
    (fun (action, likeness, _) => ⟨action, likeness⟩)
    (fun p => (p.action, p.humanLikeness, ()))

/-- What an action gave. -/
structure PlayResult (α : Type) where
  payout : Option (Money α)
  symbols : List String
  deriving DecidableEq, Repr

namespace PlayResult

/-- Nothing was paid and nothing is shown. -/
def empty {α : Type} : PlayResult α := ⟨none, []⟩

/-- Results in JSON. -/
def codec {α : Type} [Scalar α] : Codec α (PlayResult α) :=
  .record "struct GameplayResult"
    (.cons ((Field.optional "payout" Money.codec).whenSome.orAbsent none) <|
     .cons (.standard "symbols" (.list .string) []) .nil)
    (fun (payout, symbols, _) => ⟨payout, symbols⟩)
    (fun r => (r.payout, r.symbols, ()))

end PlayResult

/-- A session after an action, and what the action gave. -/
structure Played (α : Type) where
  session : Session α
  result : PlayResult α
  deriving DecidableEq

/-- Played actions in JSON. -/
def Played.codec {α : Type} [Scalar α] : Codec α (Played α) :=
  .record "struct PlayActionResponse"
    (.cons (.required "session" Session.codec) <|
     .cons (.required "result" PlayResult.codec) .nil)
    (fun (session, result, _) => ⟨session, result⟩)
    (fun p => (p.session, p.result, ()))

/-- What the agent sees of a session. -/
structure Observation (α : Type) where
  phase : Phase
  /-- The result of the action that led here, if one did. -/
  lastResult : Option (PlayResult α)
  counters : Counters α
  deriving DecidableEq, Repr

namespace Observation

variable {α : Type}

/-- The observation of a session that has just been opened. -/
def initial [Scalar α] (phase : Phase) : Observation α := ⟨phase, none, .zero⟩

/-- The observation of a session that has been read. -/
def ofSession (s : Session α) : Observation α := ⟨s.phase, none, s.counters⟩

/-- The observation after an action. -/
def ofPlayed (p : Played α) : Observation α := ⟨p.session.phase, some p.result, p.session.counters⟩

/-- Whether the session has ended. -/
def isTerminal (o : Observation α) : Bool := o.phase.isTerminal

/-- Observations in JSON. -/
def codec [Scalar α] : Codec α (Observation α) :=
  .record "struct Observation"
    (.cons (.required "state" Phase.codec) <|
     .cons (.optional "last_result" PlayResult.codec) <|
     .cons (.required "metrics" Counters.codec) .nil)
    (fun (phase, lastResult, counters, _) => ⟨phase, lastResult, counters⟩)
    (fun o => (o.phase, o.lastResult, o.counters, ()))

end Observation

end Punter
