/-
# Proposals

A proposal is what the agent decides to do next.  A bet may leave its stake open; when the
proposal becomes an action, the smallest stake of the profile is filled in.
-/
import Punter.Action
import Punter.Profile
import Punter.Json.Tagged

namespace Punter

/-- The next move of the agent. -/
inductive Proposal (α : Type) where
  | placeBet (amount : Option (Money α))
  | spin
  | cashOut
  deriving DecidableEq, Repr

namespace Proposal

variable {α : Type}

/-- The kind of action that is proposed. -/
def kind : Proposal α → ActionKind
  | placeBet _ => .placeBet
  | spin => .spin
  | cashOut => .cashOut

/-- The name of the kind of action. -/
def label (p : Proposal α) : String := p.kind.label

/-- The text of a proposal: its label, with the stake if it has one. -/
def display [Scalar α] : Proposal α → String
  | placeBet (some m) =>
    "PlaceBet(" ++ Scalar.text m.amount ++ " " ++ m.currency.code ++ ")"
  | p => p.label

/-- The proposed stake, if there is one. -/
def amount : Proposal α → Option (Money α)
  | placeBet m => m
  | _ => none

/-- The action that a proposal becomes. -/
def toAction (p : Proposal α) (profile : Profile α) : Action α :=
  match p with
  | placeBet m => ⟨.placeBet, some (m.getD profile.minStake)⟩
  | spin => ⟨.spin, none⟩
  | cashOut => ⟨.cashOut, none⟩

/-- The play that a proposal becomes, at a pace with the given score. -/
def toPlay (p : Proposal α) (profile : Profile α) (likeness : α) : Play α :=
  ⟨p.toAction profile, likeness⟩

/-- The member in which a bet has its stake. -/
def betFields [Scalar α] : Fields α (Option (Money α) × Unit) (Option (Option (Money α)) × Unit) :=
  .cons (.optional "amount" Money.codec) .nil

/-- The stake of a bet in JSON. -/
def betCodec [Scalar α] : Codec α (Option (Money α)) :=
  .record "struct variant ActionProposal::PlaceBet" betFields (·.1) (fun m => (m, ()))

/-- Proposals in JSON are tagged by the kind of action. -/
def codec [Scalar α] : Codec α (Proposal α) where
  read r o := do
    let (kind, rest) ← Codec.readTagged "internally tagged enum ActionProposal" "type"
      ActionKind.all r o
    let r : Reading := ⟨.buffer, r.depth⟩
    match kind with
    | .placeBet => (betCodec.read r rest).map placeBet
    | .spin => (Codec.readNothing rest).map fun _ => spin
    | .cashOut => (Codec.readNothing rest).map fun _ => cashOut
  write p :=
    let tag := ("type", Json.str p.label)
    match p with
    | placeBet m => .obj (tag :: betFields.members (m, ()))
    | _ => .obj [tag]

end Proposal

end Punter
