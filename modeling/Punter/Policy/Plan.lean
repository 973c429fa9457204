/-
# The plan

The move that the agent makes in each phase when it does not explore.
-/
import Punter.Policy.Proposal

namespace Punter.Proposal

variable {α : Type}

/-- The planned move of a phase. -/
def plan : Phase → Proposal α
  | .idle => placeBet none
  | .initialized => placeBet none
  | .probing => placeBet none
  | .playing => spin
  | .evaluating => placeBet none
  | .completed => cashOut

end Punter.Proposal
