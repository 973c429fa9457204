/-
# Settings of the simulated service
-/
import Punter.Json.Codec

namespace Punter.Simulation

/-- The rules of the simulated game. -/
structure Settings (α : Type) where
  /-- The number of spins after which a session is completed. -/
  spinsPerSession : Nat
  /-- The probability that a spin pays. -/
  winProbability : α
  /-- What is in the wallet of a new session. -/
  startingBalance : α
  /-- What every action costs. -/
  costPerSpin : α
  /-- The weight of the pace in the reward. -/
  likenessWeight : α
  /-- Whether the first bet leads to a probing phase. -/
  probeRound : Bool
  /-- Whether actions that do not fit the phase are rejected. -/
  rejectInvalid : Bool
  /-- Whether stakes above the announced maximum are rejected. -/
  enforceMaxBet : Bool
  /-- How many completed sessions are kept. -/
  retained : Nat
  deriving DecidableEq, Repr

namespace Settings

variable {α : Type} [Scalar α]

/-- The settings that are used where nothing else is said. -/
def standard : Settings α := ⟨10, 0.35, 500.0, 0.01, 0.3, false, false, false, 16⟩

/-- Settings in JSON.  Every field may be left out. -/
def codec : Codec α (Settings α) :=
  let d : Settings α := standard
  .record "struct MockConfig"
    (.cons (.standard "spins_per_session" .count64 d.spinsPerSession) <|
     .cons (.standard "win_probability" .scalar d.winProbability) <|
     .cons (.standard "starting_balance" .scalar d.startingBalance) <|
     .cons (.standard "cost_per_spin" .scalar d.costPerSpin) <|
     .cons (.standard "human_likeness_weight" .scalar d.likenessWeight) <|
     .cons (.standard "probe_round" .bool d.probeRound) <|
     .cons (.standard "reject_invalid_actions" .bool d.rejectInvalid) <|
     .cons (.standard "enforce_max_bet" .bool d.enforceMaxBet) <|
     .cons (.standard "retained_sessions" .size d.retained) .nil)
    (fun (spins, win, balance, cost, weight, probe, reject, enforce, retained, _) =>
      ⟨spins, win, balance, cost, weight, probe, reject, enforce, retained⟩)
    (fun s => (s.spinsPerSession, s.winProbability, s.startingBalance, s.costPerSpin,
      s.likenessWeight, s.probeRound, s.rejectInvalid, s.enforceMaxBet, s.retained, ()))

end Settings

end Punter.Simulation
