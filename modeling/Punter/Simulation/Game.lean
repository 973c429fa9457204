/-
# The simulated game

A simulated session passes through these phases:

    initialized --bet--> playing (or probing, with a probe round)
    probing     --bet--> playing
    playing     --spin--> evaluating, or completed when spins or wallet are used up
    evaluating  --bet--> playing
    evaluating  --cash out--> completed

Any other action is rejected, or accepted without effect, as the settings say.  Only a spin that
is accepted asks the source of chances.
-/
import Punter.Action
import Punter.Experience.Basic
import Punter.Random.Chance
import Punter.Service.Error
import Punter.Simulation.Settings

namespace Punter.Simulation

/-- A session of the simulated game. -/
structure Game (α : Type) where
  game : GameId
  phase : Phase
  counters : Counters α
  balance : α
  /-- The largest stake that the player announced. -/
  maxBet : Option α
  /-- The stake of the next spin. -/
  pending : Option (Money α)
  deriving DecidableEq

namespace Game

variable {γ α : Type} [Scalar α] [Chance γ α]

/-- A session that has just been opened. -/
def new (settings : Settings α) (game : GameId) (player : Player α) : Game α :=
  ⟨game, .initialized, .zero, settings.startingBalance, player.maxBet.map (·.amount), none⟩

/-- What experiences say about a session. -/
def snapshot (g : Game α) : Json α :=
  .obj [("balance", .ofScalar g.balance), ("state", .str g.phase.label),
    ("totalPayout", .ofScalar g.counters.totalPayout),
    ("totalSpins", .ofNat g.counters.totalSpins)]

/-- What the service reports about a session. -/
def observation (g : Game α) (result : Option (PlayResult α)) : Observation α :=
  ⟨g.phase, result, g.counters⟩

end Game

/-- What an accepted action did. -/
structure Turn (α : Type) where
  after : Game α
  result : PlayResult α
  /-- What was staked on the spin, if it was one. -/
  stake : α
  payout : α

/-- The symbols on the reels. -/
def symbols : Vector String 5 := #v["cherry", "lemon", "bell", "bar", "seven"]

/-- By how much a stake can be multiplied. -/
def multipliers {α : Type} [Scalar α] : Vector α 3 := #v[1.5, 2.0, 5.0]

/-- What a spin shows and by how much it multiplies the stake. -/
structure Spin (α : Type) where
  symbols : List String
  /-- The multiple of the stake that is paid; nothing where the spin does not win. -/
  multiplier : Option α

namespace Spin

variable {γ α : Type} [Scalar α] [Chance γ α]

/-- One of the symbols. -/
def symbol (α : Type) [Chance γ α] (c : γ) : String × γ :=
  let (i, c) := Chance.pick α 5 (by decide) c
  (Simulation.symbols[i], c)

/-- A spin that wins with the given probability. -/
def draw (probability : α) (c : γ) : Spin α × γ :=
  let (won, c) := Chance.happens (Scalar.clamp 0.0 1.0 probability) c
  if won then
    let (s, c) := symbol α c
    let (i, c) := Chance.pick α 3 (by decide) c
    (⟨[s, s, s], some multipliers[i]⟩, c)
  else
    let (s₁, c) := symbol α c
    let (s₂, c) := symbol α c
    let (s₃, c) := symbol α c
    (⟨[s₁, s₂, s₃], none⟩, c)

/-- What is paid for a stake. -/
def payout (s : Spin α) (stake : α) : α :=
  match s.multiplier with
  | some k => stake * k
  | none => 0.0

end Spin

namespace Game

variable {γ α : Type} [Scalar α] [Chance γ α]

/-- Rejects an action. -/
def reject {T : Type} (code : ErrorCode) (reason : String) : Except ServiceError T :=
  .error (.rejected code none reason)

/-- The stake of a bet, if it is allowed. -/
def stakeOf (settings : Settings α) (g : Game α) (amount : Option (Money α)) :
    Except ServiceError (Money α) :=
  match amount with
  | none => reject .invalidInput "PlaceBet requires an amount"
  | some m =>
    if !Scalar.isFinite m.amount || decide (m.amount ≤ 0.0) then
      reject .invalidInput ("stake must be positive, got " ++ Scalar.text m.amount)
    else match g.maxBet, settings.enforceMaxBet with
      | some most, true =>
        if most < m.amount then
          reject .walletLimitExceeded
            ("stake " ++ Scalar.text m.amount ++ " exceeds max bet " ++ Scalar.text most)
        else withinBalance m
      | _, _ => withinBalance m
where
  /-- The stake, if the wallet holds it. -/
  withinBalance (m : Money α) : Except ServiceError (Money α) :=
    if g.balance < m.amount then
      reject .walletLimitExceeded
        ("stake " ++ Scalar.text m.amount ++ " exceeds balance " ++ Scalar.text g.balance)
    else .ok m

/-- The turn of an action without effect. -/
def idle (g : Game α) : Turn α := ⟨g, .empty, 0.0, 0.0⟩

/-- The turn of a bet. -/
def bet (settings : Settings α) (g : Game α) (stake : Money α) : Turn α :=
  let phase := if g.phase = .initialized ∧ settings.probeRound then Phase.probing else .playing
  idle { g with pending := some stake, phase := phase }

/-- The turn of a spin. -/
def spin (settings : Settings α) (g : Game α) (stake : Money α) (s : Spin α) : Turn α :=
  let payout := s.payout stake.amount
  let balance := g.balance + (payout - stake.amount)
  let counters : Counters α := ⟨g.counters.totalSpins + 1, g.counters.totalPayout + payout⟩
  let ended := decide (settings.spinsPerSession ≤ counters.totalSpins) || decide (balance ≤ 0.0)
  { after := { g with
      pending := none
      balance := balance
      counters := counters
      phase := if ended then .completed else .evaluating }
    result := ⟨some ⟨payout, stake.currency⟩, s.symbols⟩
    stake := stake.amount
    payout := payout }

/-- What to do with an action that does not fit the phase. -/
def misfit (settings : Settings α) (g : Game α) (kind : ActionKind) :
    Except ServiceError (Turn α) :=
  if settings.rejectInvalid then
    reject .stateError (kind.label ++ " is not allowed in state " ++ g.phase.label)
  else .ok (idle g)

/-! ## Playing

A session is changed where it stands.  It therefore comes with the answer also where an action is
refused, and so does the source of chances. -/

/-- Places a bet. -/
def placeBet (settings : Settings α) (g : Game α) (amount : Option (Money α)) (c : γ) :
    Except ServiceError (Turn α) × Game α × γ :=
  match stakeOf settings g amount with
  | .error e => (.error e, g, c)
  | .ok stake =>
    let t := bet settings g stake
    (.ok t, t.after, c)

/-- Spins the reels.  The stake is taken before it is seen whether there is one. -/
def spinReels (settings : Settings α) (g : Game α) (c : γ) :
    Except ServiceError (Turn α) × Game α × γ :=
  let pending := g.pending
  let g := { g with pending := none }
  match pending with
  | none => (reject .stateError "no stake placed before spin", g, c)
  | some stake =>
    let (s, c) := Spin.draw settings.winProbability c
    let t := spin settings g stake s
    (.ok t, t.after, c)

/-- Plays an action. -/
def play (settings : Settings α) (g : Game α) (action : Action α) (c : γ) :
    Except ServiceError (Turn α) × Game α × γ :=
  match g.phase, action.kind with
  | .initialized, .placeBet => placeBet settings g action.amount c
  | .probing, .placeBet => placeBet settings g action.amount c
  | .evaluating, .placeBet => placeBet settings g action.amount c
  | .playing, .spin => spinReels settings g c
  | .evaluating, .cashOut =>
    let g := { g with phase := .completed }
    (.ok (idle g), g, c)
  | _, kind => (misfit settings g kind, g, c)

end Game

/-- The reward of a turn: what was won, less what it cost, and more for a human pace. -/
def Turn.reward {α : Type} [Scalar α] (settings : Settings α) (t : Turn α) (likeness : α) : α :=
  (t.payout - t.stake) - settings.costPerSpin +
    Scalar.clamp 0.0 1.0 likeness * settings.likenessWeight

end Punter.Simulation
