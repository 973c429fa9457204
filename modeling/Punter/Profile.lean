/-
# Profiles

A profile is the way in which the agent plays: the bounds of its stakes, their currency, and the
bounds of the pause between two actions.  A behavior is a named pair of such bounds.

`Profile.check` says whether a profile may be played with, and `Profile.withBehavior` changes the
behavior and takes over its bounds where the profile does not set bounds of its own.
-/
import Punter.Session

namespace Punter

/-- The behaviors announced to the service. -/
inductive Behavior where
  /-- Small stakes, long pauses. -/
  | conservative
  /-- Large stakes, short pauses. -/
  | aggressive
  /-- In between. -/
  | mixedAdaptive
  deriving DecidableEq, Repr

/-- Bounds of stakes, and of pauses in milliseconds. -/
structure Preset (α : Type) where
  minBet : α
  maxBet : α
  minDelay : Nat
  maxDelay : Nat
  deriving DecidableEq, Repr

namespace Behavior

/-- The name of a behavior. -/
def label : Behavior → String
  | conservative => "conservative"
  | aggressive => "aggressive"
  | mixedAdaptive => "mixed_adaptive"

/-- All behaviors under their names. -/
def all : List (String × Behavior) :=
  [conservative, aggressive, mixedAdaptive].map fun b => (b.label, b)

/-- Behaviors in JSON are their names. -/
def codec {α : Type} [Scalar α] : Codec α Behavior := .variants all none label

/-- The bounds that go with a behavior. -/
def preset {α : Type} [Scalar α] : Behavior → Preset α
  | conservative => ⟨0.5, 1.0, 3200, 4800⟩
  | aggressive => ⟨5.0, 15.0, 600, 1000⟩
  | mixedAdaptive => ⟨1.0, 10.0, 1600, 2800⟩

end Behavior

/-- The way in which the agent plays. -/
structure Profile (α : Type) where
  minBet : α
  maxBet : α
  currency : Currency
  /-- The shortest pause in milliseconds. -/
  minDelay : Nat
  /-- The longest pause in milliseconds. -/
  maxDelay : Nat
  /-- A weight that the user attaches to the shaping of rewards. -/
  rewardWeight : Option α
  behavior : Behavior
  deriving DecidableEq, Repr

namespace Profile

variable {α : Type}

/-- The lowest stake of any profile. -/
def floor [Scalar α] : α := 0.5

/-- The highest stake of any profile. -/
def ceiling [Scalar α] : α := 100.0

/-- The profile that is used where nothing else is said. -/
def standard [Scalar α] : Profile α :=
  let b : Behavior := .mixedAdaptive
  let preset : Preset α := b.preset
  ⟨preset.minBet, preset.maxBet, .aud, preset.minDelay, preset.maxDelay, none, b⟩

/-- Profiles in JSON.  Every field may be left out. -/
def codec [Scalar α] : Codec α (Profile α) :=
  let d : Profile α := standard
  .record "struct ProfileConfig"
    (.cons (.standard "min_bet" .scalar d.minBet) <|
     .cons (.standard "max_bet" .scalar d.maxBet) <|
     .cons (.standard "currency" Currency.codec d.currency) <|
     .cons (.standard "delay_ms_min" .count64 d.minDelay) <|
     .cons (.standard "delay_ms_max" .count64 d.maxDelay) <|
     .cons ((Field.optional "reward_weight" .scalar).whenSome.orAbsent none) <|
     .cons (.standard "behavior_type" Behavior.codec d.behavior) .nil)
    (fun (minBet, maxBet, currency, minDelay, maxDelay, rewardWeight, behavior, _) =>
      ⟨minBet, maxBet, currency, minDelay, maxDelay, rewardWeight, behavior⟩)
    (fun p => (p.minBet, p.maxBet, p.currency, p.minDelay, p.maxDelay, p.rewardWeight,
      p.behavior, ()))

/-! ## Which profiles may be played with -/

/-- What can be wrong with a profile. -/
inductive Flaw (α : Type) where
  | stakesNotFinite
  | belowFloor (minBet : α)
  | aboveCeiling (maxBet : α)
  | stakesCrossed (minBet maxBet : α)
  | delaysCrossed (minDelay maxDelay : Nat)
  | weightOutside (weight : α)
  deriving DecidableEq, Repr

/-- The wording of a flaw. -/
def Flaw.message [Scalar α] : Flaw α → String
  | stakesNotFinite => "stake bounds must be finite"
  | belowFloor x => "min_bet " ++ Scalar.text x ++ " is below the global floor " ++
      Scalar.text (floor : α)
  | aboveCeiling x => "max_bet " ++ Scalar.text x ++ " is above the global ceiling " ++
      Scalar.text (ceiling : α)
  | stakesCrossed x y => "min_bet " ++ Scalar.text x ++ " exceeds max_bet " ++ Scalar.text y
  | delaysCrossed x y => "delay_ms_min " ++ Number.numeral x ++ " exceeds delay_ms_max " ++
      Number.numeral y
  | weightOutside x => "reward_weight " ++ Scalar.text x ++ " must lie in [0, 1]"

/-- The first flaw of a profile, if it has one. -/
def flaw? [Scalar α] (p : Profile α) : Option (Flaw α) :=
  if !(Scalar.isFinite p.minBet && Scalar.isFinite p.maxBet) then some .stakesNotFinite
  else if ¬ floor ≤ p.minBet then some (.belowFloor p.minBet)
  else if ¬ p.maxBet ≤ ceiling then some (.aboveCeiling p.maxBet)
  else if ¬ p.minBet ≤ p.maxBet then some (.stakesCrossed p.minBet p.maxBet)
  else if p.maxDelay < p.minDelay then some (.delaysCrossed p.minDelay p.maxDelay)
  else match p.rewardWeight with
    | some w => if Scalar.within 0.0 1.0 w then none else some (.weightOutside w)
    | none => none

/-- Accepts the profiles without flaws. -/
def check [Scalar α] (p : Profile α) : Except (Flaw α) Unit :=
  match p.flaw? with
  | some f => .error f
  | none => .ok ()

/-! ## What a profile says -/

/-- The same profile with another behavior.  Bounds of stakes, and bounds of pauses, that are
the standard ones are replaced by those of the behavior. -/
def withBehavior [Scalar α] (p : Profile α) (b : Behavior) : Profile α :=
  let d : Profile α := standard
  let preset : Preset α := b.preset
  let p := { p with behavior := b }
  let p := if p.minBet == d.minBet && p.maxBet == d.maxBet then
      { p with minBet := preset.minBet, maxBet := preset.maxBet }
    else p
  if p.minDelay == d.minDelay && p.maxDelay == d.maxDelay then
    { p with minDelay := preset.minDelay, maxDelay := preset.maxDelay }
  else p

/-- The middle of the bounds of the pause in milliseconds: the pace that counts as human. -/
def midpoint [Scalar α] (p : Profile α) : α :=
  (Scalar.ofNat p.minDelay + Scalar.ofNat p.maxDelay) / 2.0

/-- The smallest stake of the profile. -/
def minStake (p : Profile α) : Money α := ⟨p.minBet, p.currency⟩

/-- What the service is told about the profile. -/
def player (p : Profile α) : Player α := ⟨p.behavior.label, some ⟨p.maxBet, p.currency⟩⟩

end Profile

end Punter
