/-
# Adaptation of stakes

After an episode the stakes of a profile follow the rewards: they grow with a positive mean of
the latest rewards and shrink with a negative one, by a bounded factor, and stay between the
lowest and the highest stake of any profile.
-/
import Punter.Profile
import Punter.Experience.Statistics

namespace Punter.Profile

variable {α : Type} [Scalar α]

/-- How many rewards are looked at where nothing else is said. -/
def standardWindow : Nat := 20

/-- The largest factor by which stakes grow at once. -/
def maxFactor : α := 1.15

/-- The smallest factor by which stakes shrink at once. -/
def minFactor : α := 0.85

/-- How much the factor follows the mean reward. -/
def sensitivity : α := 0.05

/-- The factor for a mean reward. -/
def scaleFactor (mean : α) : α :=
  if !Scalar.isFinite mean then 1.0
  else
    let raw := 1.0 + mean * sensitivity
    if 0.0 < mean then Scalar.atMost maxFactor raw else Scalar.atLeast minFactor raw

/-- A stake scaled by a factor, in whole hundredths. -/
def scaleBet (factor bet : α) : α :=
  Scalar.clamp floor ceiling (Scalar.round2 (bet * factor))

/-- The profile after an episode with the given rewards.  Nothing changes while there are fewer
rewards than the window wants. -/
def adapt (p : Profile α) (rewards : List α) (window : Nat) : Profile α :=
  if window = 0 ∨ rewards.length < window then p
  else
    let factor := scaleFactor (Rewards.mean (Rewards.last window rewards))
    { p with minBet := scaleBet factor p.minBet, maxBet := scaleBet factor p.maxBet }

end Punter.Profile
