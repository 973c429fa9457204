/-
# Statistics of rewards

Mean, sum and sample variance of a list of rewards, and the length of an episode.
-/
import Punter.Number.Scalar

namespace Punter.Rewards

variable {α : Type} [Scalar α]

/-- The sum of rewards. -/
def total (xs : List α) : α := Scalar.sum xs

/-- The mean of rewards.  The mean of none is zero. -/
def mean (xs : List α) : α :=
  if xs.isEmpty then 0.0 else Scalar.sum xs / Scalar.ofNat xs.length

/-- The last `n` items of a list. -/
def last {T : Type} (n : Nat) (xs : List T) : List T := xs.drop (xs.length - n)

/-- The rewards that a window looks at: the last ones, or all. -/
def window (w : Option Nat) (xs : List α) : List α :=
  match w with
  | some n => last n xs
  | none => xs

/-- The square of the distance of `x` from `m`. -/
def squareFrom (m x : α) : α := (x - m) * (x - m)

/-- The sample variance of the rewards in a window.  Fewer than two rewards have none. -/
def variance (w : Option Nat) (xs : List α) : α :=
  let xs := window w xs
  if xs.length < 2 then 0.0
  else Scalar.sum (xs.map (squareFrom (mean xs))) / (Scalar.ofNat xs.length - 1.0)

/-- How many steps an episode has: those up to the first that ends it, or all of them. -/
def episodeLength : List Bool → Nat
  | [] => 0
  | ended :: rest => if ended then 1 else episodeLength rest + 1

end Punter.Rewards
