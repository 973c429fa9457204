/-
# Sources of random numbers

The agent draws numbers from the interval from 0 to 1, without 1.  Everything that draws is a
function of the source, and gives back the source from which the next number will come.
-/
import Punter.Number.Scalar

namespace Punter

/-- Something from which numbers can be drawn. -/
class RandomSource (ρ : Type) (α : Type) where
  /-- A number of the interval from 0 to 1, without 1. -/
  draw : ρ → α × ρ

namespace RandomSource

variable {ρ α : Type} [Scalar α] [RandomSource ρ α]

/-- A number between two bounds.  Nothing is drawn where there is no choice. -/
def uniform (low high : α) (r : ρ) : α × ρ :=
  if high ≤ low then (low, r)
  else
    let (x, r) := draw r
    (low + x * (high - low), r)

end RandomSource

/-- A list of numbers that is repeated without end. -/
structure Script (α : Type) where
  values : List α
  /-- How many numbers have been drawn. -/
  drawn : Nat

namespace Script

variable {α : Type} [Scalar α]

/-- The distance between 1 and the next larger double. -/
def epsilon : α := 1.0 / 4503599627370496.0

/-- The script of the given numbers, each moved into the interval from 0 to 1, without 1. -/
def ofList (xs : List α) : Script α := ⟨xs.map (Scalar.clamp 0.0 (1.0 - epsilon)), 0⟩

/-- The next number of a script.  An empty script gives zeros and does not count them. -/
def draw (s : Script α) : α × Script α :=
  match s.values[s.drawn % s.values.length]? with
  | some x => (x, { s with drawn := s.drawn + 1 })
  | none => (0.0, s)

instance : RandomSource (Script α) α := ⟨draw⟩

end Script

end Punter
