/-
# Chances

What a game of chance asks of its source of randomness: whether something happens that has a
given probability, and one of a number of equal cases.
-/
import Punter.Number.Scalar

namespace Punter

/-- Something that decides chances. -/
class Chance (γ : Type) (α : Type) where
  /-- Whether something of the given probability happens. -/
  happens : α → γ → Bool × γ
  /-- One of `n` cases. -/
  pick : (n : Nat) → 0 < n → γ → Fin n × γ

end Punter
