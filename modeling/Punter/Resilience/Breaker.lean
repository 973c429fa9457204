/-
# The circuit breaker

A breaker counts the failures since the last success and is open when their number has reached
a threshold.
-/
import Punter.Json.Codec

namespace Punter

/-- A count of failures and the threshold at which the breaker opens. -/
structure Breaker where
  failures : Nat
  threshold : Nat
  deriving DecidableEq, Repr

namespace Breaker

/-- The largest number of failures that is counted. -/
def maxFailures : Nat := UInt32.size - 1

/-- A closed breaker.  The threshold is at least one. -/
def new (threshold : Nat) : Breaker := ⟨0, max threshold 1⟩

/-- The breaker after a success. -/
def succeed (b : Breaker) : Breaker := { b with failures := 0 }

/-- The breaker after a failure. -/
def fail (b : Breaker) : Breaker := { b with failures := min (b.failures + 1) maxFailures }

/-- Whether the breaker is open. -/
def isOpen (b : Breaker) : Bool := b.threshold ≤ b.failures

/-- Breakers in JSON. -/
def codec {α : Type} [Scalar α] : Codec α Breaker :=
  .record "struct CircuitBreaker"
    (.cons (.required "failure_count" .count32) <|
     .cons (.required "threshold" .count32) .nil)
    (fun (failures, threshold, _) => ⟨failures, threshold⟩)
    (fun b => (b.failures, b.threshold, ()))

end Breaker

end Punter
