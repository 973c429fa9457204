/-
# Backoff

How often a failed call is tried again, and how long to wait before each new attempt: a base
delay that doubles from attempt to attempt, up to a cap.
-/
import Punter.Json.Codec
import Punter.Time.Duration

namespace Punter

/-- The number of retries and the course of the delays. -/
structure Backoff where
  /-- How many attempts may follow the first one. -/
  maxRetries : Nat
  /-- The delay before the first retry. -/
  base : Duration
  /-- The longest delay. -/
  cap : Duration
  deriving DecidableEq, Repr

namespace Backoff

/-- The backoff that is used where nothing else is said. -/
def standard : Backoff := ⟨3, .ofMillis 200, .ofMillis 5000⟩

/-- The delay before the retry that follows the attempt with a number, counted from zero.  The
power of two has to fit into 32 bits and the product has to be a duration; beyond that the delay
is the cap. -/
def delay (b : Backoff) (attempt : Nat) : Duration :=
  let product := if attempt < 32 then b.base.scale? (2 ^ attempt) else none
  Duration.min (product.getD b.cap) b.cap

/-- The fields of a backoff.  Each may be left out. -/
def fields {α : Type} [Scalar α] :
    Fields α (Nat × Duration × Duration × Unit)
      (Option Nat × Option Duration × Option Duration × Unit) :=
  .cons (.standard "max_retries" .count32 standard.maxRetries) <|
  .cons (.standard "base_delay" Duration.millisCodec standard.base) <|
  .cons (.standard "cap_delay" Duration.millisCodec standard.cap) .nil

/-- The backoff with the given values. -/
def ofValues : Nat × Duration × Duration × Unit → Backoff
  | (maxRetries, base, cap, _) => ⟨maxRetries, base, cap⟩

/-- The values of a backoff. -/
def values (b : Backoff) : Nat × Duration × Duration × Unit := (b.maxRetries, b.base, b.cap, ())

/-- Backoffs in JSON. -/
def codec {α : Type} [Scalar α] : Codec α Backoff :=
  .record "struct RetryPolicy" fields ofValues values

end Backoff

end Punter
