/-
# Durations

Durations are counted in nanoseconds and are shorter than `2 ^ 64` seconds.
-/
import Punter.Json.Codec

namespace Punter

/-- A length of time. -/
structure Duration where
  nanos : Nat
  deriving DecidableEq, Repr

namespace Duration

/-- The nanoseconds of a millisecond. -/
def nanosPerMilli : Nat := 1000000

/-- The nanoseconds of a second. -/
def nanosPerSecond : Nat := 1000000000

/-- No time at all. -/
def zero : Duration := ⟨0⟩

/-- A number of milliseconds. -/
def ofMillis (ms : Nat) : Duration := ⟨ms * nanosPerMilli⟩

/-- A number of seconds. -/
def ofSeconds (s : Nat) : Duration := ⟨s * nanosPerSecond⟩

/-- The whole milliseconds of a duration. -/
def millis (d : Duration) : Nat := d.nanos / nanosPerMilli

/-- The duration times `k`, if it is not too long. -/
def scale? (d : Duration) (k : Nat) : Option Duration :=
  if d.nanos * k < UInt64.size * nanosPerSecond then some ⟨d.nanos * k⟩ else none

/-- The shorter of two durations. -/
def min (a b : Duration) : Duration := if b.nanos < a.nanos then b else a

/-- The sum of two durations. -/
def add (a b : Duration) : Duration := ⟨a.nanos + b.nanos⟩

/-- A duration in seconds: its whole seconds and its nanoseconds are converted on their own. -/
def toSeconds {α : Type} [Scalar α] (d : Duration) : α :=
  Scalar.ofNat (d.nanos / nanosPerSecond) +
    Scalar.ofNat (d.nanos % nanosPerSecond) / 1000000000.0

/-- A duration in milliseconds. -/
def toMillis {α : Type} [Scalar α] (d : Duration) : α := d.toSeconds * 1000.0

/-- Durations in JSON are whole milliseconds. -/
def millisCodec {α : Type} [Scalar α] : Codec α Duration where
  read r o := (Codec.count64.read r o).map ofMillis
  write d := .ofNat (d.millis % UInt64.size)

end Duration

end Punter
