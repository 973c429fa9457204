/-
# Pacing

Between deciding and acting the agent pauses.  A pacer says for each pause how long it takes and
which length it reports; the report is what the pace is scored by.
-/
import Punter.Service.World
import Punter.Profile

namespace Punter

/-- How a pause went. -/
structure Pause where
  /-- How long it took. -/
  elapsed : Duration
  /-- How long it is reported to have taken. -/
  reported : Duration
  deriving DecidableEq, Repr

/-- A way of making pauses.  It may depend on the rank of the pause and on its target. -/
structure Pacer where
  pause : (rank : Nat) → (target : Duration) → Pause

namespace Pacer

/-- Takes no time and reports the target. -/
def instant : Pacer := ⟨fun _ target => ⟨.zero, target⟩⟩

/-- Takes exactly the time it is meant to take. -/
def punctual : Pacer := ⟨fun _ target => ⟨target, target⟩⟩

/-- Takes no time and reports a fixed one. -/
def fixed (d : Duration) : Pacer := ⟨fun _ _ => ⟨.zero, d⟩⟩

/-- Makes a pause, and gives its reported length. -/
def wait {σ α : Type} (p : Pacer) (target : Duration) (w : World σ α) : Duration × World σ α :=
  let pause := p.pause w.pauses target
  (pause.reported, { w.sleep pause.elapsed with pauses := w.pauses + 1 })

end Pacer

namespace Profile

variable {α : Type} [Scalar α]

/-- The score of any pace where the profile has none. -/
def neutralLikeness : α := 0.5

/-- The score of a pause: one in the middle of the bounds of the profile, falling to zero at
twice the middle and at no pause at all. -/
def likeness (p : Profile α) (millis : α) : α :=
  let middle := p.midpoint
  if middle == 0.0 then neutralLikeness
  else Scalar.clamp 0.0 1.0 (1.0 - Scalar.abs (millis - middle) / middle)

end Profile

end Punter
