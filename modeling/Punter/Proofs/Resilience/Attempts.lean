/-
# Attempts one by one

Each attempt of a call either settles it or leads to the next attempt after a pause.  The lemmas
of this file are the possible courses of one attempt, and what one attempt and one pause do to the
world; the loop of `Backoff.attempts` is not opened anywhere else.
-/
import Mathlib
import Punter.Resilience.Retry
import Punter.Service.World

namespace Punter

variable {W T : Type} {note : Notice → W → W} {pause : Duration → W → W}
  {op : W → Except ServiceError T × W} {left attempt : Nat} {w w' : W}

namespace Backoff

variable {b : Backoff} {retryable : ServiceError → Bool}

lemma attempts_of_ok {v : T} (h : op w = (.ok v, w')) :
    b.attempts retryable note pause op left attempt w =
      (.ok v, (Notice.ofSuccess attempt).elim w' (note · w')) := by
  cases left <;> simp only [attempts, h]

lemma attempts_of_final {e : ServiceError} (h : op w = (.error e, w'))
    (he : retryable e = false) :
    b.attempts retryable note pause op left attempt w = (.error e, note (.final e) w') := by
  cases left <;> simp [attempts, h, he]

/-- No retry is left. -/
lemma attempts_zero {e : ServiceError} (h : op w = (.error e, w')) (he : retryable e = true) :
    b.attempts retryable note pause op 0 attempt w =
      (.error e, note (.exhausted (Number.next32 attempt) e) w') := by
  simp [attempts, h, he]

lemma attempts_succ {e : ServiceError} (h : op w = (.error e, w')) (he : retryable e = true) :
    b.attempts retryable note pause op (left + 1) attempt w =
      b.attempts retryable note pause op left (Number.next32 attempt) (pause (b.delay attempt)
        (note (.retrying (Number.next32 attempt) (b.delay attempt) e) w')) := by
  rw [attempts]
  simp only [h, he, if_true]

end Backoff

namespace Retrier

variable {r : Retrier}

/-- The attempts of a retrier, which end with the failures that its classifier takes for final.
Notices are dropped. -/
def attempts (r : Retrier) (pause : Duration → W → W) (op : W → Except ServiceError T × W)
    (left attempt : Nat) (w : W) : Except ServiceError T × W :=
  r.backoff.attempts r.classifier.isRetryable (fun _ w => w) pause op left attempt w

lemma attempts_of_ok {v : T} (h : op w = (.ok v, w')) :
    r.attempts pause op left attempt w = (.ok v, w') := by
  rw [attempts, Backoff.attempts_of_ok h]
  cases Notice.ofSuccess attempt <;> rfl

lemma attempts_of_final {e : ServiceError} (h : op w = (.error e, w'))
    (he : r.classifier.isRetryable e = false) :
    r.attempts pause op left attempt w = (.error e, w') :=
  Backoff.attempts_of_final h he

/-- No retry is left. -/
lemma attempts_zero {e : ServiceError} (h : op w = (.error e, w')) :
    r.attempts pause op 0 attempt w = (.error e, w') := by
  cases he : r.classifier.isRetryable e with
  | true => exact Backoff.attempts_zero h he
  | false => exact Backoff.attempts_of_final h he

lemma attempts_succ {e : ServiceError} (h : op w = (.error e, w'))
    (he : r.classifier.isRetryable e = true) :
    r.attempts pause op (left + 1) attempt w =
      r.attempts pause op left (Number.next32 attempt) (pause (r.backoff.delay attempt) w') :=
  Backoff.attempts_succ h he

end Retrier

namespace World

variable {σ α : Type}

/-- The world after an exchange that left the service in the state `s`. -/
def exchanged (w : World σ α) (x : Exchange α) (s : σ) : World σ α :=
  { w with service := s, log := x :: w.log }

lemma ask_of_answer [Service σ α] {c : Call α} {w : World σ α} {o : Except ServiceError c.Answer}
    {s : σ} (h : Service.answer c w.clock w.service = (o, s)) :
    w.ask c = (o, w.exchanged ⟨w.clock, c, o⟩ s) := by
  simp only [ask, h, exchanged]

@[simp] lemma service_exchanged (w : World σ α) (x : Exchange α) (s : σ) :
    (w.exchanged x s).service = s := rfl

@[simp] lemma history_exchanged (w : World σ α) (x : Exchange α) (s : σ) :
    (w.exchanged x s).history = w.history ++ [x] :=
  List.reverse_cons

@[simp] lemma history_sleep (w : World σ α) (d : Duration) : (w.sleep d).history = w.history := rfl

end World

end Punter
