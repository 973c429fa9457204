/-
# Trying again

A call that fails is tried again unless its failure is final or all retries are used up; before
each retry there is a pause.  Failures with a fatal code are final; failures without a code never
are.  What happens is noted down, with the numbers of the attempts.
-/
import Punter.Number.Counts
import Punter.Resilience.Backoff
import Punter.Service.Error

namespace Punter

/-- The codes whose failures are final. -/
structure Classifier where
  fatal : List ErrorCode
  deriving DecidableEq, Repr

namespace Classifier

/-- The fatal codes that are used where nothing else is said. -/
def standardCodes : List ErrorCode :=
  [.walletLimitExceeded, .invalidInput, .stateError, .notFound, .unauthorized]

/-- The classifier that is used where nothing else is said. -/
def standard : Classifier := ⟨standardCodes⟩

/-- Whether a failed call may be tried again. -/
def isRetryable (c : Classifier) (e : ServiceError) : Bool :=
  match e.code? with
  | some code => !c.fatal.contains code
  | none => true

/-- Whether a failure is final. -/
def isFatal (c : Classifier) (e : ServiceError) : Bool := !c.isRetryable e

end Classifier

/-- What is noted down about the attempts at a call. -/
inductive Notice where
  /-- An attempt succeeded after a number of retries. -/
  | recovered (retries : Nat)
  /-- An attempt failed for good. -/
  | final (e : ServiceError)
  /-- So many attempts have failed, and no retry is left. -/
  | exhausted (attempts : Nat) (e : ServiceError)
  /-- The attempt with a number, counted from one, failed; a pause follows, and then the next. -/
  | retrying (attempt : Nat) (delay : Duration) (e : ServiceError)
  deriving DecidableEq, Repr

/-- What is noted down when the attempt with a number, counted from zero, has succeeded: nothing if
it is the first one. -/
def Notice.ofSuccess (attempt : Nat) : Option Notice :=
  if attempt = 0 then none else some (.recovered attempt)

namespace Backoff

variable {W T : Type}

/-- Makes an attempt, and further ones while they are called for: while they fail in such a way
that another attempt may be made.  `left` is the number of retries that are left, `attempt` the
number of the attempt, counted from zero.  Whatever is computed from this number has 32 bits, the
number in the last notice included. -/
def attempts (b : Backoff) (retryable : ServiceError → Bool) (note : Notice → W → W)
    (pause : Duration → W → W) (op : W → Except ServiceError T × W) (left attempt : Nat) (w : W) :
    Except ServiceError T × W :=
  match op w with
  | (.ok v, w) => (.ok v, (Notice.ofSuccess attempt).elim w (note · w))
  | (.error e, w) =>
    if retryable e then
      match left with
      | 0 => (.error e, note (.exhausted (Number.next32 attempt) e) w)
      | left + 1 =>
        let delay := b.delay attempt
        attempts b retryable note pause op left (Number.next32 attempt)
          (pause delay (note (.retrying (Number.next32 attempt) delay e) w))
    else (.error e, note (.final e) w)

/-- Makes attempts until one succeeds, one fails for good, or no retry is left. -/
def run (b : Backoff) (retryable : ServiceError → Bool) (note : Notice → W → W)
    (pause : Duration → W → W) (op : W → Except ServiceError T × W) (w : W) :
    Except ServiceError T × W :=
  b.attempts retryable note pause op b.maxRetries 0 w

end Backoff

/-- The course of the delays, and which failures are final. -/
structure Retrier where
  backoff : Backoff
  classifier : Classifier
  deriving DecidableEq, Repr

namespace Retrier

/-- The retrier that is used where nothing else is said. -/
def standard : Retrier := ⟨.standard, .standard⟩

variable {W T : Type}

/-- Makes attempts until one succeeds, one fails with a fatal code, or no retry is left. -/
def run (r : Retrier) (note : Notice → W → W) (pause : Duration → W → W)
    (op : W → Except ServiceError T × W) (w : W) : Except ServiceError T × W :=
  r.backoff.run r.classifier.isRetryable note pause op w

end Retrier

end Punter
