/-
# The attempt that settles

An operation is attempted again and again until an attempt settles it: one that succeeds, one that
fails for good, or the last one for which there is a retry.  Which attempt this is can be told from
the outcomes alone, and there always is one.  `Backoff.attempts_of_settles` and
`Backoff.attempts_of_not_settles` say what a single attempt does when it settles and when it does
not; from the second the loop is unrolled up to the first attempt that settles.

How often the operation was made, and when, is read off `Trials`, in which an operation with given
outcomes does nothing but leave a trace.
-/
import Mathlib
import Punter.Proofs.Resilience.Attempts
import Punter.Proofs.Resilience.Delays

namespace Punter

/-- The trace of the attempts at an operation. -/
structure Trials where
  clock : Duration
  /-- The times at which attempts were made. -/
  made : List Duration
  /-- The pauses between them. -/
  pauses : List Duration
  /-- What was noted down about them. -/
  notices : List Notice
  deriving DecidableEq, Repr

namespace Trials

/-- No attempt has been made. -/
def start (now : Duration) : Trials := ⟨now, [], [], []⟩

/-- An attempt at an operation that takes no time and has the given outcomes, one after the
other. -/
def attempt {T : Type} (outcomes : ℕ → Except ServiceError T) (t : Trials) :
    Except ServiceError T × Trials :=
  (outcomes t.made.length, { t with made := t.made ++ [t.clock] })

/-- A pause. -/
def pause (d : Duration) (t : Trials) : Trials :=
  { t with clock := t.clock.add d, pauses := t.pauses ++ [d] }

/-- A notice. -/
def note (n : Notice) (t : Trials) : Trials := { t with notices := t.notices ++ [n] }

lemma elim_note (n : Option Notice) (t : Trials) :
    n.elim t (note · t) = { t with notices := t.notices ++ n.toList } := by
  cases n with
  | none => rw [Option.toList_none, List.append_nil, Option.elim_none]
  | some n => rfl

end Trials

namespace Backoff

variable {W T : Type}

/-- Whether no attempt is made after one with its number and its outcome. -/
def Settles (b : Backoff) (retryable : ServiceError → Bool) (outcomes : ℕ → Except ServiceError T)
    (k : ℕ) : Prop :=
  (∃ v, outcomes k = .ok v) ∨ (∃ e, outcomes k = .error e ∧ retryable e = false) ∨
    k = b.maxRetries

/-- The notice that another attempt follows the one with a number and an outcome. -/
def goingOn (b : Backoff) (k : ℕ) : Except ServiceError T → Option Notice
  | .ok _ => none
  | .error e => some (.retrying (Number.next32 k) (b.delay k) e)

/-- The notice that the attempt with a number and an outcome was the last one. -/
def settled (retryable : ServiceError → Bool) (k : ℕ) : Except ServiceError T → Option Notice
  | .ok _ => Notice.ofSuccess k
  | .error e => some (if retryable e then .exhausted (Number.next32 k) e else .final e)

/-- The world in which the attempt with a number is made, after the attempts before it, a notice
and a pause after each of these. -/
def before (b : Backoff) (note : Notice → W → W) (pause : Duration → W → W)
    (op : W → Except ServiceError T × W) (w : W) : ℕ → W
  | 0 => w
  | k + 1 =>
    let (outcome, w) := op (before b note pause op w k)
    pause (b.delay k) ((b.goingOn k outcome).elim w (note · w))

/-- The time of the attempt with a number if attempts take no time. -/
def timeOf (b : Backoff) (now : Duration) (k : ℕ) : Duration :=
  ⟨now.nanos + ∑ i ∈ Finset.range k, (b.delay i).nanos⟩

variable {b : Backoff} {retryable : ServiceError → Bool} {note : Notice → W → W}
  {pause : Duration → W → W} {op : W → Except ServiceError T × W} {w w' : W}
  {outcomes : ℕ → Except ServiceError T} {k m : ℕ}

/-! ## The first attempt that settles -/

lemma exists_isLeast_settles (b : Backoff) (retryable : ServiceError → Bool)
    (outcomes : ℕ → Except ServiceError T) :
    ∃ m, IsLeast {k | b.Settles retryable outcomes k} m := by
  classical
  have h : ∃ k, b.Settles retryable outcomes k := ⟨b.maxRetries, .inr (.inr rfl)⟩
  exact ⟨Nat.find h, Nat.find_spec h, fun _ hk => Nat.find_min' h hk⟩

lemma le_maxRetries (hm : IsLeast {k | b.Settles retryable outcomes k} m) : m ≤ b.maxRetries :=
  hm.2 (.inr (.inr rfl))

/-- What does not settle is a failure after which another attempt may be made, and a retry is left
for it. -/
lemma exists_of_not_settles (hk : ¬ b.Settles retryable outcomes k) :
    k ≠ b.maxRetries ∧ ∃ e, outcomes k = .error e ∧ retryable e = true := by
  unfold Settles at hk
  push Not at hk
  obtain ⟨hsuccess, hfinal, hspent⟩ := hk
  cases houtcome : outcomes k with
  | ok v => exact absurd houtcome (hsuccess v)
  | error e => exact ⟨hspent, e, rfl, Bool.eq_true_of_not_eq_false (hfinal e houtcome)⟩

/-! ## The loop, unrolled -/

/-- An attempt that settles is the last one. -/
lemma attempts_of_settles (hk : b.Settles retryable outcomes k) (hop : op w = (outcomes k, w')) :
    b.attempts retryable note pause op (b.maxRetries - k) k w =
      (outcomes k, (settled retryable k (outcomes k)).elim w' (note · w')) := by
  cases houtcome : outcomes k with
  | ok v =>
    rw [houtcome] at hop
    exact attempts_of_ok hop
  | error e =>
    rw [houtcome] at hop
    cases he : retryable e with
    | false =>
      rw [attempts_of_final hop he]
      simp [settled, he]
    | true =>
      have hspent : k = b.maxRetries := by
        rcases hk with ⟨v, hv⟩ | ⟨e', he', hfinal⟩ | hspent
        · cases houtcome.symm.trans hv
        · obtain rfl := Except.error.inj (houtcome.symm.trans he')
          cases he.symm.trans hfinal
        · exact hspent
      rw [← hspent, Nat.sub_self, attempts_zero hop he]
      simp [settled, he]

/-- After an attempt that does not settle there is a pause, and then the next one. -/
lemma attempts_of_not_settles (hretries : b.maxRetries < UInt32.size) (hle : k ≤ b.maxRetries)
    (hk : ¬ b.Settles retryable outcomes k) (hop : op w = (outcomes k, w')) :
    b.attempts retryable note pause op (b.maxRetries - k) k w =
      b.attempts retryable note pause op (b.maxRetries - (k + 1)) (k + 1)
        (pause (b.delay k) ((b.goingOn k (outcomes k)).elim w' (note · w'))) := by
  obtain ⟨hspent, e, he, hretryable⟩ := exists_of_not_settles hk
  rw [he] at hop ⊢
  have hleft : b.maxRetries - k = b.maxRetries - (k + 1) + 1 := by omega
  have hnext : Number.next32 k = k + 1 := Number.next32_of_lt (by omega)
  rw [hleft, attempts_succ hop hretryable, goingOn, Option.elim_some, hnext]

/-- The run passes through all attempts up to the first one that settles; on the way the number of
the attempt and the number of retries that are left add up to the number of all retries. -/
lemma run_eq_attempts (hretries : b.maxRetries < UInt32.size)
    (hm : IsLeast {k | b.Settles retryable outcomes k} m)
    (hop : ∀ k ≤ m, (op (b.before note pause op w k)).1 = outcomes k) (hk : k ≤ m) :
    b.run retryable note pause op w =
      b.attempts retryable note pause op (b.maxRetries - k) k (b.before note pause op w k) := by
  induction k with
  | zero => rfl
  | succ k ih =>
    have hunsettled : ¬ b.Settles retryable outcomes k := fun h => absurd (hm.2 h) (by omega)
    have hle : k ≤ b.maxRetries := (Nat.le_of_succ_le hk).trans (le_maxRetries hm)
    have hattempt := hop k (by omega)
    rw [ih (by omega), attempts_of_not_settles hretries hle hunsettled (Prod.ext hattempt rfl),
      ← hattempt, before]

lemma run_eq_of_isLeast (hretries : b.maxRetries < UInt32.size)
    (hm : IsLeast {k | b.Settles retryable outcomes k} m)
    (hop : ∀ k ≤ m, (op (b.before note pause op w k)).1 = outcomes k) :
    b.run retryable note pause op w =
      (outcomes m, (settled retryable m (outcomes m)).elim (op (b.before note pause op w m)).2
        (note · (op (b.before note pause op w m)).2)) := by
  rw [run_eq_attempts hretries hm hop le_rfl,
    attempts_of_settles hm.1 (Prod.ext (hop m le_rfl) rfl)]

/-! ## Times -/

lemma timeOf_succ (b : Backoff) (now : Duration) (k : ℕ) :
    b.timeOf now (k + 1) = (b.timeOf now k).add (b.delay k) := by
  rw [timeOf, Finset.sum_range_succ, ← Nat.add_assoc]
  rfl

/-- What the trace shows before an attempt. -/
lemma before_trials (b : Backoff) (outcomes : ℕ → Except ServiceError T) (now : Duration) (k : ℕ) :
    b.before Trials.note Trials.pause (Trials.attempt outcomes) (.start now) k =
      ⟨b.timeOf now k, (List.range k).map (b.timeOf now), (List.range k).map b.delay,
        (List.range k).flatMap fun i => (b.goingOn i (outcomes i)).toList⟩ := by
  induction k with
  | zero => rfl
  | succ k ih =>
    rw [before, ih]
    simp only [Trials.attempt, Trials.elim_note, Trials.pause, timeOf_succ, List.range_succ,
      List.map_append, List.map_cons, List.map_nil, List.length_map, List.length_range,
      List.flatMap_append, List.flatMap_singleton]

/-- What the trace shows in the end. -/
lemma run_trials (hretries : b.maxRetries < UInt32.size)
    (hm : IsLeast {k | b.Settles retryable outcomes k} m) (now : Duration) :
    b.run retryable Trials.note Trials.pause (Trials.attempt outcomes) (.start now) =
      (outcomes m, ⟨b.timeOf now m, (List.range (m + 1)).map (b.timeOf now),
        (List.range m).map b.delay, ((List.range m).flatMap fun k =>
          (b.goingOn k (outcomes k)).toList) ++ (settled retryable m (outcomes m)).toList⟩) := by
  have hop : ∀ k ≤ m, (Trials.attempt outcomes
      (b.before Trials.note Trials.pause (Trials.attempt outcomes) (.start now) k)).1 =
        outcomes k := by
    intro k _
    rw [before_trials, Trials.attempt, List.length_map, List.length_range]
  rw [run_eq_of_isLeast hretries hm hop, before_trials, Trials.elim_note, Trials.attempt,
    List.range_succ, List.map_append, List.map_cons, List.map_nil]

/-- **Retries.**  Whatever would come of the attempts at an operation, they end with the first one
that succeeds, that fails for good, or after which no retry is left, and its outcome is that of the
run.  Up to then each attempt is followed by a pause and the next attempt; the number of the attempt,
which is the only count that goes up, stays within the number of retries and so within 32 bits.  If
the operation takes no time, an attempt is made when the pauses before it are over, of which none is
shorter than the one before and none longer than the cap; and the notices tell all this.  One number
is computed that may not fit: if the largest number of retries was of no use, the last notice gives
the number of attempts as zero.  It is a notice and nothing else: the outcome of that run is the
last failure, as of any other. -/
theorem run_settles (b : Backoff) (hretries : b.maxRetries < UInt32.size)
    (retryable : ServiceError → Bool) (outcomes : ℕ → Except ServiceError T) :
    ∃ m, IsLeast {k | b.Settles retryable outcomes k} m ∧
      (∀ {W : Type} (note : Notice → W → W) (pause : Duration → W → W)
          (op : W → Except ServiceError T × W) (w : W),
        (∀ k ≤ m, (op (b.before note pause op w k)).1 = outcomes k) →
          b.run retryable note pause op w =
            (outcomes m, (settled retryable m (outcomes m)).elim
              (op (b.before note pause op w m)).2
              (note · (op (b.before note pause op w m)).2)) ∧
          ∀ k ≤ m, b.run retryable note pause op w =
            b.attempts retryable note pause op (b.maxRetries - k) k
              (b.before note pause op w k)) ∧
      (∀ now, b.run retryable Trials.note Trials.pause (Trials.attempt outcomes) (.start now) =
        (outcomes m, ⟨b.timeOf now m, (List.range (m + 1)).map (b.timeOf now),
          (List.range m).map b.delay, ((List.range m).flatMap fun k =>
            (b.goingOn k (outcomes k)).toList) ++ (settled retryable m (outcomes m)).toList⟩)) ∧
      (Monotone fun k => (b.delay k).nanos) ∧ (∀ k, (b.delay k).nanos ≤ b.cap.nanos) ∧
      m ≤ b.maxRetries ∧ (∀ k < m, k + 1 < UInt32.size ∧ Number.next32 k = k + 1) ∧
      Number.next32 m = if m = UInt32.size - 1 then 0 else m + 1 := by
  obtain ⟨m, hm⟩ := b.exists_isLeast_settles retryable outcomes
  have hle := le_maxRetries hm
  refine ⟨m, hm, ?_, run_trials hretries hm, b.monotone_delay, b.delay_le_cap, hle,
    fun k hk => ⟨by omega, Number.next32_of_lt (by omega)⟩, ?_⟩
  · intro W note pause op w hop
    exact ⟨run_eq_of_isLeast hretries hm hop, fun k hk => run_eq_attempts hretries hm hop hk⟩
  · split
    · next hlast =>
      rw [hlast]
      rfl
    · exact Number.next32_of_lt (by omega)

/-- With the largest number of retries: an operation that succeeds at the third attempt, and one
that never does. -/
theorem run_settles_third :
    let b : Backoff := ⟨4294967295, .ofMillis 100, .ofMillis 150⟩
    let reset : ServiceError := .transport "reset"
    let outcomes : ℕ → Except ServiceError ℕ := fun k => if k < 2 then .error reset else .ok k
    let never : ℕ → Except ServiceError ℕ := fun _ => .error reset
    b.maxRetries < UInt32.size ∧
      b.run Classifier.standard.isRetryable Trials.note Trials.pause (Trials.attempt outcomes)
          (.start .zero) =
        (.ok 2, ⟨.ofMillis 250, [.zero, .ofMillis 100, .ofMillis 250],
          [.ofMillis 100, .ofMillis 150], [.retrying 1 (.ofMillis 100) reset,
            .retrying 2 (.ofMillis 150) reset, .recovered 2]⟩) ∧
      ∃ t, b.run Classifier.standard.isRetryable Trials.note Trials.pause (Trials.attempt never)
          (.start .zero) = (.error reset, t) ∧ t.made.length = 4294967296 ∧
        t.notices.getLast? = some (.exhausted 0 reset) := by
  intro b reset outcomes never
  have hretries : b.maxRetries < UInt32.size := by decide
  obtain ⟨m, hm, -, hrun, -⟩ := run_settles b hretries Classifier.standard.isRetryable outcomes
  obtain ⟨n, hn, -, hfails, -, -, -, -, hnext⟩ :=
    run_settles b hretries Classifier.standard.isRetryable never
  have hthird : IsLeast {k | b.Settles Classifier.standard.isRetryable outcomes k} 2 := by
    refine ⟨.inl ⟨2, rfl⟩, fun k hk => ?_⟩
    by_contra hlt
    have hfails : outcomes k = .error reset := if_pos (not_le.mp hlt)
    rcases hk with ⟨v, hv⟩ | ⟨e, he, hfinal⟩ | hspent
    · cases hfails.symm.trans hv
    · obtain rfl := Except.error.inj (hfails.symm.trans he)
      cases hfinal
    · simp only [b] at hspent
      omega
  have hlast : IsLeast {k | b.Settles Classifier.standard.isRetryable never k} b.maxRetries := by
    refine ⟨.inr (.inr rfl), fun k hk => ?_⟩
    rcases hk with ⟨v, hv⟩ | ⟨e, he, hfinal⟩ | hspent
    · cases hv
    · obtain rfl := Except.error.inj he
      cases hfinal
    · exact hspent.ge
  obtain rfl := hm.unique hthird
  obtain rfl := hn.unique hlast
  refine ⟨hretries, (hrun .zero).trans ?_, _, hfails .zero, ?_, ?_⟩
  · decide
  · rw [List.length_map, List.length_range]
  · have hspent : Classifier.standard.isRetryable reset = true := by decide
    rw [if_pos (by decide)] at hnext
    simp only [never, settled, hspent, if_true, hnext, Option.toList_some,
      List.getLast?_append, List.getLast?_singleton, Option.some_or]

end Backoff

end Punter
