/-
# Streaks of failures

A breaker is told of every success and of every failure.  Its count is the length of the streak of
failures that the history ends with, as far as this can be counted.  No threshold is larger than the
largest count, and so the breaker is open exactly while the streak has reached the threshold: a
streak that is too long to be counted does not close it again.
-/
import Mathlib
import Punter.Resilience.Breaker

namespace Punter.Breaker

/-- What a breaker is told of. -/
inductive Outcome where
  | success
  | failure
  deriving DecidableEq, Repr

/-- The breaker after it was told of an outcome. -/
def note (b : Breaker) : Outcome → Breaker
  | .success => b.succeed
  | .failure => b.fail

/-- The breaker after a history. -/
def after (b : Breaker) (history : List Outcome) : Breaker := history.foldl note b

/-! ## The streak at the end of a history -/

/-- How many failures in a row a history ends with. -/
def streak (history : List Outcome) : ℕ := (history.rtakeWhile (· = .failure)).length

variable {threshold n : ℕ} {history : List Outcome}

@[simp] lemma streak_nil : streak [] = 0 := rfl

@[simp] lemma streak_append_success (history : List Outcome) :
    streak (history ++ [.success]) = 0 := by
  rw [streak, List.rtakeWhile_concat_neg _ _ _ (by decide), List.length_nil]

@[simp] lemma streak_append_failure (history : List Outcome) :
    streak (history ++ [.failure]) = streak history + 1 := by
  rw [streak, List.rtakeWhile_concat_pos _ _ _ (by decide), List.length_append,
    List.length_singleton, streak]

@[simp] lemma streak_replicate (n : ℕ) : streak (List.replicate n .failure) = n := by
  induction n with
  | zero => rfl
  | succ n ih => rw [List.replicate_succ', streak_append_failure, ih]

/-! ## The count of a breaker -/

/-- The breaker counts the streak of a history, as far as it can count. -/
structure Counts (threshold : ℕ) (history : List Outcome) (b : Breaker) : Prop where
  failures : b.failures = min (streak history) maxFailures
  threshold_eq : b.threshold = max threshold 1

lemma counts_new (threshold : ℕ) : Counts threshold [] (new threshold) :=
  ⟨rfl, rfl⟩

lemma Counts.note {b : Breaker} (h : Counts threshold history b) (outcome : Outcome) :
    Counts threshold (history ++ [outcome]) (b.note outcome) := by
  cases outcome with
  | success => exact ⟨by simp [Breaker.note, succeed], h.threshold_eq⟩
  | failure =>
    refine ⟨?_, h.threshold_eq⟩
    -- one more failure than the largest count is cut off at once
    have hfail : (b.note .failure).failures = min (b.failures + 1) maxFailures := rfl
    rw [hfail, h.failures, streak_append_failure]
    omega

lemma counts_after (threshold : ℕ) (history : List Outcome) :
    Counts threshold history ((new threshold).after history) := by
  induction history using List.reverseRecOn with
  | nil => exact counts_new threshold
  | append_singleton history outcome ih =>
    rw [after, List.foldl_concat]
    exact ih.note outcome

/-- A count that was cut off is at least as large as any threshold. -/
lemma Counts.isOpen_iff {b : Breaker} (h : Counts threshold history b)
    (hthreshold : threshold < UInt32.size) :
    b.isOpen = true ↔ max threshold 1 ≤ streak history := by
  have hmax : max threshold 1 ≤ maxFailures :=
    max_le (Nat.le_sub_one_of_lt hthreshold) (by decide)
  rw [isOpen, decide_eq_true_iff, h.threshold_eq, h.failures, le_min_iff]
  exact and_iff_left hmax

/-- **Streaks.**  After any history a new breaker has counted the failures that the history ends
with, or as many of them as can be counted; its threshold is the one it was made with, but at least
one; and it is open exactly if there are at least as many failures as the threshold says, whether or
not they could all be counted. -/
theorem isOpen_iff_le_streak (hthreshold : threshold < 2 ^ 32) (history : List Outcome) :
    let b := (new threshold).after history
    b.failures = min (streak history) (2 ^ 32 - 1) ∧ b.threshold = max threshold 1 ∧
      (b.isOpen = true ↔ max threshold 1 ≤ streak history) := by
  intro b
  have hcounts := counts_after threshold history
  exact ⟨hcounts.failures, hcounts.threshold_eq, hcounts.isOpen_iff hthreshold⟩

/-- With the largest threshold and more failures than can be counted the breaker is open, and a
success closes it. -/
theorem isOpen_iff_le_streak_long :
    let b := new (2 ^ 32 - 1)
    let long := List.replicate (2 ^ 32 + 7) Outcome.failure
    2 ^ 32 - 1 < 2 ^ 32 ∧ streak long = 2 ^ 32 + 7 ∧
      (b.after long).failures = 2 ^ 32 - 1 ∧ (b.after long).isOpen = true ∧
      (b.after (long ++ [.success])).isOpen = false := by
  intro b long
  have hthreshold : 2 ^ 32 - 1 < 2 ^ 32 := by decide
  have hstreak : streak long = 2 ^ 32 + 7 := streak_replicate _
  obtain ⟨hfailures, -, hopen⟩ := isOpen_iff_le_streak hthreshold long
  obtain ⟨-, -, hclosed⟩ := isOpen_iff_le_streak hthreshold (long ++ [.success])
  rw [hstreak] at hfailures hopen
  rw [streak_append_success] at hclosed
  exact ⟨hthreshold, hstreak, hfailures, hopen.mpr (by decide),
    Bool.eq_false_of_not_eq_true fun h => absurd (hclosed.mp h) (by decide)⟩

end Punter.Breaker
