/-
# Failed calls and queued failures

A call of the simulated service fails because a failure was queued for its kind, or because it is
refused when it is served.  Neither leaves a trace but in the tallies: the call is counted, and a
failure that was queued is gone (`State.FailsWith`).

The queues of the four kinds do not know of each other, and each is a queue in the strict sense:
what was queued for a kind is what its calls have taken, in the same order, followed by what is
still queued (`State.queued_eq_taken_append`).
-/
import Mathlib
import Punter.Proofs.Simulation.Runs

namespace Punter.Simulation

/-! ## What operations have to do with a queue -/

namespace Operation

variable {α : Type}

/-- Whether an operation is a call of a kind, or queues failures for it. -/
def concerns (k : CallKind) : Operation α → Bool
  | call c _ => CallKind.of? c = some k
  | inject l _ => l = k

/-- Whether an operation is a call of a kind. -/
def calls (k : CallKind) : Operation α → Bool
  | call c _ => CallKind.of? c = some k
  | inject _ _ => false

/-- The failures that an operation queues for a kind. -/
def queued (k : CallKind) : Operation α → List ServiceError
  | call _ _ => []
  | inject l es => if l = k then es else []

end Operation

/-- The failure with which an outcome comes, if it does. -/
def failureOf {T : Type} : Except ServiceError T → List ServiceError
  | .error e => [e]
  | .ok _ => []

namespace State

variable {γ γ' α : Type}

/-- A call of the kind `k` has failed with `e`.  Sessions, their experiences, the completed sessions
and the source of chances are as before; the call was counted, in 32 bits, and at most `e` itself
was taken from the queue of its kind. -/
structure FailsWith (k : CallKind) (e : ServiceError) (s s' : State γ α) : Prop where
  settings : s'.settings = s.settings
  names : s'.names = s.names
  chances : s'.chances = s.chances
  held : s'.held = s.held
  records : s'.records = s.records
  finished : s'.finished = s.finished
  opened : s'.opened = s.opened
  recorded : s'.recorded = s.recorded
  calls : s'.calls = s.calls.set k (Number.next32 (s.calls.of k))
  failures : (s.failures.of k = [] ∧ s'.failures = s.failures) ∨
    ∃ es, s.failures.of k = e :: es ∧ s'.failures = s.failures.set k es

lemma failsWith_count {k : CallKind} {e : ServiceError} {s : State γ α}
    (h : s.failures.of k = []) : FailsWith k e s (s.count k) :=
  ⟨rfl, rfl, rfl, rfl, rfl, rfl, rfl, rfl, rfl, .inl ⟨h, rfl⟩⟩

lemma failsWith_queue {k : CallKind} {e : ServiceError} {es : List ServiceError} {s : State γ α}
    (h : s.failures.of k = e :: es) : FailsWith k e s ((s.count k).queue k es) :=
  ⟨rfl, rfl, rfl, rfl, rfl, rfl, rfl, rfl, rfl, .inr ⟨es, h, rfl⟩⟩

lemma FailsWith.calls_of_lt {k : CallKind} {e : ServiceError} {s s' : State γ α}
    (h : FailsWith k e s s') (hlt : s.calls.of k + 1 < UInt32.size) :
    s'.calls.of k = s.calls.of k + 1 := by
  rw [h.calls, PerCall.of_set, if_pos rfl, Number.next32_of_lt hlt]

variable [Scalar α] [Chance γ α] [Chance γ' α]

/-- Whether it was queued or the call was refused, a failure has no effect. -/
lemma failsWith_of_answer {s s' : State γ α} {c : Call α} {now : Duration} {e : ServiceError}
    (h : s.answer c now = (.error e, s')) :
    ∃ k, CallKind.of? c = some k ∧ FailsWith k e s s' := by
  cases hk : CallKind.of? c with
  | none =>
    cases c <;> cases hk
    simp [answer_health] at h
  | some k =>
    refine ⟨k, rfl, ?_⟩
    cases hq : s.failures.of k with
    | nil =>
      rw [answer_eq_serve hk hq, Prod.mk.injEq] at h
      obtain ⟨hsame, -⟩ := serve_eq_error (Prod.ext h.1 rfl : s.serve c now = (.error e, _))
      obtain rfl : s' = s.count k :=
        h.2.symm.trans (congrArg (fun u => withTallies u (s.count k)) hsame)
      exact failsWith_count hq
    | cons e' es =>
      rw [answer_of_cons hk hq, Prod.mk.injEq, Except.error.injEq] at h
      obtain ⟨rfl, rfl⟩ := h
      exact failsWith_queue hq

/-! ## The calls of a kind -/

/-- An operation is counted if it is a call of the kind. -/
lemma calls_after (k : CallKind) (s : State γ α) (op : Operation α) :
    (s.after op).calls.of k =
      if op.calls k then Number.next32 (s.calls.of k) else s.calls.of k := by
  cases op with
  | inject l es => rfl
  | call c now =>
    cases hl : CallKind.of? c with
    | none =>
      cases c <;> cases hl
      rfl
    | some l =>
      have hcounted : (s.after (.call c now)).calls = (s.count l).calls := by
        cases hq : s.failures.of l with
        | nil =>
          rw [after, answer_eq_serve hl hq]
          rfl
        | cons e es =>
          rw [after, answer_of_cons hl hq]
          rfl
      rw [hcounted, count, PerCall.of_set]
      by_cases hk : k = l
      · simp [Operation.calls, hl, hk]
      · simp [Operation.calls, hl, hk, Ne.symm hk]

/-- **What is counted** are the calls of a kind, in 32 bits. -/
theorem calls_run (k : CallKind) {s : State γ α} (hs : s.calls.of k < UInt32.size)
    (ops : List (Operation α)) :
    (s.run ops).calls.of k =
      (s.calls.of k + ops.countP (Operation.calls k)) % UInt32.size := by
  induction ops generalizing s with
  | nil => exact (Nat.mod_eq_of_lt hs).symm
  | cons op ops ih =>
    change ((s.after op).run ops).calls.of k = _
    have hafter := calls_after k s op
    rw [List.countP_cons]
    cases hop : op.calls k with
    | true =>
      rw [hop, if_pos rfl] at hafter
      rw [ih (hafter ▸ Nat.mod_lt _ (by decide)), hafter, Number.next32, Nat.mod_add_mod,
        if_pos rfl, Nat.add_assoc, Nat.add_comm 1]
    | false =>
      rw [hop, if_neg (by simp)] at hafter
      rw [ih (hafter ▸ hs), hafter, if_neg (by simp), Nat.add_zero]

/-! ## The queue of a kind -/

/-- The failure that an operation takes from the queue of a kind: the one with which a call of the
kind fails while failures are queued for it. -/
def takes (k : CallKind) (s : State γ α) : Operation α → List ServiceError
  | .call c now =>
    if CallKind.of? c = some k ∧ s.failures.of k ≠ [] then failureOf (s.answer c now).1 else []
  | .inject _ _ => []

/-- The failures that the operations of a run take from the queue of a kind, in their order. -/
def taken (k : CallKind) (s : State γ α) : List (Operation α) → List ServiceError
  | [] => []
  | op :: ops => s.takes k op ++ (s.after op).taken k ops

variable {k : CallKind} {s : State γ α} {s' : State γ' α}

/-- A call of a kind takes the first failure of its queue, if there is one. -/
lemma takes_call {c : Call α} (hk : CallKind.of? c = some k) (s : State γ α) (now : Duration) :
    s.takes k (.call c now) = (s.failures.of k).take 1 ∧
      (s.after (.call c now)).failures.of k = (s.failures.of k).drop 1 := by
  cases hq : s.failures.of k with
  | nil =>
    refine ⟨by simp [takes, hq], ?_⟩
    rw [after, answer_eq_serve hk hq]
    exact hq
  | cons e es =>
    refine ⟨?_, ?_⟩
    · simp [takes, hk, hq, answer_of_cons hk hq, failureOf]
    · rw [after, answer_of_cons hk hq]
      simp [queue]

/-- What does not concern a kind leaves its queue alone. -/
lemma takes_of_not_concerns {op : Operation α} (h : op.concerns k = false) (s : State γ α) :
    s.takes k op = [] ∧ (s.after op).failures.of k = s.failures.of k := by
  cases op with
  | inject l es =>
    have hl : k ≠ l := by
      rintro rfl
      simp [Operation.concerns] at h
    exact ⟨rfl, by simp [after, inject, hl]⟩
  | call c now =>
    simp only [Operation.concerns, decide_eq_false_iff_not] at h
    refine ⟨by simp [takes, h], ?_⟩
    cases hl : CallKind.of? c with
    | none =>
      cases c <;> cases hl
      rfl
    | some l =>
      have hkl : k ≠ l := by
        rintro rfl
        exact h hl
      cases hq : s.failures.of l with
      | nil =>
        rw [after, answer_eq_serve hl hq]
        rfl
      | cons e es =>
        rw [after, answer_of_cons hl hq]
        simp [queue, count, hkl]

/-- An operation that concerns a kind does to its queue what the queue alone tells. -/
lemma takes_congr {op : Operation α} (h : op.concerns k = true)
    (hq : s.failures.of k = s'.failures.of k) :
    s.takes k op = s'.takes k op ∧
      (s.after op).failures.of k = (s'.after op).failures.of k := by
  cases op with
  | inject l es =>
    obtain rfl : l = k := by simpa [Operation.concerns] using h
    exact ⟨rfl, by simp [after, inject, hq]⟩
  | call c now =>
    have hk : CallKind.of? c = some k := by simpa [Operation.concerns] using h
    obtain ⟨htakes, hafter⟩ := takes_call hk s now
    obtain ⟨htakes', hafter'⟩ := takes_call hk s' now
    rw [htakes, htakes', hafter, hafter', hq]
    exact ⟨rfl, rfl⟩

/-- One operation on the queue of a kind. -/
lemma queued_eq_takes_append (k : CallKind) (s : State γ α) (op : Operation α) :
    s.failures.of k ++ op.queued k = s.takes k op ++ (s.after op).failures.of k := by
  by_cases h : op.concerns k = true
  · cases op with
    | inject l es =>
      obtain rfl : l = k := by simpa [Operation.concerns] using h
      simp [Operation.queued, takes, after, inject]
    | call c now =>
      have hk : CallKind.of? c = some k := by simpa [Operation.concerns] using h
      obtain ⟨htakes, hafter⟩ := takes_call hk s now
      rw [htakes, hafter, List.take_append_drop]
      exact List.append_nil _
  · have h := Bool.eq_false_of_not_eq_true h
    obtain ⟨htakes, hafter⟩ := takes_of_not_concerns h s
    have hnone : op.queued k = [] := by
      cases op with
      | call c now => rfl
      | inject l es =>
        have hl : ¬ l = k := by simpa [Operation.concerns] using h
        rw [Operation.queued, if_neg hl]
    rw [htakes, hafter, hnone, List.append_nil, List.nil_append]

/-- **A queue keeps its order and loses nothing.**  What was queued before a run and in it is what
the run has taken, followed by what is left. -/
theorem queued_eq_taken_append (k : CallKind) (s : State γ α) (ops : List (Operation α)) :
    s.failures.of k ++ ops.flatMap (Operation.queued k) =
      s.taken k ops ++ (s.run ops).failures.of k := by
  induction ops generalizing s with
  | nil => exact List.append_nil _
  | cons op ops ih =>
    rw [List.flatMap_cons, ← List.append_assoc, queued_eq_takes_append, List.append_assoc, ih,
      ← List.append_assoc]
    rfl

/-- What is taken from the queue of a kind depends on nothing but the operations that concern this
kind. -/
theorem taken_filter (hq : s.failures.of k = s'.failures.of k) (ops : List (Operation α)) :
    s.taken k ops = s'.taken k (ops.filter (Operation.concerns k)) := by
  induction ops generalizing s s' with
  | nil => rfl
  | cons op ops ih =>
    by_cases h : op.concerns k = true
    · obtain ⟨htakes, hafter⟩ := takes_congr h hq
      rw [List.filter_cons_of_pos h, taken, taken, htakes, ih hafter]
    · obtain ⟨htakes, hafter⟩ := takes_of_not_concerns (Bool.eq_false_of_not_eq_true h) s
      rw [List.filter_cons_of_neg h, taken, htakes, List.nil_append]
      exact ih (hafter.trans hq)

end State

end Punter.Simulation
