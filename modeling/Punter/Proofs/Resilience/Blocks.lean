/-
# Calls in blocks

What reaches the service falls into blocks: the exchanges in which one call was made, again and
again until it was settled.  A block is known by its last exchange, which tells the call and what
came of it; with `Retrier.Asks` everything that is said about the order of calls can be said about
these last exchanges, as if no call were ever made twice.  There is only one way in which exchanges
can fall into blocks (`Retrier.Asks.unique`).
-/
import Mathlib
import Punter.Episode.Step
import Punter.Proofs.Resilience.Attempts

namespace Punter

namespace Retrier

variable {α : Type}

/-- A call is settled with an exchange `x` after the exchanges `retried`. -/
structure Block (r : Retrier) (retried : List (Exchange α)) (x : Exchange α) : Prop where
  /-- Before, the same call has failed, each time in a way after which it may be made again. -/
  failed : ∀ y ∈ retried, ∃ now e, y = ⟨now, x.call, .error e⟩ ∧ r.classifier.isRetryable e = true
  length_le : retried.length ≤ r.backoff.maxRetries
  /-- It is given up where it might be made again only if no retry is left. -/
  spent : ∀ e, x.outcome = .error e → r.classifier.isRetryable e = true →
    retried.length = r.backoff.maxRetries

/-- Exchanges that fall into blocks, with the exchanges that settle these. -/
inductive Blocks (r : Retrier) : List (Exchange α) → List (Exchange α) → Prop
  | nil : Blocks r [] []
  | cons {retried trace settled : List (Exchange α)} {x : Exchange α} (block : r.Block retried x)
      (rest : Blocks r settled trace) : Blocks r (x :: settled) (retried ++ x :: trace)

lemma Blocks.append {r : Retrier} {settled settled' trace trace' : List (Exchange α)}
    (h : r.Blocks settled trace) (h' : r.Blocks settled' trace') :
    r.Blocks (settled ++ settled') (trace ++ trace') := by
  induction h with
  | nil => exact h'
  | cons block rest ih =>
    rw [List.append_assoc, List.cons_append, List.cons_append]
    exact .cons block ih

/-- What only exchanges without a failure tell is told by those that settle the calls. -/
lemma Blocks.filterMap_eq {T : Type} {r : Retrier} {settled trace : List (Exchange α)}
    {f : Exchange α → Option T} (hf : ∀ now c e, f ⟨now, c, .error e⟩ = none)
    (h : r.Blocks settled trace) : trace.filterMap f = settled.filterMap f := by
  induction h with
  | nil => rfl
  | @cons retried trace settled x block rest ih =>
    have hretried : retried.filterMap f = [] := by
      rw [List.filterMap_eq_nil_iff]
      intro y hy
      obtain ⟨now, e, rfl, -⟩ := block.failed y hy
      exact hf now x.call e
    rw [List.filterMap_append, hretried, List.nil_append, List.filterMap_cons,
      List.filterMap_cons, ih]

/-- What is retried was not settled. -/
lemma Block.not_retried {r : Retrier} {retried rest : List (Exchange α)} {x y : Exchange α}
    (h : r.Block retried x) (h' : r.Block (retried ++ x :: rest) y) : False := by
  obtain ⟨now, e, rfl, he⟩ := h'.failed x (by simp)
  have hspent : retried.length = r.backoff.maxRetries := h.spent e rfl he
  have hle := h'.length_le
  rw [List.length_append, List.length_cons] at hle
  omega

/-- Where a block ends can be seen from the exchanges. -/
lemma Block.ends {r : Retrier} {retried retried' trace trace' : List (Exchange α)}
    {x x' : Exchange α} (h : r.Block retried x) (h' : r.Block retried' x')
    (heq : retried ++ x :: trace = retried' ++ x' :: trace') : x = x' ∧ trace = trace' := by
  rcases List.append_eq_append_iff.mp heq with ⟨rest, hretried, hrest⟩ | ⟨rest, hretried, hrest⟩ <;>
    rcases rest with - | ⟨y, rest⟩
  · exact List.cons.inj hrest
  · obtain ⟨rfl, -⟩ := List.cons.inj hrest
    exact (h.not_retried (hretried ▸ h')).elim
  · obtain ⟨hx, htrace⟩ := List.cons.inj hrest
    exact ⟨hx.symm, htrace.symm⟩
  · obtain ⟨rfl, -⟩ := List.cons.inj hrest
    exact (h'.not_retried (hretried ▸ h)).elim

/-- The exchanges tell which of them settled a call. -/
lemma Blocks.unique {r : Retrier} {settled settled' trace : List (Exchange α)}
    (h : r.Blocks settled trace) (h' : r.Blocks settled' trace) : settled = settled' := by
  induction h generalizing settled' with
  | nil =>
    generalize hnil : ([] : List (Exchange α)) = trace at h'
    cases h' with
    | nil => rfl
    | cons => simp at hnil
  | @cons retried trace settled x block rest ih =>
    generalize htrace : retried ++ x :: trace = trace' at h'
    cases h' with
    | nil => simp at htrace
    | cons block' rest' =>
      obtain ⟨rfl, rfl⟩ := block.ends block' htrace
      rw [ih rest']

variable {σ : Type}

/-- Between two worlds calls were made that were settled with the exchanges `xs`, in this order,
and no others. -/
def Asks (r : Retrier) (xs : List (Exchange α)) (w w' : World σ α) : Prop :=
  ∃ trace, w'.history = w.history ++ trace ∧ r.Blocks xs trace

namespace Asks

variable {r : Retrier} {xs ys : List (Exchange α)} {w w' w₁ w₂ : World σ α}

/-- Nothing was asked. -/
lemma of_history_eq (h : w₁.history = w.history) : r.Asks [] w w₁ :=
  ⟨[], by rw [h, List.append_nil], .nil⟩

lemma trans (h : r.Asks xs w w₁) (h' : r.Asks ys w₁ w₂) : r.Asks (xs ++ ys) w w₂ := by
  obtain ⟨trace, hhistory, hblocks⟩ := h
  obtain ⟨trace', hhistory', hblocks'⟩ := h'
  refine ⟨trace ++ trace', ?_, hblocks.append hblocks'⟩
  rw [hhistory', hhistory, List.append_assoc]

/-- The logs of two worlds tell how the calls between them were settled. -/
theorem unique (h : r.Asks xs w w') (h' : r.Asks ys w w') : xs = ys := by
  obtain ⟨trace, hhistory, hblocks⟩ := h
  obtain ⟨trace', hhistory', hblocks'⟩ := h'
  obtain rfl : trace = trace' := List.append_cancel_left (hhistory.symm.trans hhistory')
  exact hblocks.unique hblocks'

end Asks

variable [Service σ α]

/-- The attempts of a call with some retries left, which are one exchange more than were retried.
The induction is on the retries that are left. -/
lemma attempts_block (r : Retrier) (c : Call α) (left attempt : Nat) (w : World σ α) :
    ∃ retried now,
      (r.attempts World.sleep (World.ask c) left attempt w).2.history = w.history ++
        (retried ++ [⟨now, c, (r.attempts World.sleep (World.ask c) left attempt w).1⟩]) ∧
      (∀ y ∈ retried, ∃ now e, y = ⟨now, c, .error e⟩ ∧ r.classifier.isRetryable e = true) ∧
      retried.length ≤ left ∧
      ∀ e, (r.attempts World.sleep (World.ask c) left attempt w).1 = .error e →
        r.classifier.isRetryable e = true → retried.length = left := by
  induction left generalizing attempt w with
  | zero =>
    rcases hanswer : Service.answer c w.clock w.service with ⟨e | v, s⟩
    · rw [attempts_zero (World.ask_of_answer hanswer)]
      exact ⟨[], w.clock, World.history_exchanged _ _ _, by simp, Nat.le_refl 0, fun _ _ _ => rfl⟩
    · rw [attempts_of_ok (World.ask_of_answer hanswer)]
      exact ⟨[], w.clock, World.history_exchanged _ _ _, by simp, Nat.le_refl 0, fun _ _ _ => rfl⟩
  | succ left ih =>
    rcases hanswer : Service.answer c w.clock w.service with ⟨e | v, s⟩
    · have hask := World.ask_of_answer hanswer
      by_cases he : r.classifier.isRetryable e = true
      · -- the call is made again, after a pause
        rw [attempts_succ hask he]
        obtain ⟨retried, now, hhistory, hfailed, hlength, hspent⟩ := ih (Number.next32 attempt)
          ((w.exchanged ⟨w.clock, c, .error e⟩ s).sleep (r.backoff.delay attempt))
        refine ⟨⟨w.clock, c, .error e⟩ :: retried, now, ?_, ?_, ?_, ?_⟩
        · rw [hhistory, World.history_sleep, World.history_exchanged, List.append_assoc]
          rfl
        · intro y hy
          rcases List.mem_cons.mp hy with rfl | hy
          · exact ⟨w.clock, e, rfl, he⟩
          · exact hfailed y hy
        · exact Nat.succ_le_succ hlength
        · intro e' he' hretryable
          rw [List.length_cons, hspent e' he' hretryable]
      · rw [attempts_of_final hask (Bool.eq_false_of_not_eq_true he)]
        refine ⟨[], w.clock, World.history_exchanged _ _ _, by simp, Nat.zero_le _, ?_⟩
        intro e' he' hretryable
        rw [← Except.error.inj he'] at hretryable
        exact absurd hretryable he
    · rw [attempts_of_ok (World.ask_of_answer hanswer)]
      exact ⟨[], w.clock, World.history_exchanged _ _ _, by simp, Nat.zero_le _, by simp⟩

end Retrier

namespace Stepper

variable {σ α : Type} [Service σ α]

/-- A call of the agent is one block. -/
theorem asks_call (s : Stepper) (c : Call α) (w : World σ α) :
    ∃ now, s.retrier.Asks [⟨now, c, (s.call c w).1⟩] w (s.call c w).2 := by
  obtain ⟨retried, now, hhistory, hfailed, hlength, hspent⟩ :=
    s.retrier.attempts_block c s.retrier.backoff.maxRetries 0 w
  exact ⟨now, _, hhistory, .cons ⟨hfailed, hlength, hspent⟩ .nil⟩

end Stepper

end Punter
