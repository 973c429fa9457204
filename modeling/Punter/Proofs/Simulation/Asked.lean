/-
# What the source of chances is asked

A source of chances may refuse a probability that is none.  To see which ones the simulated service
asks for, a source is taken together with a list of them (`Noting`).  Nothing else changes by that:
the service answers as it does without the list (`exchanges_noting`), and all that the list comes to
hold is one and the same probability, once for each spin (`asked_run`).
-/
import Mathlib
import Punter.Proofs.Number.Ordered
import Punter.Proofs.Simulation.Spins

namespace Punter.Simulation

/-- A source of chances with the probabilities that it was asked for. -/
structure Noting (γ α : Type) where
  chances : γ
  asked : List α

variable {γ α : Type} [Scalar α] [Chance γ α]

instance : Chance (Noting γ α) α where
  happens p c :=
    let (b, chances) := Chance.happens p c.chances
    (b, ⟨chances, c.asked ++ [p]⟩)
  pick n h c :=
    let (i, chances) := Chance.pick α n h c.chances
    (i, ⟨chances, c.asked⟩)

/-! ## One spin -/

/-- A spin asks for one probability. -/
lemma Spin.asked_draw (p : α) (c : Noting γ α) :
    (draw p c).2.asked = c.asked ++ [Scalar.clamp 0.0 1.0 p] := by
  unfold draw
  dsimp only
  split <;> rfl

lemma Spin.draw_noting (p : α) (c : Noting γ α) :
    draw p c.chances = ((draw p c).1, (draw p c).2.chances) := by
  have hwon : (Chance.happens (Scalar.clamp 0.0 1.0 p) c).1 =
    (Chance.happens (Scalar.clamp 0.0 1.0 p) c.chances).1 := rfl
  simp only [draw, hwon]
  split <;> rfl

lemma Spin.asked_chancesAfter (p : α) (chances : γ) (n : ℕ) :
    (chancesAfter p (⟨chances, []⟩ : Noting γ α) n).asked =
      List.replicate n (Scalar.clamp 0.0 1.0 p) := by
  induction n with
  | zero => rfl
  | succ n ih => rw [chancesAfter, asked_draw, ih, List.replicate_succ']

/-- A game makes the same turns with and without notes. -/
lemma Game.Plays.forget {settings : Settings α} {g : Game α} {a : Action α} {c c' : Noting γ α}
    {t : Turn α} (h : g.Plays settings a c t c') :
    g.Plays settings a c.chances t c'.chances := by
  cases h with
  | bet kind phase stake => exact .bet kind phase stake
  | @spin m kind phase pending =>
    -- the only turn that asks the source
    have hspin : g.Plays settings a c.chances _ _ := .spin kind phase pending
    rwa [Spin.draw_noting] at hspin
  | cashOut kind phase => exact .cashOut kind phase
  | idle lenient misfit => exact .idle lenient misfit

/-! ## A whole run -/

namespace State

/-- The service without the notes. -/
def plain (s : State (Noting γ α) α) : State γ α :=
  ⟨s.settings, s.names, s.chances.chances, s.held, s.records, s.finished, s.failures, s.calls,
    s.opened, s.recorded⟩

lemma play_plain (s : State (Noting γ α) α) (now : Duration) (id : SessionId) (p : Play α) :
    s.plain.play now id p = ((s.play now id p).1, (s.play now id p).2.plain) := by
  cases found : s.find? id with
  | none =>
    have found' : s.plain.find? id = none := found
    rw [play_of_none found, play_of_none found']
  | some h =>
    have found' : s.plain.find? id = some h := found
    rcases Game.refuses_or_plays (Noting γ α) s.settings h.game p.action with ⟨e, hrefuses⟩ | hplays
    · rw [play_of_refuses found hrefuses, play_of_refuses found' hrefuses]
    · obtain ⟨t, c, plays⟩ := hplays s.chances
      rw [play_of_plays found plays, play_of_plays found' plays.forget]
      unfold settled
      split <;> rfl

lemma serve_plain (s : State (Noting γ α) α) (c : Call α) (now : Duration) :
    s.plain.serve c now = ((s.serve c now).1, (s.serve c now).2.plain) := by
  cases c with
  | play id p => exact play_plain s now id p
  | _ => rfl

lemma answer_plain (s : State (Noting γ α) α) (c : Call α) (now : Duration) :
    s.plain.answer c now = ((s.answer c now).1, (s.answer c now).2.plain) := by
  cases hk : CallKind.of? c with
  | none =>
    cases c <;> cases hk
    rfl
  | some k =>
    cases hq : s.failures.of k with
    | nil =>
      have hq' : s.plain.failures.of k = [] := hq
      rw [answer_of_nil hk hq, answer_of_nil hk hq']
      exact serve_plain (s.count k) c now
    | cons e es =>
      have hq' : s.plain.failures.of k = e :: es := hq
      rw [answer_of_cons hk hq, answer_of_cons hk hq']
      rfl

lemma after_plain (s : State (Noting γ α) α) (op : Operation α) :
    s.plain.after op = (s.after op).plain := by
  cases op with
  | inject k es => rfl
  | call c now => exact congrArg Prod.snd (answer_plain s c now)

lemma run_plain (s : State (Noting γ α) α) (ops : List (Operation α)) :
    s.plain.run ops = (s.run ops).plain := by
  induction ops generalizing s with
  | nil => rfl
  | cons op ops ih =>
    change (s.plain.after op).run ops = ((s.after op).run ops).plain
    rw [after_plain, ih]

/-- The service answers the same with and without notes. -/
lemma exchanges_noting (s : State (Noting γ α) α) (ops : List (Operation α)) :
    s.plain.exchanges ops = s.exchanges ops := by
  induction ops generalizing s with
  | nil => rfl
  | cons op ops ih =>
    have hafter := after_plain s op
    cases op with
    | inject k es => exact ih (s.inject k es)
    | call c now =>
      rw [exchanges, exchanges, hafter, ih, answer_plain]

lemma move?_plain (s : State (Noting γ α) α) (op : Operation α) :
    s.plain.move? op = s.move? op := by
  cases op with
  | inject k es => rfl
  | call c now =>
    cases c with
    | play id p =>
      have hplain := answer_plain s (.play id p) now
      rcases h : s.answer (.play id p) now with ⟨e | o, s'⟩ <;> rw [h] at hplain
      · rw [move?_play_of_error h, move?_play_of_error hplain]
      · obtain ⟨held, t, c, u, found, plays, -, -⟩ := answer_play_eq_ok h
        have found' : s.plain.find? id = some held := found
        rw [move?_play_of_ok h found plays, move?_play_of_ok hplain found' plays.forget]
    | _ => rfl

lemma moves_noting (s : State (Noting γ α) α) (ops : List (Operation α)) :
    s.plain.moves ops = s.moves ops := by
  induction ops generalizing s with
  | nil => rfl
  | cons op ops ih => rw [moves, moves, move?_plain, after_plain, ih]

/-- All that a run asks for is the probability of a win, once for each spin. -/
theorem asked_run (settings : Settings α) (names : Names) (chances : γ)
    (ops : List (Operation α)) :
    ((new settings names (⟨chances, []⟩ : Noting γ α)).run ops).chances.asked =
      List.replicate ((new settings names chances).spins ops).length
        (Scalar.clamp 0.0 1.0 settings.winProbability) := by
  have hserved := served_run settings names (⟨chances, []⟩ : Noting γ α) ops
  have hmoves : (new settings names chances : State γ α).moves ops =
      (new settings names (⟨chances, []⟩ : Noting γ α)).moves ops :=
    moves_noting (new settings names ⟨chances, []⟩) ops
  rw [hserved.chances_eq, Spin.asked_chancesAfter, spins, hmoves]

end State

end Punter.Simulation
