/-
# Runs of the simulated service

A run is any finite sequence of calls and of queued failures.  Queues and counters aside, each
operation does one of three things (`Step`): nothing, the opening of a session, or one accepted
turn of a session.  The accepted turns of a run, in their order, are its moves; facts about runs
are proved by the induction principle `run_induction`, which carries the moves along.
-/
import Mathlib
import Punter.Proofs.Simulation.Calls
import Punter.Service.World

namespace Punter.Simulation

/-- Something that is done with the service: a call, or the queueing of failures. -/
inductive Operation (α : Type) where
  | call (c : Call α) (now : Duration)
  | inject (k : CallKind) (es : List ServiceError)

/-- An accepted play of a session. -/
structure Move (α : Type) where
  session : SessionId
  play : Play α
  /-- The session before the play. -/
  before : Game α
  turn : Turn α

namespace Move

variable {α : Type}

/-- Whether a move spins the reels.  A spin in any other phase is a turn without effect. -/
def isSpin (m : Move α) : Bool := m.before.phase = .playing && m.play.action.kind = .spin

/-- The observation with which a move is answered. -/
def observation (m : Move α) : Observation α := m.turn.after.observation (some m.turn.result)

end Move

/-- The session, the play and its answer, where an exchange is an accepted play. -/
def acceptedPlay {α : Type} : Exchange α → Option (SessionId × Play α × Observation α)
  | ⟨_, .play session p, .ok o⟩ => some (session, p, o)
  | _ => none

/-- The play and its answer, where an exchange is an accepted play of a session. -/
def accepted {α : Type} (id : SessionId) : Exchange α → Option (Play α × Observation α)
  | ⟨_, .play session p, .ok o⟩ => if session = id then some (p, o) else none
  | _ => none

namespace State

variable {γ α : Type} [Scalar α] [Chance γ α]

/-- The state after an operation. -/
def after (s : State γ α) : Operation α → State γ α
  | .call c now => (s.answer c now).2
  | .inject k es => s.inject k es

/-- The state after a run. -/
def run (s : State γ α) (ops : List (Operation α)) : State γ α := ops.foldl after s

/-- The move that an operation makes, if it makes one: a play that is answered with success. -/
def move? (s : State γ α) : Operation α → Option (Move α)
  | .call (.play id p) now =>
    match s.answer (.play id p) now, s.find? id with
    | (.ok _, _), some h =>
      match h.game.play s.settings p.action s.chances with
      | (.ok t, _, _) => some ⟨id, p, h.game, t⟩
      | (.error _, _, _) => none
    | _, _ => none
  | _ => none

/-- The moves of a run, in their order. -/
def moves (s : State γ α) : List (Operation α) → List (Move α)
  | [] => []
  | op :: ops => (s.move? op).toList ++ (s.after op).moves ops

/-- The calls of a run with their outcomes, in their order. -/
def exchanges (s : State γ α) : List (Operation α) → List (Exchange α)
  | [] => []
  | .call c now :: ops => ⟨now, c, (s.answer c now).1⟩ :: (s.after (.call c now)).exchanges ops
  | .inject k es :: ops => (s.inject k es).exchanges ops

/-- What an operation does to a service, queues and counters aside. -/
inductive Step (s : State γ α) : Operation α → Option (Move α) → State γ α → Prop
  /-- Nothing happens. -/
  | quiet {op : Operation α} (u : State γ α) : Step s op none (s.withTallies u)
  /-- A session is opened. -/
  | opened {game : GameId} {player : Player α} {now : Duration} (u : State γ α) :
      Step s (.call (.create game player) now) none ((s.create game player).2.withTallies u)
  /-- A session makes a turn. -/
  | played {id : SessionId} {p : Play α} {now : Duration} {h : Held α} {t : Turn α} {c : γ}
      (found : s.find? id = some h)
      (plays : h.game.Plays s.settings p.action s.chances t c) (u : State γ α) :
      Step s (.call (.play id p) now) (some ⟨id, p, h.game, t⟩)
        ((s.settled now h p t c).withTallies u)

/-- An answer with success is the one of the served call. -/
lemma answer_eq_ok {s s' : State γ α} {c : Call α} {now : Duration} {o : c.Answer}
    (h : s.answer c now = (.ok o, s')) :
    ∃ s'' u, s.serve c now = (.ok o, s'') ∧ s' = s''.withTallies u := by
  cases hk : CallKind.of? c with
  | none =>
    cases c <;> cases hk
    exact ⟨s', s', h, rfl⟩
  | some k =>
    cases hq : s.failures.of k with
    | nil =>
      rw [answer_eq_serve hk hq, Prod.mk.injEq] at h
      exact ⟨_, s.count k, Prod.ext h.1 rfl, h.2.symm⟩
    | cons e es =>
      rw [answer_of_cons hk hq] at h
      simp at h

/-- An answer with a failure is a queued failure, or the call is refused when it is served.
Either way nothing but queues and counters changes. -/
lemma answer_eq_error {s s' : State γ α} {c : Call α} {now : Duration} {e : ServiceError}
    (h : s.answer c now = (.error e, s')) :
    ((∃ k, CallKind.of? c = some k ∧ (s.failures.of k).head? = some e) ∨
        s.serve c now = (.error e, s)) ∧
      ∃ u, s' = s.withTallies u := by
  cases hk : CallKind.of? c with
  | none =>
    cases c <;> cases hk
    simp [answer_health] at h
  | some k =>
    cases hq : s.failures.of k with
    | nil =>
      rw [answer_eq_serve hk hq, Prod.mk.injEq] at h
      obtain ⟨hs, -⟩ := serve_eq_error (Prod.ext h.1 rfl : s.serve c now = (.error e, _))
      exact ⟨Or.inr (Prod.ext h.1 hs), s.count k,
        h.2.symm.trans (congrArg (fun u => withTallies u (s.count k)) hs)⟩
    | cons e' es =>
      rw [answer_of_cons hk hq, Prod.mk.injEq, Except.error.injEq] at h
      obtain ⟨rfl, rfl⟩ := h
      exact ⟨Or.inl ⟨k, rfl, by rw [hq]; rfl⟩, (s.count k).queue k es, rfl⟩

/-- An accepted play makes a turn of its session; its answer shows the session after it. -/
lemma answer_play_eq_ok {s s' : State γ α} {id : SessionId} {p : Play α} {now : Duration}
    {o : Observation α} (h : s.answer (.play id p) now = (.ok o, s')) :
    ∃ held t c u, s.find? id = some held ∧
      held.game.Plays s.settings p.action s.chances t c ∧
      o = t.after.observation (some t.result) ∧
      s' = (s.settled now held p t c).withTallies u := by
  obtain ⟨s'', u, hserve, rfl⟩ := answer_eq_ok h
  obtain ⟨held, t, c, found, plays, ho, rfl⟩ := play_eq_ok hserve
  exact ⟨held, t, c, u, found, plays, ho, rfl⟩

lemma move?_play_of_error {s s' : State γ α} {id : SessionId} {p : Play α} {now : Duration}
    {e : ServiceError} (h : s.answer (.play id p) now = (.error e, s')) :
    s.move? (.call (.play id p) now) = none := by
  simp only [move?, h]

lemma move?_play_of_ok {s s' : State γ α} {id : SessionId} {p : Play α} {now : Duration}
    {o : Observation α} {held : Held α} {t : Turn α} {c : γ}
    (h : s.answer (.play id p) now = (.ok o, s')) (found : s.find? id = some held)
    (plays : held.game.Plays s.settings p.action s.chances t c) :
    s.move? (.call (.play id p) now) = some ⟨id, p, held.game, t⟩ := by
  simp only [move?, h, found, Game.play_of_plays plays]

/-- Every operation is a step. -/
theorem step_after (s : State γ α) (op : Operation α) : Step s op (s.move? op) (s.after op) := by
  cases op with
  | inject k es => exact .quiet (s.inject k es)
  | call c now =>
    rcases h : s.answer c now with ⟨e | o, s'⟩ <;>
      rw [show s.after (.call c now) = s' from congrArg Prod.snd h]
    · have hmove : s.move? (.call c now) = none := by
        cases c with
        | play id p => exact move?_play_of_error h
        | _ => rfl
      obtain ⟨-, u, rfl⟩ := answer_eq_error h
      rw [hmove]
      exact .quiet u
    · cases c with
      | play id p =>
        obtain ⟨held, t, c, u, found, plays, -, rfl⟩ := answer_play_eq_ok h
        rw [move?_play_of_ok h found plays]
        exact .played found plays u
      | create game player =>
        obtain ⟨s'', u, hserve, rfl⟩ := answer_eq_ok h
        obtain rfl := congrArg Prod.snd hserve
        exact .opened u
      | _ =>
        -- reads change nothing
        obtain ⟨s'', u, hserve, rfl⟩ := answer_eq_ok h
        obtain rfl := congrArg Prod.snd hserve
        exact .quiet u

/-- What holds of a state with the moves so far and is kept by every step holds after a run. -/
theorem run_induction {P : List (Move α) → State γ α → Prop}
    (step : ∀ {ms s op m s'}, P ms s → Step s op m s' → P (ms ++ m.toList) s')
    (ops : List (Operation α)) (ms : List (Move α)) {s : State γ α} (h : P ms s) :
    P (ms ++ s.moves ops) (s.run ops) := by
  induction ops generalizing ms s with
  | nil => simpa [moves, run] using h
  | cons op ops ih =>
    have hstep := ih _ (step h (step_after s op))
    simpa [moves, run, List.append_assoc] using hstep

lemma run_append (s : State γ α) (ops more : List (Operation α)) :
    s.run (ops ++ more) = (s.run ops).run more :=
  List.foldl_append

lemma moves_append (s : State γ α) (ops more : List (Operation α)) :
    s.moves (ops ++ more) = s.moves ops ++ (s.run ops).moves more := by
  induction ops generalizing s with
  | nil => rfl
  | cons op ops ih =>
    rw [List.cons_append, moves, moves, ih (s.after op), List.append_assoc]
    rfl

/-- An operation opens one session at most. -/
lemma Step.opened_le {s s' : State γ α} {op : Operation α} {m : Option (Move α)}
    (h : Step s op m s') : s'.opened ≤ s.opened + 1 := by
  cases h with
  | quiet u => exact Nat.le_succ _
  | opened u => exact Nat.le_refl _
  | played _ _ u => exact settled_opened.trans_le (Nat.le_succ _)

lemma opened_run_le (s : State γ α) (ops : List (Operation α)) :
    (s.run ops).opened ≤ s.opened + ops.length := by
  induction ops generalizing s with
  | nil => exact Nat.le_refl _
  | cons op ops ih =>
    have hafter : (s.after op).opened ≤ s.opened + 1 := (step_after s op).opened_le
    have hrun : (s.run (op :: ops)).opened ≤ (s.after op).opened + ops.length := ih (s.after op)
    rw [List.length_cons]
    omega

/-- The accepted plays are answered as the moves say. -/
lemma acceptedPlay_exchanges (s : State γ α) (ops : List (Operation α)) :
    (s.exchanges ops).filterMap acceptedPlay =
      (s.moves ops).map fun m => (m.session, m.play, m.observation) := by
  induction ops generalizing s with
  | nil => rfl
  | cons op ops ih =>
    cases op with
    | inject k es => simpa [exchanges, moves, move?, after] using ih (s.inject k es)
    | call c now =>
      simp only [exchanges, moves, List.filterMap_cons, ih, List.map_append]
      cases c with
      | play session p =>
        rcases h : s.answer (.play session p) now with ⟨e | o, s'⟩
        · simp [acceptedPlay, move?_play_of_error h]
        · obtain ⟨held, t, c, u, found, plays, rfl, -⟩ := answer_play_eq_ok h
          rw [move?_play_of_ok h found plays]
          simp [acceptedPlay, Move.observation]
      | _ => simp [acceptedPlay, move?]

omit [Scalar α] [Chance γ α] in
lemma accepted_eq_bind (id : SessionId) (x : Exchange α) :
    accepted id x = (acceptedPlay x).bind fun a => if a.1 = id then some a.2 else none := by
  obtain ⟨now, c, o⟩ := x
  cases c <;> cases o <;> rfl

/-- The accepted plays of a session are answered as its moves say. -/
lemma accepted_exchanges (s : State γ α) (ops : List (Operation α)) (id : SessionId) :
    (s.exchanges ops).filterMap (accepted id) =
      ((s.moves ops).filter fun m => m.session = id).map fun m => (m.play, m.observation) := by
  rw [funext (accepted_eq_bind id), ← List.filterMap_filterMap, acceptedPlay_exchanges,
    List.filterMap_map, ← List.filterMap_eq_map, List.filterMap_filter]
  refine List.filterMap_congr fun m _ => ?_
  simp

end State

end Punter.Simulation
