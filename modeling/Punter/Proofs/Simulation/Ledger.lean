/-
# The ledger of the simulated service

The service keeps the same facts in four places: in the fields of a session, in its counters, in
the list of its experiences, and in their rewards.  This file shows that they agree.  The
experiences form a chain from the opening of the session to its present state, and counters,
wallet and rewards are sums over the moves that led there: counters and wallet over the spins
alone, rewards over all moves, since moves without effect cost as well.
-/
import Mathlib
import Punter.Proofs.Number.Exact
import Punter.Proofs.Simulation.Records
import Punter.Random.Generator

namespace Punter.Simulation

/-! ## The chain of experiences -/

section Chain

variable {γ α : Type}

/-- Experiences that lead from one state to another, each of them starting where the one before
it ended. -/
def Chained (first : Json α) : List (Experience α) → Json α → Prop
  | [], last => first = last
  | e :: es, last => e.state = first ∧ Chained e.nextState es last

lemma chained_append_singleton {first last : Json α} {es : List (Experience α)}
    {e : Experience α} :
    Chained first (es ++ [e]) last ↔ Chained first es e.state ∧ e.nextState = last := by
  induction es generalizing first with
  | nil => simp [Chained, eq_comm]
  | cons e' es ih => simp [Chained, ih, and_assoc]

variable [Scalar α]

/-- The name of the phase in a snapshot. -/
lemma get?_state_snapshot (g : Game α) :
    g.snapshot.get? "state" = some (.str g.phase.label) := by
  simp [Game.snapshot, Json.get?]

lemma label_eq_completed_iff (p : Phase) : p.label = Phase.completed.label ↔ p = .completed := by
  cases p <;> simp [Phase.label]

variable [Chance γ α] {settings : Settings α} {start g : Game α} {ms : List (Move α)}
  {es : List (Experience α)}

lemma length_of_leads (h : Leads γ settings start ms es g) : es.length = ms.length := by
  induction h with
  | nil => rfl
  | snoc _ _ _ ih => simp [ih]

lemma chained_of_leads (h : Leads γ settings start ms es g) :
    Chained start.snapshot es g.snapshot := by
  induction h with
  | nil => rfl
  | snoc _ _ records ih =>
    rw [chained_append_singleton, records.state]
    exact ⟨ih, records.nextState⟩

/-- The last move of a session shows it as it is now. -/
lemma after_getLast?_of_leads (h : Leads γ settings start ms es g) {m : Move α}
    (hm : ms.getLast? = some m) : m.turn.after = g := by
  cases h with
  | nil => simp at hm
  | snoc _ _ _ =>
    rw [List.getLast?_concat, Option.some.injEq] at hm
    rw [hm]

/-- An experience ends its session exactly if it leads to a completed state. -/
lemma done_iff_of_leads (h : Leads γ settings start ms es g) :
    ∀ e ∈ es, e.done = true ↔
      e.nextState.get? "state" = some (.str Phase.completed.label) := by
  induction h with
  | nil => simp
  | snoc _ _ records ih =>
    intro e he
    rcases List.mem_append.mp he with he | he
    · exact ih e he
    · rw [List.mem_singleton.mp he, records.done, records.nextState, get?_state_snapshot,
        Phase.isTerminal_iff, Option.some.injEq, Json.str.injEq, label_eq_completed_iff]

lemma completed_of_done (h : Leads γ settings start ms es g) :
    ∀ e ∈ es, e.done = true → g.phase = .completed := by
  induction h with
  | nil => simp
  | snoc _ plays records ih =>
    intro e he hdone
    rcases List.mem_append.mp he with he | he
    · have hbefore := ih e he hdone
      rw [plays.after_eq hbefore]
      exact hbefore
    · rw [List.mem_singleton.mp he, records.done] at hdone
      exact (Phase.isTerminal_iff _).mp hdone

/-- Experiences after one that ends the session end it as well. -/
lemma pairwise_done_of_leads (h : Leads γ settings start ms es g) :
    es.Pairwise fun a b => a.done = true → b.done = true := by
  induction h with
  | nil => exact List.Pairwise.nil
  | snoc before plays records ih =>
    refine List.pairwise_append.mpr ⟨ih, List.pairwise_singleton _ _, ?_⟩
    intro a ha b hb hdone
    have hbefore := completed_of_done before a ha hdone
    rw [List.mem_singleton.mp hb, records.done, plays.after_eq hbefore]
    exact (Phase.isTerminal_iff _).mpr hbefore

end Chain

/-! ## The sums -/

section Sums

variable {γ : Type} [Chance γ ℚ] {settings : Settings ℚ} {start g : Game ℚ} {ms : List (Move ℚ)}
  {es : List (Experience ℚ)}

/-- A spin stakes what is pending and pays what it shows; counters and wallet follow. -/
structure Move.Spins (m : Move ℚ) : Prop where
  result : ∃ currency, m.before.pending = some ⟨m.turn.stake, currency⟩ ∧
    m.turn.result.payout = some ⟨m.turn.payout, currency⟩
  totalSpins : m.turn.after.counters.totalSpins = m.before.counters.totalSpins + 1
  totalPayout : m.turn.after.counters.totalPayout =
    m.before.counters.totalPayout + m.turn.payout
  balance : m.turn.after.balance = m.before.balance + (m.turn.payout - m.turn.stake)

/-- A move that is no spin costs nothing and pays nothing; counters and wallet stay. -/
structure Move.Rests (m : Move ℚ) : Prop where
  stake : m.turn.stake = 0
  payout : m.turn.payout = 0
  counters : m.turn.after.counters = m.before.counters
  balance : m.turn.after.balance = m.before.balance

lemma spins_or_rests {m : Move ℚ} {c c' : γ}
    (h : m.before.Plays settings m.play.action c m.turn c') :
    m.isSpin = true ∧ m.Spins ∨ m.isSpin = false ∧ m.Rests := by
  obtain ⟨session, p, before, turn⟩ := m
  dsimp only at h
  cases h with
  | spin kind phase pending =>
    left
    exact ⟨by simp [Move.isSpin, kind, phase], ⟨_, pending, rfl⟩, rfl, rfl, rfl⟩
  | bet kind phase _ =>
    right
    refine ⟨by simp [Move.isSpin, kind], ?_⟩
    constructor <;> simp [Game.bet, Game.idle]
  | cashOut kind phase =>
    right
    refine ⟨by simp [Move.isSpin, kind], ?_⟩
    constructor <;> simp [Game.idle]
  | idle _ misfit =>
    right
    refine ⟨?_, ?_⟩
    · rw [← Bool.not_eq_true]
      intro hspin
      simp only [Move.isSpin, Bool.and_eq_true, decide_eq_true_eq] at hspin
      simp [fits, hspin.1, hspin.2] at misfit
    · constructor <;> simp [Game.idle]

lemma totalSpins_of_leads (h : Leads γ settings start ms es g) :
    g.counters.totalSpins = start.counters.totalSpins + (ms.filter Move.isSpin).length := by
  induction h with
  | nil => simp
  | snoc _ plays _ ih =>
    rcases spins_or_rests plays with ⟨hspin, hm⟩ | ⟨hspin, hm⟩
    · simp [hspin, hm.totalSpins, ih, Nat.add_assoc]
    · simp [hspin, hm.counters, ih]

lemma totalPayout_of_leads (h : Leads γ settings start ms es g) :
    g.counters.totalPayout =
      start.counters.totalPayout + ((ms.filter Move.isSpin).map (·.turn.payout)).sum := by
  induction h with
  | nil => simp
  | snoc _ plays _ ih =>
    rcases spins_or_rests plays with ⟨hspin, hm⟩ | ⟨hspin, hm⟩
    · simp [hspin, hm.totalPayout, ih, add_assoc]
    · simp [hspin, hm.counters, ih]

lemma balance_of_leads (h : Leads γ settings start ms es g) :
    g.balance = start.balance +
      ((ms.filter Move.isSpin).map fun m => m.turn.payout - m.turn.stake).sum := by
  induction h with
  | nil => simp
  | snoc _ plays _ ih =>
    rcases spins_or_rests plays with ⟨hspin, hm⟩ | ⟨hspin, hm⟩
    · simp [hspin, hm.balance, ih, add_assoc]
    · simp [hspin, hm.balance, ih]

/-- The reward of a move is what it did to the wallet, less its cost, and more for its pace. -/
lemma reward_eq {m : Move ℚ} {e : Experience ℚ} {c c' : γ}
    (plays : m.before.Plays settings m.play.action c m.turn c')
    (records : m.RecordedAs settings e) :
    e.reward = (m.turn.after.balance - m.before.balance) - settings.costPerSpin +
      settings.likenessWeight * max 0 (min 1 m.play.humanLikeness) := by
  rw [records.reward, Turn.reward, Scalar.clamp_unit]
  rcases spins_or_rests plays with ⟨-, hm⟩ | ⟨-, hm⟩
  · rw [hm.balance]
    ring
  · rw [hm.balance, hm.stake, hm.payout]
    ring

lemma rewards_of_leads (h : Leads γ settings start ms es g) :
    (es.map (·.reward)).sum = (g.balance - start.balance) - es.length * settings.costPerSpin +
      settings.likenessWeight * (ms.map fun m => max 0 (min 1 m.play.humanLikeness)).sum := by
  induction h with
  | nil => simp
  | snoc _ plays records ih =>
    simp only [List.map_append, List.sum_append, List.map_cons, List.map_nil, List.sum_cons,
      List.sum_nil, List.length_append, List.length_cons, List.length_nil, ih,
      reward_eq plays records]
    push_cast
    ring

lemma spins_of_leads (h : Leads γ settings start ms es g) :
    ∀ m ∈ ms.filter Move.isSpin, m.Spins := by
  induction h with
  | nil => simp
  | snoc _ plays _ ih =>
    intro m hm
    rw [List.filter_append] at hm
    rcases List.mem_append.mp hm with hm | hm
    · exact ih m hm
    · simp only [List.mem_filter, List.mem_singleton] at hm
      obtain ⟨rfl, hspin⟩ := hm
      rcases spins_or_rests plays with ⟨-, hm⟩ | ⟨hno, -⟩
      · exact hm
      · simp [hspin] at hno

end Sums

/-! ## Log and ledger -/

/-- The log `es` and the ledger of a session agree with its accepted plays, which are given with
their answers, and with the moves that these made. -/
structure Held.Agrees (settings : Settings ℚ) (plays : List (Play ℚ × Observation ℚ))
    (moves : List (Move ℚ)) (es : List (Experience ℚ)) (h : Held ℚ) : Prop where
  answered : plays = moves.map fun m => (m.play, m.observation)
  logged : es.length = plays.length
  /-- The snapshot of a new session shows neither its game nor its player. -/
  chained : ∀ game player,
    Chained (Game.new settings game player).snapshot es h.game.snapshot
  done_iff : ∀ e ∈ es, e.done = true ↔
    e.nextState.get? "state" = some (.str Phase.completed.label)
  done_after : es.Pairwise fun a b => a.done = true → b.done = true
  spins : ∀ m ∈ moves.filter Move.isSpin, m.Spins
  totalSpins : h.game.counters.totalSpins = (moves.filter Move.isSpin).length
  totalPayout : h.game.counters.totalPayout =
    ((moves.filter Move.isSpin).map (·.turn.payout)).sum
  balance : h.game.balance = settings.startingBalance +
    ((moves.filter Move.isSpin).map fun m => m.turn.payout - m.turn.stake).sum
  rewards : (es.map (·.reward)).sum =
    (h.game.balance - settings.startingBalance) -
        es.length * settings.costPerSpin +
      settings.likenessWeight * (plays.map fun p => max 0 (min 1 p.1.humanLikeness)).sum

lemma agrees_of_leads {γ : Type} [Chance γ ℚ] {settings : Settings ℚ} {game : GameId}
    {player : Player ℚ} {plays : List (Play ℚ × Observation ℚ)} {moves : List (Move ℚ)}
    {es : List (Experience ℚ)} {h : Held ℚ}
    (leads : Leads γ settings (.new settings game player) moves es h.game)
    (answered : plays = moves.map fun m => (m.play, m.observation)) :
    h.Agrees settings plays moves es where
  answered := answered
  logged := by
    rw [answered, List.length_map]
    exact length_of_leads leads
  chained := by
    intro game' player'
    change Chained (Game.new settings game player).snapshot es h.game.snapshot
    exact chained_of_leads leads
  done_iff := done_iff_of_leads leads
  done_after := pairwise_done_of_leads leads
  spins := spins_of_leads leads
  totalSpins := by
    rw [totalSpins_of_leads leads]
    exact Nat.zero_add _
  totalPayout := by
    rw [totalPayout_of_leads leads]
    simp [Game.new, Counters.zero]
  balance := balance_of_leads leads
  rewards := by
    rw [answered, List.map_map]
    exact rewards_of_leads leads

namespace State

variable {γ : Type} [Chance γ ℚ]

/-- **Log and ledger.**  Take any run of the simulated service in which no identifier is given
twice, and a session that is held after it, with the accepted plays that were addressed to it.
There is one experience for each of them.  The experiences form a chain from the opening to the
present state of the session, which is what the last play was answered with; an experience is
marked as the last one exactly if it leads to completion, and then all later ones are as well.
The session has made as many spins as it counts; they paid what it counts and changed its wallet
from what it held at first to what it holds now.  The rewards add up to the change of the wallet,
less the cost of every play, and more for its pace. -/
theorem log_and_ledger (settings : Settings ℚ) (names : Names) (chances : γ)
    (ops : List (Operation ℚ))
    (distinct : names.Distinct ((new settings names chances).run ops).opened) :
    let s := (new settings names chances).run ops
    ∀ h ∈ s.held,
      let plays := ((new settings names chances).exchanges ops).filterMap (accepted h.id)
      let moves := ((new settings names chances).moves ops).filter fun m => m.session = h.id
      h.Agrees settings plays moves (s.records.of h.id) ∧
        ∀ p o, plays.getLast? = some (p, o) → s.get h.id = .ok ⟨o.phase, none, o.counters⟩ := by
  intro s h hh plays moves
  have haccounts := accounts_run settings names chances ops distinct
  obtain ⟨game, player, hleads⟩ := haccounts.accounted h hh
  have hplays : plays = moves.map fun m => (m.play, m.observation) :=
    accepted_exchanges (new settings names chances) ops h.id
  refine ⟨agrees_of_leads hleads hplays, ?_⟩
  intro p o ho
  rw [hplays, List.getLast?_map, Option.map_eq_some_iff] at ho
  obtain ⟨m, hm, hmo⟩ := ho
  obtain ⟨-, rfl⟩ := Prod.mk.inj hmo
  have hafter := after_getLast?_of_leads hleads hm
  rw [haccounts.get_eq hh, ← hafter]
  rfl

/-- Two sessions, of which the second makes a bet, a spin and a bet that is refused. -/
theorem log_and_ledger_two :
    let create : Operation ℚ := .call (.create .nil ⟨"cautious", none⟩) .zero
    let play (kind : ActionKind) (amount : Option (Money ℚ)) : Operation ℚ :=
      .call (.play ⟨1⟩ ⟨⟨kind, amount⟩, 1⟩) .zero
    let ops := [create, create, play .placeBet (some ⟨5, .usd⟩), play .spin none,
      play .placeBet (some ⟨1000, .usd⟩)]
    let start : State Generator ℚ := new .standard .counting (Generator.ofSeed 7)
    Names.counting.Distinct (start.run ops).opened ∧
      ∃ h ∈ (start.run ops).held, h.id = ⟨1⟩ ∧
        ((start.run ops).records.of ⟨1⟩).length = 2 ∧
        h.Agrees .standard ((start.exchanges ops).filterMap (accepted h.id))
          ((start.moves ops).filter fun m => m.session = h.id) ((start.run ops).records.of h.id) := by
  intro create play ops start
  have hdistinct : Names.counting.Distinct (start.run ops).opened :=
    Names.distinct_counting ((opened_run_le start ops).trans (by decide))
  have hsome : ((start.run ops).find? ⟨1⟩).isSome = true := by decide +kernel
  obtain ⟨h, found⟩ := Option.isSome_iff_exists.mp hsome
  obtain ⟨hagrees, -⟩ :=
    log_and_ledger .standard .counting (Generator.ofSeed 7) ops hdistinct h (mem_of_find? found)
  refine ⟨hdistinct, h, mem_of_find? found, id_of_find? found, ?_, hagrees⟩
  rw [← id_of_find? found, hagrees.logged, id_of_find? found]
  decide +kernel

end State

end Punter.Simulation
