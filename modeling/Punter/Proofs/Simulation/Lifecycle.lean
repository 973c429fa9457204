/-
# The lifecycle of simulated sessions

A session of the simulated service moves along the edges of a fixed diagram (`Edge`), and what is
staked, spun and left in its wallet stays within bounds (`Game.Sound`).  The bounds carry each
other: a bet checks its stake against the wallet, the stake is then kept through an optional
second bet, and so the spin that uses it up can never overdraw the wallet.
-/
import Mathlib
import Punter.Proofs.Number.Exact
import Punter.Proofs.Simulation.Runs

namespace Punter.Simulation

/-- The edges of the lifecycle.  The first bet leads to a probing phase where there is one, and a
spin ends the session if it leaves it exhausted. -/
inductive Edge (probeRound : Bool) (exhausted : Prop) : Phase → ActionKind → Phase → Prop
  | first (h : probeRound = false) : Edge probeRound exhausted .initialized .placeBet .playing
  | probe (h : probeRound = true) : Edge probeRound exhausted .initialized .placeBet .probing
  | second : Edge probeRound exhausted .probing .placeBet .playing
  | spin (h : ¬ exhausted) : Edge probeRound exhausted .playing .spin .evaluating
  | lastSpin (h : exhausted) : Edge probeRound exhausted .playing .spin .completed
  | again : Edge probeRound exhausted .evaluating .placeBet .playing
  | cashOut : Edge probeRound exhausted .evaluating .cashOut .completed

namespace Game

/-- The spins of a session are used up, or its wallet is empty. -/
def Exhausted (settings : Settings ℚ) (g : Game ℚ) : Prop :=
  settings.spinsPerSession ≤ g.counters.totalSpins ∨ g.balance ≤ 0

/-- What holds of every session at any time. -/
structure Sound (settings : Settings ℚ) (g : Game ℚ) : Prop where
  not_idle : g.phase ≠ .idle
  /-- A stake is pending exactly in the phases between a bet and its spin. -/
  pending_iff : g.pending.isSome = true ↔ g.phase = .probing ∨ g.phase = .playing
  stake_pos : ∀ m, g.pending = some m → 0 < m.amount
  /-- The wallet holds the pending stake. -/
  stake_le_balance : ∀ m, g.pending = some m → m.amount ≤ g.balance
  stake_le_maxBet : settings.enforceMaxBet = true →
    ∀ m most, g.pending = some m → g.maxBet = some most → m.amount ≤ most
  spins_le : g.counters.totalSpins ≤ max 1 settings.spinsPerSession
  spins_lt : g.phase ≠ .completed → g.counters.totalSpins < max 1 settings.spinsPerSession
  /-- A session that has spun and goes on has something left in its wallet. -/
  balance_pos : 0 < g.counters.totalSpins → g.phase ≠ .completed → 0 < g.balance
  balance_nonneg : 0 ≤ settings.startingBalance → 0 ≤ g.balance

lemma sound_new (settings : Settings ℚ) (game : GameId) (player : Player ℚ) :
    (new settings game player).Sound settings where
  not_idle := by simp [new]
  pending_iff := by simp [new]
  stake_pos := by simp [new]
  stake_le_balance := by simp [new]
  stake_le_maxBet := by simp [new]
  spins_le := by simp [new, Counters.zero]
  spins_lt := by simp [new, Counters.zero]
  balance_pos := by simp [new, Counters.zero]
  balance_nonneg := fun h => h

end Game

/-! ## Payouts -/

section Payouts

variable {γ : Type} [Chance γ ℚ]

lemma multipliers_pos (i : Fin 3) : (0 : ℚ) < multipliers.get i := by
  fin_cases i <;> simp [multipliers] <;> norm_num

lemma multiplier_draw (probability : ℚ) (c : γ) :
    (Spin.draw probability c).1.multiplier = none ∨
      ∃ i : Fin 3, (Spin.draw probability c).1.multiplier = some (multipliers.get i) := by
  unfold Spin.draw
  dsimp only
  split
  · exact Or.inr ⟨_, rfl⟩
  · exact Or.inl rfl

lemma payout_nonneg (probability : ℚ) (c : γ) {stake : ℚ} (h : 0 ≤ stake) :
    0 ≤ (Spin.draw probability c).1.payout stake := by
  unfold Spin.payout
  rcases multiplier_draw probability c with hm | ⟨i, hm⟩ <;> rw [hm]
  · simp
  · exact mul_nonneg h (multipliers_pos i).le

end Payouts

/-! ## One turn -/

namespace Game

variable {γ : Type} [Chance γ ℚ] {settings : Settings ℚ} {g : Game ℚ} {a : Action ℚ} {c c' : γ}
  {t : Turn ℚ}

/-- A session that is still open after a spin has spins left and something in its wallet. -/
lemma exhausted_spin_iff (settings : Settings ℚ) (g : Game ℚ) (m : Money ℚ) (s : Spin ℚ) :
    (g.spin settings m s).after.Exhausted settings ↔
      (g.spin settings m s).after.phase = .completed := by
  simp only [spin, Exhausted, Scalar.zero_eq]
  split
  · next h => simpa using h
  · next h => simpa using h

lemma phase_spin (settings : Settings ℚ) (g : Game ℚ) (m : Money ℚ) (s : Spin ℚ) :
    (g.spin settings m s).after.phase = .completed ∨
      (g.spin settings m s).after.phase = .evaluating := by
  simp only [spin]
  split <;> simp

lemma edge_spin (probeRound : Bool) (m : Money ℚ) (s : Spin ℚ) :
    Edge probeRound ((g.spin settings m s).after.Exhausted settings) .playing .spin
      (g.spin settings m s).after.phase := by
  rcases phase_spin settings g m s with h | h
  · rw [h]
    exact .lastSpin ((exhausted_spin_iff settings g m s).mpr h)
  · rw [h]
    exact .spin fun hexh => by simp [(exhausted_spin_iff settings g m s).mp hexh] at h

lemma edge_bet (settings : Settings ℚ) (m : Money ℚ) (exhausted : Prop)
    (kind : a.kind = .placeBet)
    (phase : g.phase = .initialized ∨ g.phase = .probing ∨ g.phase = .evaluating) :
    Edge settings.probeRound exhausted g.phase a.kind (g.bet settings m).after.phase := by
  rcases phase with h | h | h
  · cases hprobe : settings.probeRound
    · simpa [bet, idle, h, kind, hprobe] using Edge.first rfl
    · simpa [bet, idle, h, kind, hprobe] using Edge.probe rfl
  · simpa [bet, idle, h, kind] using Edge.second
  · simpa [bet, idle, h, kind] using Edge.again

lemma sound_bet (hg : g.Sound settings) {amount : Option (Money ℚ)} {m : Money ℚ}
    (phase : g.phase = .initialized ∨ g.phase = .probing ∨ g.phase = .evaluating)
    (stake : g.stakeOf settings amount = .ok m) : (g.bet settings m).after.Sound settings := by
  obtain ⟨-, -, hpos, hbalance, hmost⟩ := stakeOf_eq_ok stake
  have hopen : g.phase ≠ .completed := by rcases phase with h | h | h <;> simp [h]
  have hphase : (g.bet settings m).after.phase = .probing ∨
      (g.bet settings m).after.phase = .playing := by
    simp only [bet, idle]
    split <;> simp
  simp only [Scalar.zero_eq, not_le] at hpos
  refine
    { not_idle := ?_
      pending_iff := by simp [bet, idle]
      stake_pos := ?_
      stake_le_balance := ?_
      stake_le_maxBet := ?_
      spins_le := hg.spins_le
      spins_lt := fun _ => hg.spins_lt hopen
      balance_pos := fun h _ => hg.balance_pos h hopen
      balance_nonneg := hg.balance_nonneg }
  · rcases hphase with h | h <;> simp [h]
  · rintro m' hm'
    obtain rfl := Option.some.inj hm'
    exact hpos
  · rintro m' hm'
    obtain rfl := Option.some.inj hm'
    exact not_lt.mp hbalance
  · rintro henforce m' most hm' hmost'
    obtain rfl := Option.some.inj hm'
    exact not_lt.mp (hmost henforce most hmost')

lemma sound_spin (hg : g.Sound settings) {m : Money ℚ} (phase : g.phase = .playing)
    (pending : g.pending = some m) (c : γ) :
    (g.spin settings m (Spin.draw settings.winProbability c).1).after.Sound settings := by
  have hpos := hg.stake_pos m pending
  have hle := hg.stake_le_balance m pending
  have hpay := payout_nonneg settings.winProbability c hpos.le
  have hspins := hg.spins_lt (by simp [phase])
  have hexh := exhausted_spin_iff settings g m
    (Spin.draw settings.winProbability c).1
  -- the wallet held the stake, so that it cannot be overdrawn
  have hbalance :
      0 ≤ (g.spin settings m (Spin.draw settings.winProbability c).1).after.balance := by
    simp only [spin]
    linarith
  have hphase := phase_spin settings g m (Spin.draw settings.winProbability c).1
  have hnone : (g.spin settings m (Spin.draw settings.winProbability c).1).after.pending = none :=
    rfl
  generalize hspun : (g.spin settings m (Spin.draw settings.winProbability c).1).after = g' at *
  have htotal : g'.counters.totalSpins = g.counters.totalSpins + 1 := by rw [← hspun]; rfl
  refine
    { not_idle := by rcases hphase with h | h <;> simp [h]
      pending_iff := by rcases hphase with h | h <;> simp [h, hnone]
      stake_pos := by simp [hnone]
      stake_le_balance := by simp [hnone]
      stake_le_maxBet := by simp [hnone]
      spins_le := by omega
      spins_lt := ?_
      balance_pos := ?_
      balance_nonneg := fun _ => hbalance }
  · intro hopen
    have hleft := mt hexh.mp hopen
    simp only [Exhausted, not_or, not_le] at hleft
    exact lt_max_of_lt_right hleft.1
  · intro _ hopen
    have hleft := mt hexh.mp hopen
    simp only [Exhausted, not_or, not_le] at hleft
    exact hleft.2

lemma sound_cashOut (hg : g.Sound settings) (phase : g.phase = .evaluating) :
    ({ g with phase := .completed } : Game ℚ).Sound settings := by
  have hnone : g.pending.isSome = false := by
    rw [← Bool.not_eq_true, hg.pending_iff]
    simp [phase]
  have hnone' : g.pending = none := by simpa using hnone
  exact
    { not_idle := by simp
      pending_iff := by simp [hnone']
      stake_pos := by simp [hnone']
      stake_le_balance := by simp [hnone']
      stake_le_maxBet := by simp [hnone']
      spins_le := hg.spins_le
      spins_lt := fun h => absurd rfl h
      balance_pos := fun _ h => absurd rfl h
      balance_nonneg := hg.balance_nonneg }

/-- Every turn keeps the bounds. -/
theorem sound_of_plays (hg : g.Sound settings) (h : g.Plays settings a c t c') :
    t.after.Sound settings := by
  cases h with
  | bet _ phase stake => exact sound_bet hg phase stake
  | spin _ phase pending => exact sound_spin hg phase pending c
  | cashOut _ phase => exact sound_cashOut hg phase
  | idle _ _ => exact hg

/-- Every turn moves its session along an edge of the lifecycle, or leaves it unchanged. -/
theorem edge_of_plays (h : g.Plays settings a c t c') :
    Edge settings.probeRound (t.after.Exhausted settings) g.phase a.kind t.after.phase ∨
      settings.rejectInvalid = false ∧ t.after = g := by
  cases h with
  | bet kind phase _ => exact Or.inl (edge_bet settings _ _ kind phase)
  | spin kind phase _ =>
    left
    rw [phase, kind]
    exact edge_spin _ _ _
  | cashOut kind phase =>
    left
    simpa [idle, kind, phase] using Edge.cashOut
  | idle lenient _ => exact Or.inr ⟨lenient, rfl⟩

/-- A spin is never refused for a missing stake. -/
lemma ne_noStake_of_refuses (hg : g.Sound settings) {e : ServiceError}
    (h : g.Refuses settings a e) : e ≠ noStake := by
  cases h with
  | stake _ _ stake => exact stakeOf_ne_noStake stake
  | noStake _ phase pending =>
    have := hg.pending_iff.mpr (Or.inr phase)
    simp [pending] at this
  | misfit _ _ => exact unfit_ne_noStake _ _

end Game

/-! ## Whole runs -/

namespace State

variable {γ : Type} [Chance γ ℚ]

lemma sound_step {settings : Settings ℚ} {s s' : State γ ℚ} {op : Operation ℚ}
    {m : Option (Move ℚ)} (hs : s.settings = settings ∧ ∀ h ∈ s.held, h.game.Sound settings)
    (hstep : Step s op m s') :
    s'.settings = settings ∧ ∀ h ∈ s'.held, h.game.Sound settings := by
  obtain ⟨rfl, hsound⟩ := hs
  cases hstep with
  | quiet u => exact ⟨rfl, hsound⟩
  | opened u =>
    refine ⟨rfl, fun x hx => ?_⟩
    rcases mem_create hx with hx | rfl
    · exact hsound x hx
    · exact Game.sound_new _ _ _
  | played found plays u =>
    refine ⟨settled_settings, fun x hx => ?_⟩
    rcases mem_settled hx with hx | rfl
    · exact hsound x hx
    · exact Game.sound_of_plays (hsound _ (mem_of_find? found)) plays

/-- The bounds hold of every session that is held after a run. -/
theorem sound_run (settings : Settings ℚ) (names : Names) (chances : γ)
    (ops : List (Operation ℚ)) :
    ((new settings names chances).run ops).settings = settings ∧
      ∀ h ∈ ((new settings names chances).run ops).held, h.game.Sound settings :=
  run_induction (P := fun _ s => s.settings = settings ∧ ∀ h ∈ s.held, h.game.Sound settings)
    sound_step ops [] ⟨rfl, by simp [new]⟩

/-- A service that holds sound sessions only answers that a stake is missing where that failure
was queued. -/
lemma ne_noStake_of_answer {s s' : State γ ℚ} (hsound : ∀ h ∈ s.held, h.game.Sound s.settings)
    {c : Call ℚ} {now : Duration} {e : ServiceError} (h : s.answer c now = (.error e, s')) :
    e ≠ noStake ∨ ∃ k, CallKind.of? c = some k ∧ (s.failures.of k).head? = some e := by
  obtain ⟨hqueued | hserve, -⟩ := answer_eq_error h
  · exact Or.inr hqueued
  · left
    obtain ⟨-, ⟨id, rfl⟩ | ⟨held, hheld, a, hrefuses⟩⟩ := serve_eq_error hserve
    · simp [notFound, noStake]
    · exact Game.ne_noStake_of_refuses (hsound held hheld) hrefuses

/-- **Lifecycle and stakes.**  After any run of the simulated service every session it holds keeps
within its bounds; a further play that is accepted moves its session along an edge of the
lifecycle or, where actions that do not fit are let pass, leaves it unchanged; and no call is
answered with the failure of a missing stake unless that failure was queued for it. -/
theorem lifecycle_and_stakes (settings : Settings ℚ) (names : Names) (chances : γ)
    (ops : List (Operation ℚ)) :
    let s := (new settings names chances).run ops
    (∀ h ∈ s.held, h.game.Sound settings) ∧
      (∀ (id : SessionId) (p : Play ℚ) (now : Duration) (o : Observation ℚ) (s' : State γ ℚ),
        s.answer (.play id p) now = (.ok o, s') →
          ∃ (h : Held ℚ) (g : Game ℚ), s.find? id = some h ∧
            (Edge settings.probeRound (g.Exhausted settings) h.game.phase p.action.kind g.phase ∨
              settings.rejectInvalid = false ∧ g = h.game) ∧
            o.phase = g.phase ∧ o.counters = g.counters ∧
            ((s'.find? id).map Held.game = some g ∨
              g.phase = .completed ∧ s'.find? id = none)) ∧
      ∀ (c : Call ℚ) (now : Duration) (s' : State γ ℚ),
        s.answer c now = (.error noStake, s') →
          ∃ k, CallKind.of? c = some k ∧ (s.failures.of k).head? = some noStake := by
  intro s
  obtain ⟨hsettings, hsound⟩ := sound_run settings names chances ops
  refine ⟨hsound, ?_, ?_⟩
  · intro id p now o s' h
    obtain ⟨held, t, c, u, found, plays, rfl, rfl⟩ := answer_play_eq_ok h
    rw [show s.settings = settings from hsettings] at plays
    refine ⟨held, t.after, found, Game.edge_of_plays plays, rfl, rfl, ?_⟩
    obtain rfl := id_of_find? found
    rw [find?_withTallies]
    rcases find?_settled now p t c found with hfind | ⟨hphase, hfind⟩
    · exact Or.inl (by rw [hfind]; rfl)
    · exact Or.inr ⟨hphase, hfind⟩
  · intro c now s' h
    have hsound' : ∀ h ∈ s.held, h.game.Sound s.settings := by
      rw [show s.settings = settings from hsettings]
      exact hsound
    exact (ne_noStake_of_answer hsound' h).resolve_left (fun hne => hne rfl)

end State

end Punter.Simulation
