/-
# Solvent sessions

A spin takes its stake from the wallet and nothing more, and a session makes a limited number of
spins.  So a wallet that holds the highest stake for every spin that is left goes on doing so, as
long as all bets are moderate (`Game.Solvent`), and no such bet has to be refused for want of money.
Where nothing else is a reason to refuse an action either, none is refused at all.
-/
import Mathlib
import Punter.Proofs.Policy.Stakes
import Punter.Proofs.Simulation.Lifecycle
import Punter.Proofs.Simulation.Retried

namespace Punter.Simulation

/-- Settings that give no reason to refuse moderate actions: actions that do not fit are let pass,
so are stakes above the announced maximum, and a new wallet holds the highest stake for every
spin. -/
structure Settings.Generous (settings : Settings ℚ) : Prop where
  lenient : settings.rejectInvalid = false
  unlimited : settings.enforceMaxBet = false
  covered : 100 * (max 1 settings.spinsPerSession : ℕ) ≤ settings.startingBalance

namespace Game

/-- The wallet holds the highest stake for every spin that is left. -/
structure Solvent (settings : Settings ℚ) (g : Game ℚ) : Prop where
  sound : g.Sound settings
  pending_le : ∀ m, g.pending = some m → m.amount ≤ 100
  covered : 100 * ((max 1 settings.spinsPerSession : ℕ) - g.counters.totalSpins : ℚ) ≤ g.balance

variable {γ : Type} [Chance γ ℚ] {settings : Settings ℚ} {g : Game ℚ} {a : Action ℚ}

lemma solvent_new (generous : settings.Generous) (game : GameId) (player : Player ℚ) :
    (new settings game player).Solvent settings where
  sound := sound_new settings game player
  pending_le := by simp [new]
  covered := by simpa [new, Counters.zero] using generous.covered

/-- A session that goes on can pay the highest stake. -/
lemma Solvent.le_balance (hg : g.Solvent settings) (hphase : g.phase ≠ .completed) :
    100 ≤ g.balance := by
  have hlt := hg.sound.spins_lt hphase
  have hle : (g.counters.totalSpins : ℚ) + 1 ≤ (max 1 settings.spinsPerSession : ℕ) := by
    exact_mod_cast hlt
  linarith [hg.covered]

/-- Moderate actions leave a session solvent. -/
lemma Solvent.of_plays (hg : g.Solvent settings) (ha : a.Moderate) {t : Turn ℚ} {c c' : γ}
    (h : g.Plays settings a c t c') : t.after.Solvent settings := by
  have hsound := sound_of_plays hg.sound h
  cases h with
  | @bet m kind phase stake =>
    obtain ⟨hamount, -⟩ := stakeOf_eq_ok stake
    obtain ⟨m', hm', -, hle⟩ := ha kind
    refine ⟨hsound, fun m'' hm'' => ?_, hg.covered⟩
    obtain rfl := Option.some.inj hm''
    obtain rfl := Option.some.inj (hamount.symm.trans hm')
    exact hle
  | @spin m kind phase pending =>
    refine ⟨hsound, by simp [spin], ?_⟩
    have hpay := payout_nonneg settings.winProbability c (hg.sound.stake_pos m pending).le
    have hstake := hg.pending_le m pending
    simp only [spin, Nat.cast_add, Nat.cast_one]
    linarith [hg.covered]
  | cashOut kind phase => exact ⟨hsound, hg.pending_le, hg.covered⟩
  | idle lenient misfit => exact hg

/-- A solvent session refuses no moderate action. -/
lemma Solvent.not_refuses (hg : g.Solvent settings) (generous : settings.Generous)
    (ha : a.Moderate) {e : ServiceError} : ¬ g.Refuses settings a e := by
  intro h
  cases h with
  | stake kind phase stake =>
    obtain ⟨m, hamount, hlow, hhigh⟩ := ha kind
    have hphase : g.phase ≠ .completed := by rcases phase with h | h | h <;> simp [h]
    have hpos : ¬ m.amount ≤ 0 := by linarith
    have hbalance : ¬ g.balance < m.amount := by linarith [hg.le_balance hphase]
    simp [stakeOf, stakeOf.withinBalance, hamount, generous.unlimited, Scalar.isFinite, hpos,
      hbalance] at stake
  | noStake kind phase pending =>
    have hsome := hg.sound.pending_iff.mpr (Or.inr phase)
    simp [pending] at hsome
  | misfit strict misfit => simp [generous.lenient] at strict

lemma Solvent.exists_plays (hg : g.Solvent settings) (generous : settings.Generous)
    (ha : a.Moderate) (c : γ) : ∃ t c', g.Plays settings a c t c' := by
  rcases refuses_or_plays γ settings g a with ⟨e, hrefuses⟩ | hplays
  · exact (hg.not_refuses generous ha hrefuses).elim
  · exact hplays c

end Game

namespace State

variable {γ : Type} [Chance γ ℚ]

/-- A service that holds solvent sessions only and has no failures queued. -/
structure Solvent (settings : Settings ℚ) (s : State γ ℚ) : Prop where
  settings_eq : s.settings = settings
  unqueued : ∀ k, s.failures.of k = []
  held : ∀ h ∈ s.held, h.game.Solvent settings

variable {settings : Settings ℚ} {s : State γ ℚ}

omit [Chance γ ℚ] in
lemma solvent_new (settings : Settings ℚ) (names : Names) (chances : γ) :
    (new settings names chances).Solvent settings where
  settings_eq := rfl
  unqueued := fun k => by cases k <;> rfl
  held := by simp [new]

omit [Chance γ ℚ] in
lemma Solvent.withTallies (hs : s.Solvent settings) {u : State γ ℚ}
    (hu : ∀ k, u.failures.of k = []) : (s.withTallies u).Solvent settings :=
  ⟨hs.settings_eq, hu, hs.held⟩

omit [Chance γ ℚ] in
lemma Solvent.create (hs : s.Solvent settings) (generous : settings.Generous) (game : GameId)
    (player : Player ℚ) : (s.create game player).2.Solvent settings where
  settings_eq := hs.settings_eq
  unqueued := hs.unqueued
  held := by
    intro x hx
    rcases mem_create hx with hx | rfl
    · exact hs.held x hx
    · rw [← hs.settings_eq]
      exact Game.solvent_new (hs.settings_eq ▸ generous) game player

omit [Chance γ ℚ] in
lemma failures_settled (s : State γ ℚ) (now : Duration) (h : Held ℚ) (p : Play ℚ) (t : Turn ℚ)
    (c : γ) : (s.settled now h p t c).failures = s.failures := by
  unfold settled
  split <;> rfl

/-- A moderate play in a session that is held is accepted, and the session is held afterwards
unless it has ended. -/
lemma Solvent.play (hs : s.Solvent settings) (generous : settings.Generous) {id : SessionId}
    {h : Held ℚ} (found : s.find? id = some h) {p : Play ℚ} (hp : p.action.Moderate)
    (now : Duration) :
    ∃ o s', s.play now id p = (.ok o, s') ∧ s'.Solvent settings ∧
      (o.isTerminal = false → ∃ h', s'.find? id = some h') := by
  have hh := mem_of_find? found
  obtain ⟨t, c, hplay⟩ := (hs.held h hh).exists_plays generous hp s.chances
  rw [← hs.settings_eq] at hplay
  refine ⟨_, _, play_of_plays found hplay now, ?_, ?_⟩
  · refine ⟨settled_settings.trans hs.settings_eq, ?_, ?_⟩
    · rw [failures_settled]
      exact hs.unqueued
    · intro x hx
      rcases mem_settled hx with hx | rfl
      · exact hs.held x hx
      · rw [hs.settings_eq] at hplay
        exact (hs.held h hh).of_plays hp hplay
  · intro hopen
    obtain rfl := id_of_find? found
    rcases find?_settled now p t c found with hfind | ⟨hphase, -⟩
    · exact ⟨_, hfind⟩
    · -- it has not ended
      have hterm : t.after.phase.isTerminal = true := (Phase.isTerminal_iff _).mpr hphase
      exact (Bool.false_ne_true (hopen.symm.trans hterm)).elim

end State

end Punter.Simulation
