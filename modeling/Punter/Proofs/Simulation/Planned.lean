/-
# Planned sessions

The plan and the simulated game are made for each other: in every phase of a session that is open
the planned action is one that the phase has an effect for, and the stake that it places is one
that only an empty wallet can refuse.  So a session that is played by the plan walks along the
lifecycle without a move in vain, and the number of its moves says where it stands (`Station`).

The settings do not matter for this, except that a probe round makes for one bet more.  In
particular it makes no difference whether actions that do not fit are let pass, or whether stakes
above the announced maximum are.
-/
import Mathlib
import Punter.Policy.Plan
import Punter.Proofs.Profile.Adaptation
import Punter.Proofs.Simulation.Ledger
import Punter.Proofs.Simulation.Lifecycle

namespace Punter.Simulation

/-! ## Planned actions -/

/-- In these phases a bet is due. -/
def BetDue (phase : Phase) : Prop :=
  phase = .initialized ∨ phase = .probing ∨ phase = .evaluating

namespace Game

variable {α : Type}

/-- The planned action of a session. -/
def planned (g : Game α) (profile : Profile α) : Action α :=
  (Proposal.plan g.phase).toAction profile

/-- The failure of a bet that the wallet does not hold. -/
def overdrawn [Scalar α] (g : Game α) (stake : α) : ServiceError :=
  .rejected .walletLimitExceeded none
    ("stake " ++ Scalar.text stake ++ " exceeds balance " ++ Scalar.text g.balance)

lemma planned_of_betDue {g : Game α} (h : BetDue g.phase) (profile : Profile α) :
    g.planned profile = ⟨.placeBet, some profile.minStake⟩ := by
  rcases h with h | h | h <;> rw [planned, h] <;> rfl

lemma planned_of_playing {g : Game α} (h : g.phase = .playing) (profile : Profile α) :
    g.planned profile = ⟨.spin, none⟩ := by
  rw [planned, h]
  rfl

variable {settings : Settings ℚ} {g : Game ℚ} {profile : Profile ℚ}

/-- In a session that is open a bet or a spin is due. -/
lemma Sound.betDue_or_playing (hg : g.Sound settings) (hopen : g.phase ≠ .completed) :
    BetDue g.phase ∨ g.phase = .playing := by
  have hidle := hg.not_idle
  unfold BetDue
  cases hphase : g.phase <;> simp [hphase] at hidle hopen <;> simp

/-- The planned action has an effect. -/
lemma Sound.fits_planned (hg : g.Sound settings) (hopen : g.phase ≠ .completed) :
    fits g.phase (g.planned profile).kind = true := by
  rcases hg.betDue_or_playing hopen with h | h
  · rw [planned_of_betDue h]
    rcases h with h | h | h <;> rw [h] <;> rfl
  · rw [planned_of_playing h, h]
    rfl

/-- The smallest stake of a profile is refused only by a wallet that does not hold it: it is
positive, and at most the largest stake, which is what was announced. -/
lemma stakeOf_minStake (settings : Settings ℚ) (hprofile : profile.Playable)
    (hmax : g.maxBet = some profile.maxBet) :
    (g.balance < profile.minBet → g.stakeOf settings (some profile.minStake) =
        .error (g.overdrawn profile.minBet)) ∧
      (¬ g.balance < profile.minBet → g.stakeOf settings (some profile.minStake) =
        .ok profile.minStake) := by
  have hpos : ¬ profile.minBet ≤ 0 := by linarith [hprofile.floor_le]
  have hle : ¬ profile.maxBet < profile.minBet := not_lt.mpr hprofile.minBet_le
  constructor <;> intro hbalance <;> cases henforce : settings.enforceMaxBet <;>
    simp [stakeOf, stakeOf.withinBalance, Profile.minStake, Scalar.isFinite, hmax, henforce, hpos,
      hle, hbalance, reject, overdrawn]

/-! ## Where a session stands -/

/-- Where a session of the plan stands after a number of moves, with so many spins made: bets and
spins take turns, after the bet of the probe round if there is one. -/
inductive Station (probeRound : Bool) : ℕ → ℕ → Phase → Prop
  | opened : Station probeRound 0 0 .initialized
  | probing (h : probeRound = true) : Station probeRound 1 0 .probing
  | staked (n : ℕ) : Station probeRound (2 * n + probeRound.toNat + 1) n .playing
  | spun (n : ℕ) : Station probeRound (2 * (n + 1) + probeRound.toNat) (n + 1) .evaluating
  | ended (n : ℕ) : Station probeRound (2 * (n + 1) + probeRound.toNat) (n + 1) .completed

namespace Station

variable {probeRound : Bool} {exhausted : Prop} {j n : ℕ} {phase phase' : Phase}

/-- After the probe round every other move is a spin. -/
lemma spins_eq (h : Station probeRound j n phase) (hj : probeRound.toNat ≤ j) :
    n = (j - probeRound.toNat) / 2 := by
  cases h with
  | opened => omega
  | probing hprobe => simp [hprobe]
  | staked => omega
  | spun => omega
  | ended => omega

lemma moves_of_completed (h : Station probeRound j n .completed) :
    j = 2 * n + probeRound.toNat := by
  cases h
  rfl

lemma moves_le (h : Station probeRound j n phase) : j ≤ 2 * n + probeRound.toNat + 1 := by
  cases h <;> omega

/-- A bet leads to the next station. -/
lemma bet (h : Station probeRound j n phase)
    (hedge : Edge probeRound exhausted phase .placeBet phase') :
    Station probeRound (j + 1) n phase' := by
  cases hedge with
  | first hprobe =>
    cases h
    exact hprobe ▸ staked 0
  | probe hprobe =>
    cases h
    exact probing hprobe
  | second =>
    obtain ⟨⟩ | hprobe := h
    exact hprobe ▸ staked 0
  | again =>
    cases h
    exact staked _

/-- A spin leads to the next station. -/
lemma spin (h : Station probeRound j n .playing)
    (hedge : Edge probeRound exhausted .playing .spin phase') :
    Station probeRound (j + 1) (n + 1) phase' := by
  obtain ⟨⟩ | ⟨⟩ | n := h
  have hmoves : 2 * n + probeRound.toNat + 1 + 1 = 2 * (n + 1) + probeRound.toNat := by omega
  rw [hmoves]
  cases hedge with
  | spin _ => exact spun n
  | lastSpin _ => exact ended n

end Station

/-- What holds of a session after so many planned moves. -/
structure OnPlan (settings : Settings ℚ) (profile : Profile ℚ) (j : ℕ) (g : Game ℚ) : Prop where
  sound : g.Sound settings
  /-- The largest stake of the profile was announced. -/
  maxBet_eq : g.maxBet = some profile.maxBet
  station : Station settings.probeRound j g.counters.totalSpins g.phase

lemma onPlan_new (settings : Settings ℚ) (game : GameId) (profile : Profile ℚ) :
    (new settings game profile.player).OnPlan settings profile 0 where
  sound := sound_new settings game profile.player
  maxBet_eq := rfl
  station := .opened

variable {γ : Type} [Chance γ ℚ] {j : ℕ}

/-- **What the plan comes to in one move.**  The planned action of an open session is refused only
where a bet is due that the wallet does not hold; else it is accepted, whatever the chances are. -/
theorem OnPlan.refuses_or_plays (γ : Type) [Chance γ ℚ] (hg : g.OnPlan settings profile j)
    (hprofile : profile.Playable) (hopen : g.phase ≠ .completed) :
    (BetDue g.phase ∧ g.balance < profile.minBet ∧
        g.Refuses settings (g.planned profile) (g.overdrawn profile.minBet)) ∨
      (BetDue g.phase → profile.minBet ≤ g.balance) ∧
        ∀ c : γ, ∃ t c', g.Plays settings (g.planned profile) c t c' := by
  rcases hg.sound.betDue_or_playing hopen with hdue | hplaying
  · obtain ⟨hrefused, hallowed⟩ := stakeOf_minStake settings hprofile hg.maxBet_eq
    rw [planned_of_betDue hdue]
    by_cases hshort : g.balance < profile.minBet
    · exact .inl ⟨hdue, hshort, .stake rfl hdue (hrefused hshort)⟩
    · exact .inr ⟨fun _ => not_lt.mp hshort, fun c => ⟨_, c, .bet rfl hdue (hallowed hshort)⟩⟩
  · have hsome := hg.sound.pending_iff.mpr (.inr hplaying)
    obtain ⟨m, hm⟩ := Option.isSome_iff_exists.mp hsome
    rw [planned_of_playing hplaying]
    refine .inr ⟨fun hdue => ?_, fun c => ⟨_, _, .spin rfl hplaying hm⟩⟩
    rcases hdue with h | h | h <;> simp [h] at hplaying

/-- **One planned move** leads along an edge of the lifecycle to the next station. -/
theorem OnPlan.of_plays (hg : g.OnPlan settings profile j) (hopen : g.phase ≠ .completed)
    {t : Turn ℚ} {c c' : γ} (h : g.Plays settings (g.planned profile) c t c') :
    Edge settings.probeRound (t.after.Exhausted settings) g.phase (g.planned profile).kind
        t.after.phase ∧
      t.after.OnPlan settings profile (j + 1) := by
  have hsound := sound_of_plays hg.sound h
  have hfits : fits g.phase (g.planned profile).kind = true := hg.sound.fits_planned hopen
  cases h with
  | @bet m kind phase stake =>
    have hedge := edge_bet settings m ((g.bet settings m).after.Exhausted settings) kind phase
    exact ⟨hedge, hsound, hg.maxBet_eq, hg.station.bet (kind ▸ hedge)⟩
  | @spin m kind phase pending =>
    have hedge : Edge settings.probeRound
        ((g.spin settings m (Spin.draw settings.winProbability c).1).after.Exhausted settings)
        .playing .spin (g.spin settings m (Spin.draw settings.winProbability c).1).after.phase :=
      edge_spin _ m _
    refine ⟨?_, hsound, hg.maxBet_eq, (phase ▸ hg.station).spin hedge⟩
    rw [phase, kind]
    exact hedge
  | cashOut kind phase =>
    -- the plan goes on where it could cash out
    rw [planned_of_betDue (.inr (.inr phase))] at kind
    cases kind
  | idle _ misfit => simp [hfits] at misfit

end Game

/-! ## Whole sessions -/

/-- Moves that follow the plan in a session, from its opening on. -/
inductive Follows (γ : Type) [Chance γ ℚ] (settings : Settings ℚ) (profile : Profile ℚ)
    (id : SessionId) : List (Move ℚ) → Game ℚ → Prop
  | nil (game : GameId) : Follows γ settings profile id [] (.new settings game profile.player)
  | snoc {ms : List (Move ℚ)} {m : Move ℚ} {c c' : γ}
      (before : Follows γ settings profile id ms m.before) (session : m.session = id)
      (hopen : m.before.phase ≠ .completed) (action : m.play.action = m.before.planned profile)
      (plays : m.before.Plays settings m.play.action c m.turn c') :
      Follows γ settings profile id (ms ++ [m]) m.turn.after

/-- The edge of the lifecycle along which a move leads. -/
def Move.AlongEdge (settings : Settings ℚ) (m : Move ℚ) : Prop :=
  Edge settings.probeRound (m.turn.after.Exhausted settings) m.before.phase m.play.action.kind
    m.turn.after.phase

namespace Follows

variable {γ : Type} [Chance γ ℚ] {settings : Settings ℚ} {profile : Profile ℚ} {id : SessionId}
  {ms : List (Move ℚ)} {g : Game ℚ}

lemma onPlan (h : Follows γ settings profile id ms g) : g.OnPlan settings profile ms.length := by
  induction h with
  | nil game => exact Game.onPlan_new settings game profile
  | snoc _ _ hopen action plays ih =>
    rw [List.length_append]
    exact (ih.of_plays hopen (action ▸ plays)).2

/-- No move is in vain. -/
lemma alongEdge (h : Follows γ settings profile id ms g) : ∀ m ∈ ms, m.AlongEdge settings := by
  induction h with
  | nil => simp
  | snoc before _ hopen action plays ih =>
    intro m' hm'
    rcases List.mem_append.mp hm' with hm' | hm'
    · exact ih m' hm'
    · rw [List.mem_singleton.mp hm', Move.AlongEdge, action]
      exact (before.onPlan.of_plays hopen (action ▸ plays)).1

/-- What is counted are the spins. -/
lemma totalSpins_eq (h : Follows γ settings profile id ms g) :
    g.counters.totalSpins = (ms.filter Move.isSpin).length := by
  induction h with
  | nil => rfl
  | snoc _ _ _ _ plays ih =>
    rw [List.filter_append, List.length_append, ← ih]
    rcases spins_or_rests plays with ⟨hspin, hm⟩ | ⟨hspin, hm⟩
    · simp [hspin, hm.totalSpins]
    · simp [hspin, hm.counters]

lemma take (h : Follows γ settings profile id ms g) (j : ℕ) :
    ∃ g', Follows γ settings profile id (ms.take j) g' := by
  induction h with
  | nil game => exact ⟨_, by simpa using .nil game⟩
  | @snoc ms m c c' before session hopen action plays ih =>
    by_cases hj : j ≤ ms.length
    · rwa [List.take_append_of_le_length hj]
    · rw [List.take_of_length_le (by simp; omega)]
      exact ⟨_, .snoc before session hopen action plays⟩

/-- **The spins of a planned session**: after the probe round every other move is one. -/
theorem spins_take (h : Follows γ settings profile id ms g) {j : ℕ} (hj : j ≤ ms.length)
    (hprobe : settings.probeRound.toNat ≤ j) :
    ((ms.take j).filter Move.isSpin).length = (j - settings.probeRound.toNat) / 2 := by
  obtain ⟨g', htake⟩ := h.take j
  have hstation := htake.onPlan.station
  rw [List.length_take_of_le hj] at hstation
  rw [← htake.totalSpins_eq]
  exact hstation.spins_eq hprobe

/-- A session that goes on has made fewer moves than its spins take. -/
theorem length_lt_of_open (h : Follows γ settings profile id ms g) (hopen : g.phase ≠ .completed) :
    ms.length < 2 * max 1 settings.spinsPerSession + settings.probeRound.toNat := by
  have hmoves := h.onPlan.station.moves_le
  have hspins := h.onPlan.sound.spins_lt hopen
  omega

end Follows

end Punter.Simulation
