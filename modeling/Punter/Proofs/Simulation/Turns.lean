/-
# The turns of a simulated session

Every action that a simulated session accepts is one of four turns: a bet, a spin, a cash-out, or
a turn without effect; every action that it refuses is refused for one of three reasons.  `Plays`
and `Refuses` list them together with the conditions under which they occur.  This file opens the
definition of `Game.play` once; whatever is said elsewhere about sessions starts from these two
lists.
-/
import Mathlib
import Punter.Simulation.Game

namespace Punter.Simulation

/-- Whether an action of a kind has an effect in a phase. -/
def fits : Phase → ActionKind → Bool
  | .initialized, .placeBet | .probing, .placeBet | .evaluating, .placeBet => true
  | .playing, .spin => true
  | .evaluating, .cashOut => true
  | _, _ => false

/-- The failure of a spin for which nothing is staked. -/
def noStake : ServiceError := .rejected .stateError none "no stake placed before spin"

/-- The failure of an action that does not fit the phase. -/
def unfit (phase : Phase) (kind : ActionKind) : ServiceError :=
  .rejected .stateError none (kind.label ++ " is not allowed in state " ++ phase.label)

lemma unfit_ne_noStake (phase : Phase) (kind : ActionKind) : unfit phase kind ≠ noStake := by
  cases phase <;> cases kind <;> decide

namespace Game

section Turns

variable {γ α : Type} [Scalar α] [Chance γ α]

/-- The turns of an accepted action, each with the source of chances after it. -/
inductive Plays (settings : Settings α) (g : Game α) (a : Action α) (c : γ) : Turn α → γ → Prop
  /-- A bet places its stake, or replaces the one that was placed before. -/
  | bet {m : Money α} (kind : a.kind = .placeBet)
      (phase : g.phase = .initialized ∨ g.phase = .probing ∨ g.phase = .evaluating)
      (stake : g.stakeOf settings a.amount = .ok m) :
      Plays settings g a c (g.bet settings m) c
  /-- A spin uses the stake up. -/
  | spin {m : Money α} (kind : a.kind = .spin) (phase : g.phase = .playing)
      (pending : g.pending = some m) :
      Plays settings g a c (g.spin settings m (Spin.draw settings.winProbability c).1)
        (Spin.draw settings.winProbability c).2
  /-- A cash-out ends the session. -/
  | cashOut (kind : a.kind = .cashOut) (phase : g.phase = .evaluating) :
      Plays settings g a c (idle { g with phase := .completed }) c
  /-- An action that does not fit has no effect. -/
  | idle (lenient : settings.rejectInvalid = false) (misfit : fits g.phase a.kind = false) :
      Plays settings g a c (idle g) c

/-- The reasons for which an action is refused. -/
inductive Refuses (settings : Settings α) (g : Game α) (a : Action α) : ServiceError → Prop
  /-- The stake of a bet is not allowed. -/
  | stake {e : ServiceError} (kind : a.kind = .placeBet)
      (phase : g.phase = .initialized ∨ g.phase = .probing ∨ g.phase = .evaluating)
      (stake : g.stakeOf settings a.amount = .error e) : Refuses settings g a e
  /-- Nothing is staked on a spin. -/
  | noStake (kind : a.kind = .spin) (phase : g.phase = .playing) (pending : g.pending = none) :
      Refuses settings g a noStake
  /-- The action does not fit the phase. -/
  | misfit (strict : settings.rejectInvalid = true) (misfit : fits g.phase a.kind = false) :
      Refuses settings g a (unfit g.phase a.kind)

variable {settings : Settings α} {g : Game α} {a : Action α} {c : γ}

lemma play_of_bet (kind : a.kind = .placeBet)
    (phase : g.phase = .initialized ∨ g.phase = .probing ∨ g.phase = .evaluating) (c : γ) :
    g.play settings a c = g.placeBet settings a.amount c := by
  rcases phase with h | h | h <;> simp only [play, h, kind]

lemma play_of_spin (kind : a.kind = .spin) (phase : g.phase = .playing) (c : γ) :
    g.play settings a c = g.spinReels settings c := by
  simp only [play, phase, kind]

/-- Where there is no stake none is taken. -/
lemma spinReels_of_none (pending : g.pending = none) (c : γ) :
    g.spinReels settings c = (.error noStake, g, c) := by
  have htaken : ({ g with pending := none } : Game α) = g := by rw [← pending]
  unfold spinReels
  rw [pending]
  dsimp only
  rw [htaken]
  rfl

lemma play_of_misfit (h : fits g.phase a.kind = false) (c : γ) :
    g.play settings a c = (g.misfit settings a.kind, g, c) := by
  cases hp : g.phase <;> cases hk : a.kind <;> simp [fits, hp, hk] at h <;>
    simp only [play, hp, hk]

/-- An accepted action leaves the session as its turn says. -/
lemma play_of_plays {t : Turn α} {c' : γ} (h : Plays settings g a c t c') :
    g.play settings a c = (.ok t, t.after, c') := by
  cases h with
  | bet kind phase stake => simp only [play_of_bet kind phase, placeBet, stake]
  | spin kind phase pending =>
    rw [play_of_spin kind phase]
    unfold spinReels
    rw [pending]
    rfl
  | cashOut kind phase =>
    simp only [play, phase, kind]
    rfl
  | idle lenient misfit =>
    rw [play_of_misfit misfit]
    simp [Game.misfit, lenient, Game.idle]

/-- A refused action leaves the session and the source of chances as they were: all checks come
before the first change, but for the stake of a spin, which is taken where there is none. -/
lemma play_of_refuses {e : ServiceError} (h : Refuses settings g a e) (c : γ) :
    g.play settings a c = (.error e, g, c) := by
  cases h with
  | stake kind phase stake => simp only [play_of_bet kind phase, placeBet, stake]
  | noStake kind phase pending => rw [play_of_spin kind phase, spinReels_of_none pending]
  | misfit strict misfit =>
    rw [play_of_misfit misfit]
    simp [Game.misfit, strict, reject, unfit]

/-- An action is refused whatever the chances are, or it makes one of the turns. -/
theorem refuses_or_plays (γ : Type) [Chance γ α] (settings : Settings α) (g : Game α)
    (a : Action α) :
    (∃ e, Refuses settings g a e) ∨ ∀ c : γ, ∃ t c', Plays settings g a c t c' := by
  rcases hfit : fits g.phase a.kind with _ | _
  · -- the action does not fit, and the settings decide what becomes of it
    rcases hr : settings.rejectInvalid with _ | _
    · exact Or.inr fun c => ⟨_, c, .idle hr hfit⟩
    · exact Or.inl ⟨_, .misfit hr hfit⟩
  · cases hk : a.kind with
    | placeBet =>
      have hp : g.phase = .initialized ∨ g.phase = .probing ∨ g.phase = .evaluating := by
        cases hp : g.phase <;> simp [fits, hp, hk] at hfit <;> simp
      cases hs : g.stakeOf settings a.amount with
      | error e => exact Or.inl ⟨e, .stake hk hp hs⟩
      | ok m => exact Or.inr fun c => ⟨_, c, .bet hk hp hs⟩
    | spin =>
      have hp : g.phase = .playing := by
        cases hp : g.phase <;> simp [fits, hp, hk] at hfit; rfl
      cases hs : g.pending with
      | none => exact Or.inl ⟨_, .noStake hk hp hs⟩
      | some m => exact Or.inr fun c => ⟨_, _, .spin hk hp hs⟩
    | cashOut =>
      have hp : g.phase = .evaluating := by
        cases hp : g.phase <;> simp [fits, hp, hk] at hfit; rfl
      exact Or.inr fun c => ⟨_, c, .cashOut hk hp⟩

/-- A completed session only makes turns without effect. -/
lemma Plays.after_eq {t : Turn α} {c' : γ} (h : Plays settings g a c t c')
    (hg : g.phase = .completed) : t.after = g := by
  cases h with
  | bet _ phase _ => simp [hg] at phase
  | spin _ phase _ => simp [hg] at phase
  | cashOut _ phase => simp [hg] at phase
  | idle _ _ => rfl

/-- A stake that is allowed is the one of the action; it is positive and finite, the wallet holds
it, and where the settings say so the announced maximum is respected. -/
lemma stakeOf_eq_ok {amount : Option (Money α)} {m : Money α}
    (h : g.stakeOf settings amount = .ok m) :
    amount = some m ∧ Scalar.isFinite m.amount = true ∧ ¬ m.amount ≤ 0.0 ∧
      ¬ g.balance < m.amount ∧
      (settings.enforceMaxBet = true → ∀ most, g.maxBet = some most → ¬ most < m.amount) := by
  have within : ∀ m', stakeOf.withinBalance g m' = .ok m → m' = m ∧ ¬ g.balance < m.amount := by
    intro m' hm
    unfold stakeOf.withinBalance at hm
    split at hm
    · simp [reject] at hm
    · next hbalance =>
      obtain rfl := Except.ok.inj hm
      exact ⟨rfl, hbalance⟩
  cases amount with
  | none => simp [stakeOf, reject] at h
  | some m' =>
    simp only [stakeOf] at h
    split at h
    · simp [reject] at h
    · next hpos =>
      simp only [Bool.or_eq_true, Bool.not_eq_true', decide_eq_true_eq, not_or,
        Bool.not_eq_false] at hpos
      split at h
      · next most hmost henforce =>
        split at h
        · simp [reject] at h
        · next hle =>
          obtain ⟨rfl, hbalance⟩ := within m' h
          refine ⟨rfl, hpos.1, hpos.2, hbalance, fun _ most' hmost' => ?_⟩
          obtain rfl := Option.some.inj (hmost.symm.trans hmost')
          exact hle
      · next hno =>
        obtain ⟨rfl, hbalance⟩ := within m' h
        refine ⟨rfl, hpos.1, hpos.2, hbalance, fun henforce most hmost => ?_⟩
        exact absurd henforce (hno most hmost)

/-- A refused stake is never reported as a missing one. -/
lemma stakeOf_ne_noStake {amount : Option (Money α)} {e : ServiceError}
    (h : g.stakeOf settings amount = .error e) : e ≠ noStake := by
  have hreject : ∀ {code reason} {T : Type}, code ≠ ErrorCode.stateError →
      (reject code reason : Except ServiceError T) ≠ .error noStake := by
    intro code reason T hcode heq
    simp only [reject, noStake, Except.error.injEq, ServiceError.rejected.injEq] at heq
    exact hcode heq.1
  rintro rfl
  have within : ∀ m, stakeOf.withinBalance g m ≠ .error noStake := by
    intro m
    unfold stakeOf.withinBalance
    split
    · exact hreject (by decide)
    · simp
  cases amount with
  | none => exact hreject (by decide) h
  | some m =>
    simp only [stakeOf] at h
    split at h
    · exact hreject (by decide) h
    · split at h
      · split at h
        · exact hreject (by decide) h
        · exact within m h
      · exact within m h

end Turns

end Game

end Punter.Simulation
