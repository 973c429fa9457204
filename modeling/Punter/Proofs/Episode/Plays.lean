/-
# What an agent submits

Every play that an agent sends is well formed (`Play.WellFormed`), whatever it sees of its session
and however long its pauses turn out to be: the pace has a score between 0 and 1, a bet carries the
smallest stake of the profile or one that comes from exploring, and nothing else carries a stake.
This is said of all exchanges between two worlds (`World.Submits`), those in which a play was tried
again included, and for any kind of plays: an episode submits plays of the kind that its steps make
(`Stepper.Makes`).

The simulated service has no reason to find such plays invalid, so that it only answers that they
are where a failure of this kind was queued.
-/
import Mathlib
import Punter.Proofs.Episode.Protocol
import Punter.Proofs.Episode.Replay
import Punter.Proofs.Episode.Solvency
import Punter.Proofs.Simulation.Failures

namespace Punter

open RandomSource (InUnit)

/-! ## Well-formed plays -/

/-- A bet carries a stake that is more than nothing. -/
def Play.Staked (p : Play ℚ) : Prop :=
  p.action.kind = .placeBet → ∃ m, p.action.amount = some m ∧ 0 < m.amount

/-- A play as it is made with a profile. -/
structure Play.WellFormed (profile : Profile ℚ) (p : Play ℚ) : Prop where
  likeness_mem : 0 ≤ p.humanLikeness ∧ p.humanLikeness ≤ 1
  /-- A bet carries the smallest stake of the profile, or one that comes from exploring. -/
  stake : p.action.kind = .placeBet → ∃ m, p.action.amount = some m ∧
    (m = profile.minStake ∨ Policy.Exploratory m) ∧ 1 / 2 ≤ m.amount
  no_stake : p.action.kind ≠ .placeBet → p.action.amount = none

lemma Play.WellFormed.staked {profile : Profile ℚ} {p : Play ℚ} (h : p.WellFormed profile) :
    p.Staked := by
  intro hkind
  obtain ⟨m, hm, -, hhalf⟩ := h.stake hkind
  exact ⟨m, hm, by linarith⟩

/-- The score of a pause lies between 0 and 1, whatever its length, and also where the bounds of
the profile leave no middle to compare it with. -/
lemma Profile.likeness_mem (profile : Profile ℚ) (millis : ℚ) :
    0 ≤ profile.likeness millis ∧ profile.likeness millis ≤ 1 := by
  unfold likeness
  dsimp only
  split
  · norm_num [neutralLikeness]
  · rw [Scalar.clamp_unit]
    exact ⟨le_max_left _ _, max_le zero_le_one (min_le_left _ _)⟩

lemma Proposal.wellFormed_toPlay {proposal : Proposal ℚ} {profile : Profile ℚ}
    (hprofile : profile.Playable)
    (hproposal : ∀ m, proposal.amount = some m → Policy.Exploratory m) (millis : ℚ) :
    (proposal.toPlay profile (profile.likeness millis)).WellFormed profile where
  likeness_mem := profile.likeness_mem millis
  stake := by
    intro hkind
    cases proposal with
    | placeBet amount =>
      cases amount with
      | none => exact ⟨profile.minStake, rfl, .inl rfl, hprofile.floor_le⟩
      | some m =>
        have hm : Policy.Exploratory m := hproposal m rfl
        refine ⟨m, rfl, .inr hm, ?_⟩
        linarith [hm.lowest_le]
    | spin => cases hkind
    | cashOut => cases hkind
  no_stake := by
    intro hkind
    cases proposal with
    | placeBet amount => exact absurd rfl hkind
    | spin => rfl
    | cashOut => rfl

/-! ## Plays between two worlds -/

section Submits

variable {σ α : Type} {P Q : Play α → Prop}

/-- If a call is a play, then it is of a kind. -/
def Call.Submits (P : Play α → Prop) (c : Call α) : Prop :=
  ∀ session p, c = .play session p → P p

/-- All plays that reached the service between two worlds are of a kind. -/
def World.Submits (P : Play α → Prop) (w w' : World σ α) : Prop :=
  ∃ trace, w'.history = w.history ++ trace ∧ ∀ x ∈ trace, x.call.Submits P

namespace World.Submits

variable {w w₁ w₂ : World σ α}

lemma of_history_eq (h : w₁.history = w.history) : w.Submits P w₁ :=
  ⟨[], by rw [h, List.append_nil], by simp⟩

lemma trans (h : w.Submits P w₁) (h' : w₁.Submits P w₂) : w.Submits P w₂ := by
  obtain ⟨trace, hhistory, hplays⟩ := h
  obtain ⟨trace', hhistory', hplays'⟩ := h'
  refine ⟨trace ++ trace', ?_, ?_⟩
  · rw [hhistory', hhistory, List.append_assoc]
  · intro x hx
    rcases List.mem_append.mp hx with hx | hx
    · exact hplays x hx
    · exact hplays' x hx

lemma mono (h : w.Submits P w₁) (hPQ : ∀ p, P p → Q p) : w.Submits Q w₁ := by
  obtain ⟨trace, hhistory, hplays⟩ := h
  exact ⟨trace, hhistory, fun x hx session p hp => hPQ p (hplays x hx session p hp)⟩

/-- What is tried again is the same call as the one that settles it. -/
lemma of_asks {r : Retrier} {xs : List (Exchange α)} (h : r.Asks xs w w₁)
    (hxs : ∀ x ∈ xs, x.call.Submits P) : w.Submits P w₁ := by
  obtain ⟨trace, hhistory, hblocks⟩ := h
  refine ⟨trace, hhistory, ?_⟩
  clear hhistory
  induction hblocks with
  | nil => simp
  | @cons retried trace settled x block rest ih =>
    have hx : x.call.Submits P := hxs x List.mem_cons_self
    intro y hy
    rcases List.mem_append.mp hy with hy | hy
    · -- an attempt that failed is a call of the same thing
      obtain ⟨now, e, rfl, -⟩ := block.failed y hy
      exact hx
    · rcases List.mem_cons.mp hy with rfl | hy
      · exact hx
      · exact ih (fun z hz => hxs z (List.mem_cons_of_mem _ hz)) y hy

end World.Submits

/-- No page is a play. -/
lemma Protocol.Pages.submits {session : SessionId} {limit k : ℕ} {xs : List (Exchange α)}
    {fetched : Option (Except ServiceError (List (Experience α)))}
    (h : Protocol.Pages session limit k xs fetched) : ∀ x ∈ xs, x.call.Submits P := by
  induction h with
  | unended => simp
  | failed now e => simp [Call.Submits]
  | last now page short => simp [Call.Submits]
  | more now page full pages ih =>
    intro x hx
    rcases List.mem_cons.mp hx with rfl | hx
    · simp [Call.Submits]
    · exact ih x hx

variable [Service σ α]

lemma Stepper.submits_call (s : Stepper) {c : Call α} (hc : c.Submits P) (w : World σ α) :
    w.Submits P (s.call c w).2 := by
  obtain ⟨now, hasks⟩ := s.asks_call c w
  refine .of_asks hasks fun x hx => ?_
  rw [List.mem_singleton.mp hx]
  exact hc

lemma Agent.submits_fetch (a : Agent) (session : SessionId) (w : World σ α) :
    w.Submits P (a.fetch session w).2 := by
  obtain ⟨xs, hasks, hpages, -⟩ := a.asks_fetch session w
  exact .of_asks hasks hpages.submits

end Submits

/-! ## Episodes -/

section Episodes

variable {σ ρ : Type} [Service σ ℚ] [RandomSource ρ ℚ] {profile : Profile ℚ}
  {fixed : Option Duration} {r : ρ} {P : Play ℚ → Prop}

/-- Whatever is decided in a step and however long its pause turns out to be, the play is of a
kind, as long as the source from which the length of the pause is drawn is a good one. -/
def Stepper.Makes (ρ : Type) [RandomSource ρ ℚ] (s : Stepper) (profile : Profile ℚ)
    (fixed : Option Duration) (P : Play ℚ → Prop) : Prop :=
  ∀ (r : ρ) (proposal : Proposal ℚ) (rank : ℕ), InUnit r →
    (∀ m, proposal.amount = some m → Policy.Exploratory m) →
    P (proposal.toPlay profile (profile.likeness
      (s.pacer.pause rank (Stepper.target profile fixed r).1).reported.toMillis))

lemma Stepper.makes_wellFormed (s : Stepper) (hprofile : profile.Playable)
    (fixed : Option Duration) : s.Makes ρ profile fixed (Play.WellFormed profile) :=
  fun _ _ _ _ hproposal => Proposal.wellFormed_toPlay hprofile hproposal _

lemma Stepper.submits_step {s : Stepper} (h : s.Makes ρ profile fixed P) (session : SessionId)
    (policy : Policy ℚ) (hr : InUnit r) (w : World σ ℚ) :
    w.Submits P (s.step session profile policy fixed r w).2.2 ∧
      InUnit (s.step session profile policy fixed r w).2.1 := by
  have hread : w.Submits P (s.call (.get session) w).2 :=
    s.submits_call (by simp [Call.Submits]) w
  rcases hget : s.call (.get session) w with ⟨e | before, w₁⟩ <;> rw [hget] at hread
  · rw [step_of_unread hget]
    exact ⟨hread, hr⟩
  · rcases hdecide : policy.decide before.phase r with ⟨proposal, r₁⟩
    obtain ⟨hr₁, hproposal⟩ := Policy.exploratory_of_decide hr hdecide
    rcases htarget : Stepper.target profile fixed r₁ with ⟨target, r₂⟩
    rcases hwait : s.pacer.wait target w₁ with ⟨actual, w₂⟩
    -- a pause takes time, but it is no exchange
    have hpause : w₁.Submits P w₂ := by
      refine .of_history_eq ?_
      rw [show w₂ = (s.pacer.wait target w₁).2 by rw [hwait]]
      rfl
    have hplay : P (proposal.toPlay profile (profile.likeness actual.toMillis)) := by
      have hmade := h r₁ proposal w₁.pauses hr₁ hproposal
      rw [htarget] at hmade
      rwa [show actual = (s.pacer.wait target w₁).1 by rw [hwait]]
    have hplayed : w₂.Submits P (s.call (.play session
        (proposal.toPlay profile (profile.likeness actual.toMillis))) w₂).2 := by
      refine s.submits_call ?_ w₂
      rintro _ _ ⟨⟩
      exact hplay
    rw [step_of_calls hget hdecide htarget hwait rfl]
    exact ⟨hread.trans (hpause.trans hplayed), inUnit_of_target hr₁ htarget⟩

namespace Agent

variable {a : Agent}

lemma submits_steps (h : a.stepper.Makes ρ profile a.settings.fixedDelay P) (session : SessionId)
    (policy : Policy ℚ) (n : ℕ) (p : Progress ℚ) (hr : InUnit r) (w : World σ ℚ) :
    w.Submits P (a.steps session profile policy n p r w).2.2 ∧
      InUnit (a.steps session profile policy n p r w).2.1 := by
  induction n generalizing p r w with
  | zero => exact ⟨.of_history_eq rfl, hr⟩
  | succ n ih =>
    by_cases hstopped : p.stopped = true
    · rw [steps_of_stopped hstopped]
      exact ⟨.of_history_eq rfl, hr⟩
    · obtain ⟨hfirst, hr₁⟩ := Stepper.submits_step h session policy hr w
      rcases hstep : a.stepper.step session profile policy a.settings.fixedDelay r w with
        ⟨e | o, r₁, w₁⟩ <;> rw [hstep] at hfirst hr₁
      · rw [steps_of_error hstopped hstep]
        exact ⟨hfirst, hr₁⟩
      · rw [steps_of_ok hstopped hstep]
        obtain ⟨hrest, hr₂⟩ := ih (p.after o) hr₁ w₁
        exact ⟨hfirst.trans hrest, hr₂⟩

/-- The plays of an episode are of a kind if those of its steps are, and the source of random
numbers stays good. -/
theorem submits_runEpisode (h : a.stepper.Makes ρ profile a.settings.fixedDelay P)
    (fresh : GameId) (policy : Policy ℚ) (hr : InUnit r) (w : World σ ℚ) :
    w.Submits P (a.runEpisode fresh profile policy r w).2.2 ∧
      InUnit (a.runEpisode fresh profile policy r w).2.1 := by
  have hopened : w.Submits P
      (a.stepper.call (.create (a.settings.game.getD fresh) profile.player) w).2 :=
    a.stepper.submits_call (by simp [Call.Submits]) w
  rcases hcreate : a.stepper.call (.create (a.settings.game.getD fresh) profile.player) w with
    ⟨e | opened, w₁⟩ <;> rw [hcreate] at hopened
  · rw [runEpisode_of_unopened hcreate]
    exact ⟨hopened, hr⟩
  · obtain ⟨hplayed, hr₁⟩ := submits_steps h opened.session policy a.maxSteps
      (.start opened.phase a.settings.breakerThreshold) hr w₁
    rcases hsteps : a.steps opened.session profile policy a.maxSteps
      (.start opened.phase a.settings.breakerThreshold) r w₁ with ⟨e | p, r₁, w₂⟩ <;>
      rw [hsteps] at hplayed hr₁
    · rw [runEpisode_of_broken hcreate hsteps]
      exact ⟨hopened.trans hplayed, hr₁⟩
    · have hfetched : w₂.Submits P (a.fetch opened.session w₂).2 :=
        a.submits_fetch opened.session w₂
      rcases hfetch : a.fetch opened.session w₂ with ⟨fetched, w₃⟩
      rw [hfetch] at hfetched
      rw [runEpisode_of_reached hcreate hsteps hfetch]
      exact ⟨hopened.trans (hplayed.trans hfetched), hr₁⟩

end Agent

end Episodes

/-! ## The simulated service -/

namespace Simulation

/-- The stake of a staked play may be too high, but it is never invalid. -/
lemma Game.stakeOf_ne_invalidInput {settings : Settings ℚ} {g : Game ℚ} {m : Money ℚ}
    (hm : 0 < m.amount) {e : ServiceError} (h : g.stakeOf settings (some m) = .error e) :
    e.code? ≠ some .invalidInput := by
  have within : ∀ {e}, stakeOf.withinBalance g m = .error e → e.code? ≠ some .invalidInput := by
    intro e he
    unfold stakeOf.withinBalance at he
    split at he
    · obtain rfl := Except.error.inj he
      simp [ServiceError.code?]
    · cases he
  have hpos : (!Scalar.isFinite m.amount || decide (m.amount ≤ (0.0 : ℚ))) = false := by
    simp [Scalar.isFinite, hm]
  simp only [stakeOf, hpos, Bool.false_eq_true, if_false] at h
  split at h
  · split at h
    · obtain rfl := Except.error.inj h
      simp [ServiceError.code?]
    · exact within h
  · exact within h

namespace State

variable {γ : Type} [Chance γ ℚ] {s s' : State γ ℚ}

lemma serve_ne_invalidInput {c : Call ℚ} (hc : c.Submits Play.Staked) {now : Duration}
    {e : ServiceError} (h : s.serve c now = (.error e, s')) : e.code? ≠ some .invalidInput := by
  have hnotFound : ∀ id, (notFound id).code? ≠ some .invalidInput := by
    intro id
    simp [notFound, ServiceError.code?]
  cases c with
  | create game player => simp [serve] at h
  | health => simp [serve] at h
  | get id =>
    rw [get_eq_error (congrArg Prod.fst h)]
    exact hnotFound id
  | page id limit offset =>
    rw [page_eq_error (congrArg Prod.fst h)]
    exact hnotFound id
  | play id p =>
    obtain ⟨-, rfl | ⟨held, -, hrefuses⟩⟩ := play_eq_error h
    · exact hnotFound id
    · cases hrefuses with
      | stake kind _ stake =>
        obtain ⟨m, hm, hpos⟩ := hc id p rfl kind
        rw [hm] at stake
        exact Game.stakeOf_ne_invalidInput hpos stake
      | noStake _ _ _ => simp [noStake, ServiceError.code?]
      | misfit _ _ => simp [unfit, ServiceError.code?]

/-- A call takes nothing from a queue but its first failure. -/
lemma failures_answer_subset (c : Call ℚ) (now : Duration) (k : CallKind) :
    (s.answer c now).2.failures.of k ⊆ s.failures.of k := by
  by_cases h : Operation.concerns k (.call c now) = true
  · have hk : CallKind.of? c = some k := by simpa [Operation.concerns] using h
    rw [show (s.answer c now).2.failures.of k = _ from (takes_call hk s now).2]
    exact List.drop_subset 1 _
  · rw [show (s.answer c now).2.failures.of k = _ from
      (takes_of_not_concerns (Bool.eq_false_of_not_eq_true h) s).2]
    exact List.Subset.refl _

/-- A service to which only staked plays are submitted does not answer that something is invalid,
unless this failure was queued. -/
lemma queued_of_invalidInput {trace : List (Exchange ℚ)}
    (htrace : ∀ x ∈ trace, x.call.Submits Play.Staked) :
    ∀ x ∈ s.exchanges (trace.map Exchange.operation), ∀ e, x.outcome = .error e →
      e.code? = some .invalidInput → ∃ k, e ∈ s.failures.of k := by
  induction trace generalizing s with
  | nil => simp [exchanges]
  | cons y trace ih =>
    rw [List.map_cons, Exchange.operation, exchanges]
    intro x hx e he hcode
    rcases List.mem_cons.mp hx with rfl | hx
    · -- the service itself does not find the call invalid
      rcases (answer_eq_error (Prod.ext he rfl)).1 with ⟨k, -, hqueued⟩ | hserve
      · exact ⟨k, List.mem_of_mem_head? hqueued⟩
      · exact absurd hcode (serve_ne_invalidInput (htrace y List.mem_cons_self) hserve)
    · obtain ⟨k, hk⟩ := ih (fun z hz => htrace z (List.mem_cons_of_mem _ hz)) x hx e he hcode
      exact ⟨k, failures_answer_subset y.call y.time k hk⟩

end State

end Simulation

/-- Where the agent has only submitted staked plays to a simulated service, it was not answered that
something is invalid, unless this failure was queued before. -/
theorem World.Submits.queued {γ : Type} [Chance γ ℚ] {w w' : World (Simulation.State γ ℚ) ℚ}
    (h : w.Submits Play.Staked w') (hreaches : w.Reaches w') :
    ∃ trace, w'.history = w.history ++ trace ∧ ∀ x ∈ trace, ∀ e, x.outcome = .error e →
      e.code? = some .invalidInput → ∃ k, e ∈ w.service.failures.of k := by
  obtain ⟨trace, hhistory, -, hexchanges⟩ := hreaches.replays
  obtain ⟨trace', hhistory', hplays⟩ := h
  obtain rfl : trace = trace' := List.append_cancel_left (hhistory.symm.trans hhistory')
  refine ⟨trace, hhistory, ?_⟩
  have hqueued := Simulation.State.queued_of_invalidInput (s := w.service) hplays
  rwa [hexchanges] at hqueued

end Punter
