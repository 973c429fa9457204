/-
# Retries do not show

Failures that the retrier makes up for do not change what an episode comes to.  Two runs are
compared, each on a simulated service of its own.  Once each has opened its session, the services
are kept alike by one call after the other (`Abreast`), and between the calls the runs do the same,
because neither the decision nor the pause of a step is within what is tried again.
-/
import Mathlib
import Punter.Proofs.Episode.Steps
import Punter.Proofs.Simulation.Alike
import Punter.Proofs.Simulation.Retried
import Punter.Random.Generator

namespace Punter

open Simulation (CallKind Names Operation State)
open Simulation.State (Alike SameExperiences Serves)

variable {γ ρ α : Type}

/-- The report of a pause depends on its target only. -/
def Pacer.Steady (p : Pacer) : Prop :=
  ∀ rank rank' target, (p.pause rank target).reported = (p.pause rank' target).reported

/-- Two runs with services that are alike, since the services were in the states `s` and `s'`: no
session has been opened and all queues have been drained as far as calls were made. -/
structure Abreast (n n' : Label) (s s' : State γ α) (w w' : World (State γ α) α) : Prop where
  alike : Alike n n' w.service w'.service
  opened : w.service.opened = s.opened
  drained : s.Drained w.service
  drained' : s'.Drained w'.service

/-- The session with a label is held. -/
def Holds (n : Label) (w : World (State γ α) α) : Prop :=
  ∃ h, w.service.find? n.session = some h

namespace Abreast

variable [Scalar α] [Chance γ α] [RandomSource ρ α] {a : Stepper} {n n' : Label}
  {s s' : State γ α} {w w' : World (State γ α) α}

/-! ## Calls -/

omit [Scalar α] [Chance γ α] in
lemma wait (hw : Abreast n n' s s' w w') (hn : Holds n w) (steady : a.pacer.Steady)
    (target : Duration) :
    ∃ reported w₁ w₁', a.pacer.wait target w = (reported, w₁) ∧
      a.pacer.wait target w' = (reported, w₁') ∧ Abreast n n' s s' w₁ w₁' ∧ Holds n w₁ := by
  refine ⟨_, _, _, rfl, Prod.ext ?_ rfl, ⟨hw.alike, hw.opened, hw.drained, hw.drained'⟩, hn⟩
  exact steady w'.pauses w.pauses target

variable (hs : s.Spared a.retrier) (hs' : s'.Spared a.retrier)

include hs hs'

/-- Two calls of one kind have the outcomes of the served calls.  If these leave the services
alike, then so do the calls. -/
lemma call (hw : Abreast n n' s s' w w') (c c' : Call α) {k : CallKind}
    (hk : CallKind.of? c = some k) (hk' : CallKind.of? c' = some k) :
    ∃ now now', (a.call c w).1 = (w.service.serve c now).1 ∧
      (a.call c' w').1 = (w'.service.serve c' now').1 ∧
      (a.call c w).2.service =
        (w.service.serve c now).2.withTallies (a.call c w).2.service ∧
      (Alike n n' (w.service.serve c now).2 (w'.service.serve c' now').2 →
        (w.service.serve c now).2.opened = w.service.opened →
        Abreast n n' s s' (a.call c w).2 (a.call c' w').2) := by
  have hserves := State.serves_call a hk (hs.drained hw.drained)
  have hserves' := State.serves_call a hk' (hs'.drained hw.drained')
  obtain ⟨now, houtcome, hservice⟩ := hserves.served
  obtain ⟨now', houtcome', hservice'⟩ := hserves'.served
  refine ⟨now, now', houtcome, houtcome', hservice, fun halike hopened => ?_⟩
  refine ⟨?_, ?_, hw.drained.trans (hserves.keepsOthers.drained hserves.drained),
    hw.drained'.trans (hserves'.keepsOthers.drained hserves'.drained)⟩
  · rw [hservice, hservice']
    exact halike.withTallies _ _
  · rw [hservice]
    exact hopened.trans hw.opened

lemma call_get (hw : Abreast n n' s s' w w') (hn : Holds n w) :
    ∃ o w₁ w₁', a.call (.get n.session) w = (.ok o, w₁) ∧
      a.call (.get n'.session) w' = (.ok o, w₁') ∧ Abreast n n' s s' w₁ w₁' ∧ Holds n w₁ := by
  obtain ⟨now, now', houtcome, houtcome', hservice, habreast⟩ :=
    hw.call hs hs' (.get n.session) (.get n'.session) rfl rfl
  obtain ⟨h, found⟩ := hn
  have hget : w.service.get n.session = .ok (h.game.observation none) := by
    simp only [State.get, found]
  have hget' : w'.service.get n'.session = .ok (h.game.observation none) :=
    (hw.alike.get_eq found).trans hget
  refine ⟨h.game.observation none, _, _, Prod.ext (houtcome.trans hget) rfl,
    Prod.ext (houtcome'.trans hget') rfl, habreast hw.alike rfl, h, ?_⟩
  rw [hservice]
  exact found

lemma call_play (hw : Abreast n n' s s' w w') (hn : Holds n w) (p : Play α) :
    ∃ outcome w₁ w₁', a.call (.play n.session p) w = (outcome, w₁) ∧
      a.call (.play n'.session p) w' = (outcome, w₁') ∧ Abreast n n' s s' w₁ w₁' ∧
      ∀ o, outcome = .ok o → o.isTerminal = false → Holds n w₁ := by
  obtain ⟨now, now', houtcome, houtcome', hservice, habreast⟩ :=
    hw.call hs hs' (.play n.session p) (.play n'.session p) rfl rfl
  obtain ⟨h, found⟩ := hn
  simp only [State.serve] at houtcome houtcome' hservice habreast
  -- whatever retries came before, the play that is served finds both services as they were
  rcases hw.alike.play found p now now' with
    ⟨e, hplay, hplay'⟩ | ⟨o, t, t', hplay, hplay', halike, hopened, hholds⟩
  · rw [hplay] at houtcome habreast
    rw [hplay'] at houtcome' habreast
    exact ⟨.error e, _, _, Prod.ext houtcome rfl, Prod.ext houtcome' rfl,
      habreast hw.alike rfl, by simp⟩
  · rw [hplay] at houtcome hservice habreast
    rw [hplay'] at houtcome' habreast
    refine ⟨.ok o, _, _, Prod.ext houtcome rfl, Prod.ext houtcome' rfl,
      habreast halike hopened, ?_⟩
    rintro _ ⟨⟩ ho
    obtain ⟨h₁, found₁⟩ := hholds ho
    refine ⟨h₁, ?_⟩
    rw [hservice]
    exact found₁

lemma call_page (hw : Abreast n n' s s' w w') (limit offset : Nat) :
    ∃ outcome outcome' w₁ w₁', a.call (.page n.session limit offset) w = (outcome, w₁) ∧
      a.call (.page n'.session limit offset) w' = (outcome', w₁') ∧
      SameExperiences n n' outcome outcome' ∧ Abreast n n' s s' w₁ w₁' := by
  obtain ⟨now, now', houtcome, houtcome', -, habreast⟩ :=
    hw.call hs hs' (.page n.session limit offset) (.page n'.session limit offset) rfl rfl
  exact ⟨_, _, _, _, Prod.ext houtcome rfl, Prod.ext houtcome' rfl, hw.alike.page limit offset,
    habreast hw.alike rfl⟩

/-! ## Steps -/

lemma step (hw : Abreast n n' s s' w w') (hn : Holds n w) (steady : a.pacer.Steady)
    (profile : Profile α) (policy : Policy α) (fixed : Option Duration) (r : ρ) :
    ∃ outcome r₁ w₁ w₁', a.step n.session profile policy fixed r w = (outcome, r₁, w₁) ∧
      a.step n'.session profile policy fixed r w' = (outcome, r₁, w₁') ∧
      Abreast n n' s s' w₁ w₁' ∧ ∀ o, outcome = .ok o → o.done = false → Holds n w₁ := by
  obtain ⟨before, w₁, w₁', hget, hget', hw₁, hn₁⟩ := hw.call_get hs hs' hn
  rcases hdecide : policy.decide before.phase r with ⟨proposal, r₁⟩
  rcases htarget : Stepper.target profile fixed r₁ with ⟨target, r₂⟩
  obtain ⟨actual, w₂, w₂', hwait, hwait', hw₂, hn₂⟩ := hw₁.wait hn₁ steady target
  obtain ⟨outcome, w₃, w₃', hplay, hplay', hw₃, hn₃⟩ := hw₂.call_play hs hs' hn₂
    (proposal.toPlay profile (profile.likeness actual.toMillis))
  refine ⟨_, r₂, w₃, w₃', Stepper.step_of_calls hget hdecide htarget hwait hplay,
    Stepper.step_of_calls hget' hdecide htarget hwait' hplay', hw₃, ?_⟩
  intro o ho hdone
  cases outcome with
  | error e => cases ho
  | ok after =>
    cases ho
    exact hn₃ after rfl hdone

end Abreast

namespace Abreast

variable [Scalar α] [Chance γ α] [RandomSource ρ α] {a : Agent} {n n' : Label}
  {s s' : State γ α} {w w' : World (State γ α) α}
  (hs : s.Spared a.stepper.retrier) (hs' : s'.Spared a.stepper.retrier)

include hs hs'

/-- The steps of two runs.  As long as another step is to be made the session is held. -/
lemma steps (hw : Abreast n n' s s' w w') (steady : a.stepper.pacer.Steady)
    (profile : Profile α) (policy : Policy α) (count : Nat) {p : Progress α}
    (hn : p.done = false → Holds n w) (r : ρ) :
    ∃ outcome r₁ w₁ w₁', a.steps n.session profile policy count p r w = (outcome, r₁, w₁) ∧
      a.steps n'.session profile policy count p r w' = (outcome, r₁, w₁') ∧
      Abreast n n' s s' w₁ w₁' := by
  induction count generalizing p r w w' with
  | zero => exact ⟨.ok p, r, w, w', rfl, rfl, hw⟩
  | succ count ih =>
    by_cases hstopped : p.stopped = true
    · exact ⟨.ok p, r, w, w', Agent.steps_of_stopped hstopped, Agent.steps_of_stopped hstopped, hw⟩
    · -- only its completion could have dropped the session, and then no step would be left
      have hdone : p.done = false := by
        simp only [Progress.stopped, Bool.or_eq_true, not_or, Bool.not_eq_true] at hstopped
        exact hstopped.1
      obtain ⟨outcome, r₁, w₁, w₁', hstep, hstep', hw₁, hn₁⟩ :=
        hw.step hs hs' (hn hdone) steady profile policy a.settings.fixedDelay r
      cases outcome with
      | error e =>
        exact ⟨.error e, r₁, w₁, w₁', Agent.steps_of_error hstopped hstep,
          Agent.steps_of_error hstopped hstep', hw₁⟩
      | ok o =>
        obtain ⟨outcome, r₂, w₂, w₂', hsteps, hsteps', hw₂⟩ :=
          ih hw₁ (p := p.after o) (hn₁ o rfl) r₁
        exact ⟨outcome, r₂, w₂, w₂', (Agent.steps_of_ok hstopped hstep).trans hsteps,
          (Agent.steps_of_ok hstopped hstep').trans hsteps', hw₂⟩

/-! ## Pages -/

lemma fetchFrom (hw : Abreast n n' s s' w w') (limit pages offset : Nat)
    {sofar sofar' : List (Experience α)}
    (hsofar : List.Forall₂ (Experience.Alike n n') sofar sofar') :
    ∃ outcome outcome' w₁ w₁',
      a.stepper.fetchFrom n.session limit pages offset sofar w = (outcome, w₁) ∧
      a.stepper.fetchFrom n'.session limit pages offset sofar' w' = (outcome', w₁') ∧
      Option.Rel (SameExperiences n n') outcome outcome' ∧ Abreast n n' s s' w₁ w₁' := by
  induction pages generalizing offset sofar sofar' w w' with
  | zero => exact ⟨none, none, w, w', rfl, rfl, .none, hw⟩
  | succ pages ih =>
    obtain ⟨outcome, outcome', w₁, w₁', hcall, hcall', hsame, hw₁⟩ :=
      hw.call_page hs hs' limit offset
    match outcome, outcome', hsame with
    | .error e, .error e', _ =>
      exact ⟨some (.error e), some (.error e'), w₁, w₁', by simp only [Stepper.fetchFrom, hcall],
        by simp only [Stepper.fetchFrom, hcall'], .some trivial, hw₁⟩
    | .ok page, .ok page', hpage =>
      -- the pages are of one length, so that both runs stop here or neither does
      have hlength : page'.length = page.length := (List.Forall₂.length_eq hpage).symm
      have happend := List.rel_append hsofar hpage
      by_cases hshort : page.length < limit
      · exact ⟨some (.ok (sofar ++ page)), some (.ok (sofar' ++ page')), w₁, w₁',
          by simp only [Stepper.fetchFrom, hcall, hshort, if_true],
          by simp only [Stepper.fetchFrom, hcall', hlength, hshort, if_true], .some happend, hw₁⟩
      · obtain ⟨outcome, outcome', w₂, w₂', hrest, hrest', hsame, hw₂⟩ :=
          ih hw₁ (min (offset + limit) Call.maxOffset) happend
        exact ⟨outcome, outcome', w₂, w₂',
          by simp only [Stepper.fetchFrom, hcall, hshort, if_false, hrest],
          by simp only [Stepper.fetchFrom, hcall', hlength, hshort, if_false, hrest'], hsame, hw₂⟩

end Abreast

/-! ## Episodes -/

/-- Outcomes of two episodes that came to the same: they differ in the identifier of the session,
and in the identifiers and times of the experiences. -/
structure EpisodeOutcome.Alike (n n' : Label) (o o' : EpisodeOutcome α) : Prop where
  session : o.session = n.session
  session' : o'.session = n'.session
  final : o'.final = o.final
  experiences : List.Forall₂ (Experience.Alike n n') o.experiences o'.experiences
  steps : o'.steps = o.steps
  termination : o'.termination = o.termination
  meanLikeness : o'.meanLikeness = o.meanLikeness

/-- The outcome of an episode that has come so far when its experiences are fetched. -/
def Progress.outcome [Scalar α] (p : Progress α) (session : SessionId)
    (es : List (Experience α)) : EpisodeOutcome α :=
  ⟨session, p.observation, es, p.steps, p.termination, p.likeness / Scalar.ofNat p.steps⟩

/-- Two episodes came to the same, or failed for the same reason. -/
def SameResult (n n' : Label) :
    Except ServiceError (EpisodeOutcome α) → Except ServiceError (EpisodeOutcome α) → Prop
  | .ok o, .ok o' => o.Alike n n' o'
  | .error e, .error e' => e = e'
  | _, _ => False

namespace Agent

lemma forall₂_orNone {n n' : Label} {outcome outcome' : Except ServiceError (List (Experience α))}
    (h : SameExperiences n n' outcome outcome') :
    List.Forall₂ (Experience.Alike n n') (orNone outcome) (orNone outcome') :=
  match outcome, outcome', h with
  | .ok _, .ok _, h => h
  | .error _, .error _, _ => .nil

variable [Scalar α] [Chance γ α] [RandomSource ρ α] {a : Agent} {n n' : Label}
  {w w' : World (State γ α) α}

/-- The openings of two sessions. -/
lemma call_create (hs : w.service.Spared a.stepper.retrier)
    (hs' : w'.service.Spared a.stepper.retrier) (alike : Alike n n' w.service w'.service)
    (hn : w.service.names.session w.service.opened = n.session)
    (hn' : w'.service.names.session w'.service.opened = n'.session)
    (player : Player α) :
    ∃ w₁ w₁',
      a.stepper.call (.create n.game player) w = (.ok ⟨n.session, .initialized⟩, w₁) ∧
      a.stepper.call (.create n'.game player) w' = (.ok ⟨n'.session, .initialized⟩, w₁') ∧
      Abreast n n' w₁.service w₁'.service w₁ w₁' ∧ Holds n w₁ ∧
      w₁.service.opened = w.service.opened + 1 ∧
      w.service.Drained w₁.service ∧ w'.service.Drained w₁'.service := by
  have hserves := State.serves_call (c := .create n.game player) (k := .create) a.stepper rfl hs
  have hserves' := State.serves_call (c := .create n'.game player) (k := .create) a.stepper rfl hs'
  obtain ⟨now, houtcome, hservice⟩ := hserves.served
  obtain ⟨now', houtcome', hservice'⟩ := hserves'.served
  refine ⟨_, _, Prod.ext (houtcome.trans ?_) rfl, Prod.ext (houtcome'.trans ?_) rfl,
    ⟨?_, rfl, .refl _, .refl _⟩, ?_, ?_, hserves.keepsOthers.drained hserves.drained,
    hserves'.keepsOthers.drained hserves'.drained⟩
  · rw [← hn]
    rfl
  · rw [← hn']
    rfl
  · rw [hservice, hservice']
    exact (alike.create hn hn' player).withTallies _ _
  · obtain ⟨h, found⟩ := w.service.exists_find?_create n.game player
    refine ⟨h, ?_⟩
    rw [hservice, ← hn]
    exact found
  · rw [hservice]
    rfl

/-- Episodes on services that are alike. -/
lemma runEpisode_alike (hs : w.service.Spared a.stepper.retrier)
    (hs' : w'.service.Spared a.stepper.retrier) (alike : Alike n n' w.service w'.service)
    (hn : w.service.names.session w.service.opened = n.session)
    (hn' : w'.service.names.session w'.service.opened = n'.session)
    (steady : a.stepper.pacer.Steady) (fresh fresh' : GameId)
    (hgame : a.settings.game.getD fresh = n.game) (hgame' : a.settings.game.getD fresh' = n'.game)
    (profile : Profile α) (policy : Policy α) (r : ρ) :
    ∃ result result' r₁ w₁ w₁', a.runEpisode fresh profile policy r w = (result, r₁, w₁) ∧
      a.runEpisode fresh' profile policy r w' = (result', r₁, w₁') ∧
      Option.Rel (SameResult n n') result result' ∧ Alike n n' w₁.service w₁'.service ∧
      w₁.service.opened = w.service.opened + 1 ∧
      w.service.Drained w₁.service ∧ w'.service.Drained w₁'.service := by
  obtain ⟨w₁, w₁', hcreate, hcreate', hw₁, hn₁, hopened, hdrained, hdrained'⟩ :=
    call_create hs hs' alike hn hn' profile.player
  rw [← hgame] at hcreate
  rw [← hgame'] at hcreate'
  have hs₁ := hs.drained hdrained
  have hs₁' := hs'.drained hdrained'
  obtain ⟨outcome, r₂, w₂, w₂', hsteps, hsteps', hw₂⟩ :=
    hw₁.steps hs₁ hs₁' steady profile policy a.maxSteps
      (p := .start .initialized a.settings.breakerThreshold) (fun _ => hn₁) r
  cases outcome with
  | error e =>
    exact ⟨some (.error e), some (.error e), r₂, w₂, w₂', runEpisode_of_broken hcreate hsteps,
      runEpisode_of_broken hcreate' hsteps', .some rfl, hw₂.alike, hw₂.opened.trans hopened,
      hdrained.trans hw₂.drained, hdrained'.trans hw₂.drained'⟩
  | ok p =>
    obtain ⟨fetched, fetched', w₃, w₃', hfetch, hfetch', hsame, hw₃⟩ :=
      hw₂.fetchFrom hs₁ hs₁' (Stepper.pageLimit a.settings.pageSize) a.horizon 0 .nil
    refine ⟨fetched.map fun fetched => .ok (p.outcome n.session (orNone fetched)),
      fetched'.map fun fetched' => .ok (p.outcome n'.session (orNone fetched')), r₂, w₃, w₃',
      runEpisode_of_reached hcreate hsteps hfetch, runEpisode_of_reached hcreate' hsteps' hfetch',
      ?_, hw₃.alike, hw₃.opened.trans hopened, hdrained.trans hw₃.drained,
      hdrained'.trans hw₃.drained'⟩
    cases hsame with
    | none => exact .none
    | some hsame => exact .some ⟨rfl, rfl, rfl, forall₂_orNone hsame, rfl, rfl, rfl⟩

/-- **Retries do not show.**  Take two simulated services in the same reachable state with empty
queues, and queue failures in the second one: for each kind of call not more than the retrier tries
again, and none of them final.  From then on each service gives out identifiers of its own.  Then
an episode comes to the same on both: it ends with the same failure or with outcomes alike, or its
pages do not end as far as they are followed, having drawn the same from the source of random numbers, and leaves the services alike, each with one
session more.  Nothing is queued then, except for kinds of call that were not made.  The pauses may
take any time as long as their reports depend on their targets only. -/
theorem runEpisode_transparent (a : Agent) (steady : a.stepper.pacer.Steady) (fresh fresh' : GameId)
    (profile : Profile α) (policy : Policy α) (r : ρ) (s : State γ α) (reachable : s.Reachable)
    (empty : ∀ k, s.failures.of k = []) (errs : CallKind → List ServiceError)
    (spared : ∀ k, (∀ e ∈ errs k, a.stepper.retrier.classifier.isRetryable e = true) ∧
      (errs k).length ≤ a.stepper.retrier.backoff.maxRetries)
    (names' : Names) (agree : ∀ i < s.opened, names'.session i = s.names.session i)
    (distinct : s.names.Distinct (s.opened + 1)) (distinct' : names'.Distinct (s.opened + 1))
    (w w' : World (State γ α) α) (hw : w.service = s)
    (hw' : w'.service = { s.injectAll errs with names := names' }) :
    let n : Label := ⟨s.names.session s.opened, a.settings.game.getD fresh⟩
    let n' : Label := ⟨names'.session s.opened, a.settings.game.getD fresh'⟩
    ∃ result result' r₁ w₁ w₁',
      a.runEpisode fresh profile policy r w = (result, r₁, w₁) ∧
      a.runEpisode fresh' profile policy r w' = (result', r₁, w₁') ∧
      Option.Rel (SameResult n n') result result' ∧
      Alike n n' w₁.service w₁'.service ∧
      w₁.service.opened = s.opened + 1 ∧
      (∀ k, w₁.service.failures.of k = []) ∧
      ∀ k, w₁'.service.failures.of k = [] ∨
        (w₁'.service.failures.of k = errs k ∧ w₁'.service.calls.of k = s.calls.of k) := by
  intro n n'
  have hn : s.Fresh n.session := reachable.fresh (fun _ _ => rfl) distinct
  have hn' : s.Fresh n'.session := reachable.fresh agree distinct'
  have hfailures : ∀ k, w'.service.failures.of k = errs k := by
    intro k
    rw [hw']
    exact (State.failures_injectAll s errs k).trans (by rw [empty k, List.nil_append])
  have hs : w.service.Spared a.stepper.retrier := fun k => by simp [hw, empty k]
  have hs' : w'.service.Spared a.stepper.retrier := fun k => by
    rw [hfailures k]
    exact spared k
  -- as long as nobody has a label, only queues and names differ
  have halike : Alike n n' w.service w'.service := by
    rw [hw, hw']
    exact State.alike_of_fresh hn hn' names' (s.injectAll errs)
  obtain ⟨result, result', r₁, w₁, w₁', hrun, hrun', hsame, halike₁, hopened, hdrained,
      hdrained'⟩ :=
    runEpisode_alike hs hs' halike (by rw [hw]) (by rw [hw']; rfl) steady fresh fresh' rfl rfl
      profile policy r
  refine ⟨result, result', r₁, w₁, w₁', hrun, hrun', hsame, halike₁, ?_, ?_, ?_⟩
  · rw [hopened, hw]
  · intro k
    rcases hdrained k with hnil | ⟨hkept, -⟩
    · exact hnil
    · rw [hkept, hw]
      exact empty k
  · intro k
    rcases hdrained' k with hnil | ⟨hkept, hcalls⟩
    · exact Or.inl hnil
    · refine Or.inr ⟨hkept.trans (hfailures k), hcalls.trans ?_⟩
      rw [hw']
      rfl

/-- An episode beside a session with a bet, with resets of every call. -/
theorem runEpisode_transparent_resets :
    let a : Agent := ⟨⟨.standard, .instant⟩, .standard, 1⟩
    let create : Operation ℚ := .call (.create .nil ⟨"cautious", none⟩) .zero
    let bet : Operation ℚ := .call (.play ⟨0⟩ ⟨⟨.placeBet, some ⟨5, .usd⟩⟩, 1⟩) .zero
    let s : State Generator ℚ :=
      (State.new .standard .counting (Generator.ofSeed 7)).run [create, bet]
    let errs : CallKind → List ServiceError := fun _ => [.transport "reset", .transport "reset"]
    let names' : Names := ⟨fun n => ⟨.ofNat 128 (100 * n)⟩, fun n => ⟨.ofNat 128 n⟩⟩
    let r : Script ℚ := .ofList [1 / 2, 3 / 4]
    let w : World (State Generator ℚ) ℚ := .start s
    let w' : World (State Generator ℚ) ℚ := .start { s.injectAll errs with names := names' }
    ∃ result result' r₁ w₁ w₁',
      a.runEpisode ⟨7⟩ .standard .standard r w = (result, r₁, w₁) ∧
      a.runEpisode ⟨8⟩ .standard .standard r w' = (result', r₁, w₁') ∧
      Option.Rel (SameResult ⟨⟨1⟩, ⟨7⟩⟩ ⟨⟨100⟩, ⟨8⟩⟩) result result' ∧
      Alike ⟨⟨1⟩, ⟨7⟩⟩ ⟨⟨100⟩, ⟨8⟩⟩ w₁.service w₁'.service ∧ w₁.service.opened = 2 := by
  intro a create bet s errs names' r w w'
  have hopened : s.opened = 1 := by decide +kernel
  have hnames : s.names = .counting := State.names_run _ _
  have agree : ∀ i < s.opened, names'.session i = s.names.session i := by
    rw [hopened, hnames]
    decide
  have distinct : s.names.Distinct (s.opened + 1) := by
    rw [hopened, hnames]
    exact Names.distinct_counting (by decide)
  have distinct' : names'.Distinct (s.opened + 1) := by
    rw [hopened]
    simp only [Names.Distinct]
    decide
  obtain ⟨result, result', r₁, w₁, w₁', hrun, hrun', hsame, halike, hone, -⟩ :=
    runEpisode_transparent a (fun _ _ _ => rfl) ⟨7⟩ ⟨8⟩ .standard .standard r s
      ⟨_, _, _, _, rfl⟩ (fun k => by cases k <;> decide +kernel) errs
      (fun k => by cases k <;> decide) names' agree distinct distinct' w w' rfl rfl
  rw [hnames, hopened] at hsame halike
  rw [hopened] at hone
  exact ⟨result, result', r₁, w₁, w₁', hrun, hrun', hsame, halike, hone⟩

end Agent

end Punter
