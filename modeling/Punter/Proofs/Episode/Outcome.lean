/-
# What an episode comes to

The outcome of an episode is read off the exchanges with which its calls were settled.  Three
things are looked at there: the failures of calls without which the episode cannot go on, the
answers to plays, and what came of the wishes for pages.  Each part of an episode says little about
two of the three (`Protocol.Tells`), so that the outcome of the whole is put together from its
parts.

How many failures the breaker endures makes no difference: it is asked only after a step that did
not fail, when it counts none.
-/
import Mathlib
import Punter.Proofs.Episode.Protocol

namespace Punter

variable {σ ρ α : Type}

/-! ## What exchanges tell -/

namespace Exchange

/-- The failure of a call without which an episode cannot go on. -/
def fatal : Exchange α → Option ServiceError
  | ⟨_, .create _ _, .error e⟩ => some e
  | ⟨_, .get _, .error e⟩ => some e
  | ⟨_, .play _ _, .error e⟩ => some e
  | _ => none

/-- The answer to a play. -/
def played : Exchange α → Option (Observation α)
  | ⟨_, .play _ _, .ok o⟩ => some o
  | _ => none

/-- What came of the wish for a page. -/
def fetched : Exchange α → Option (Except ServiceError (List (Experience α)))
  | ⟨_, .page _ _ _, outcome⟩ => some outcome
  | _ => none

end Exchange

namespace Protocol

/-- Everything that some exchanges tell about an outcome. -/
structure Tells (xs : List (Exchange α)) (failures : List ServiceError)
    (os : List (Observation α)) (pages : List (Except ServiceError (List (Experience α)))) :
    Prop where
  fatal : xs.filterMap Exchange.fatal = failures
  played : xs.filterMap Exchange.played = os
  fetched : xs.filterMap Exchange.fetched = pages

variable {session : SessionId} {xs ys : List (Exchange α)}

lemma Tells.append {failures failures' : List ServiceError} {os os' : List (Observation α)}
    {pages pages' : List (Except ServiceError (List (Experience α)))}
    (h : Tells xs failures os pages) (h' : Tells ys failures' os' pages') :
    Tells (xs ++ ys) (failures ++ failures') (os ++ os') (pages ++ pages') where
  fatal := by rw [List.filterMap_append, h.fatal, h'.fatal]
  played := by rw [List.filterMap_append, h.played, h'.played]
  fetched := by rw [List.filterMap_append, h.fetched, h'.fetched]

lemma tells_created (now : Duration) (game : GameId) (player : Player α) (opened : Opened) :
    Tells [⟨now, .create game player, .ok opened⟩] [] [] [] :=
  ⟨rfl, rfl, rfl⟩

lemma Step.tells_of_ok {o : Observation α} (h : Step session xs (.ok o)) : Tells xs [] [o] [] := by
  cases h with
  | played => exact ⟨rfl, rfl, rfl⟩

lemma Step.tells_of_error {e : ServiceError} (h : Step session xs (.error e)) :
    Tells xs [e] [] [] := by
  cases h with
  | unread => exact ⟨rfl, rfl, rfl⟩
  | played => exact ⟨rfl, rfl, rfl⟩

lemma Steps.tells {os : List (Observation α)} (h : Steps session xs os) : Tells xs [] os [] := by
  induction h with
  | nil => exact ⟨rfl, rfl, rfl⟩
  | cons step rest ih => exact step.tells_of_ok.append ih

/-- What came of the wishes for pages of a size, and the experiences that are left of them.  All
pages but the last one were full. -/
inductive Collects (limit : Nat) :
    List (Except ServiceError (List (Experience α))) → List (Experience α) → Prop
  /-- The last page was not full, and the experiences are those of all pages. -/
  | complete (pages : List (List (Experience α))) (last : List (Experience α))
      (full : ∀ page ∈ pages, limit ≤ page.length) (short : last.length < limit) :
      Collects limit (pages.map .ok ++ [.ok last]) (pages ++ [last]).flatten
  /-- The last page was not got, and there are no experiences. -/
  | incomplete (pages : List (List (Experience α))) (e : ServiceError)
      (full : ∀ page ∈ pages, limit ≤ page.length) :
      Collects limit (pages.map .ok ++ [.error e]) []

/-- Nothing but full pages was got, and another one will be asked for. -/
def Unended (limit : Nat) (told : List (Except ServiceError (List (Experience α)))) : Prop :=
  ∃ pages : List (List (Experience α)), told = pages.map .ok ∧ ∀ page ∈ pages, limit ≤ page.length

/-- All pages but the last one are full, and only the last one may fail. -/
lemma Pages.tells {limit k : Nat} {fetched : Option (Except ServiceError (List (Experience α)))}
    (h : Pages session limit k xs fetched) :
    ∃ pages : List (List (Experience α)), (∀ page ∈ pages, limit ≤ page.length) ∧
      ((Tells xs [] [] (pages.map .ok) ∧ fetched = none ∧ xs.length = pages.length) ∨
        (∃ last, Tells xs [] [] (pages.map .ok ++ [.ok last]) ∧ last.length < limit ∧
          fetched = some (.ok (pages ++ [last]).flatten)) ∨
        ∃ e, Tells xs [] [] (pages.map .ok ++ [.error e]) ∧ fetched = some (.error e)) := by
  induction h with
  | unended => exact ⟨[], by simp, .inl ⟨⟨rfl, rfl, rfl⟩, rfl, rfl⟩⟩
  | failed now e => exact ⟨[], by simp, .inr (.inr ⟨e, ⟨rfl, rfl, rfl⟩, rfl⟩)⟩
  | last now page short =>
    refine ⟨[], by simp, .inr (.inl ⟨page, ⟨rfl, rfl, rfl⟩, short, ?_⟩)⟩
    rw [List.nil_append, List.flatten_singleton]
  | @more k xs rest now page full _ ih =>
    have hpage : Tells [(⟨now, .page session limit (pageOffset limit k), .ok page⟩ : Exchange α)]
        [] [] [.ok page] := ⟨rfl, rfl, rfl⟩
    obtain ⟨ps, hfull, hends⟩ := ih
    refine ⟨page :: ps, List.forall_mem_cons.mpr ⟨full, hfull⟩, ?_⟩
    rcases hends with ⟨htells, rfl, hlength⟩ | ⟨last, htells, short, rfl⟩ | ⟨e, htells, rfl⟩
    · exact .inl ⟨hpage.append htells, rfl, congrArg (· + 1) hlength⟩
    · exact .inr (.inl ⟨last, hpage.append htells, short, rfl⟩)
    · exact .inr (.inr ⟨e, hpage.append htells, rfl⟩)

/-- The experiences that are left, from what came of the wishes for pages. -/
lemma Pages.collects {limit k : Nat} {fetched : Except ServiceError (List (Experience α))}
    (h : Pages session limit k xs (some fetched)) :
    ∃ told, Tells xs [] [] told ∧ Collects limit told (Agent.orNone fetched) := by
  obtain ⟨pages, full, ⟨-, hnone, -⟩ | ⟨last, htells, short, hfetched⟩ | ⟨e, htells, hfetched⟩⟩ :=
    h.tells
  · cases hnone
  · obtain rfl := Option.some.inj hfetched
    exact ⟨_, htells, .complete pages last full short⟩
  · obtain rfl := Option.some.inj hfetched
    exact ⟨_, htells, .incomplete pages e full⟩

end Protocol

/-! ## Outcomes -/

/-- An outcome that is what an episode of at most `maxSteps` steps, with pages of the size `limit`,
has to come to when its calls are settled with the exchanges `xs`. -/
structure EpisodeOutcome.Reflects (maxSteps limit : Nat) (xs : List (Exchange α))
    (o : EpisodeOutcome α) : Prop where
  final : (xs.filterMap Exchange.played).getLast? = some o.final
  steps_eq : o.steps = (xs.filterMap Exchange.played).length
  one_le : 1 ≤ o.steps
  steps_le : o.steps ≤ maxSteps
  /-- Only the last play has ended the session. -/
  going : ∀ before ∈ (xs.filterMap Exchange.played).dropLast, before.isTerminal = false
  done_iff : o.termination = .done ↔ o.final.isTerminal = true
  capped : o.final.isTerminal = false → o.termination = .stepCap ∧ o.steps = maxSteps
  unbroken : o.termination ≠ .breakerOpen
  /-- Pages were asked for, up to one that was not full or not got; the experiences are those of all
  pages, or there are none. -/
  experiences : Protocol.Collects limit (xs.filterMap Exchange.fetched) o.experiences

namespace Protocol

variable {game : GameId} {player : Player α} {maxSteps limit horizon : Nat}
  {xs ys : List (Exchange α)}

/-- An outcome reflects what is told of the plays and the pages that it comes from. -/
lemma Tells.reflects {os : List (Observation α)}
    {told : List (Except ServiceError (List (Experience α)))} {o : EpisodeOutcome α}
    (htells : Tells xs [] os told) (going : ∀ o ∈ os.dropLast, o.isTerminal = false)
    (length_le : os.length ≤ maxSteps) (ended : o.final.isTerminal = true ∨ os.length = maxSteps)
    (final : os.getLast? = some o.final) (steps_eq : o.steps = os.length)
    (termination : o.termination = if o.final.isTerminal then .done else .stepCap)
    (hcollects : Collects limit told o.experiences) : o.Reflects maxSteps limit xs where
  final := by rw [htells.played, final]
  steps_eq := by rw [htells.played, steps_eq]
  one_le := by
    rw [steps_eq]
    refine List.length_pos_of_ne_nil ?_
    rintro rfl
    simp at final
  steps_le := by rwa [steps_eq]
  going := by rwa [htells.played]
  done_iff := by
    rw [termination]
    cases o.final.isTerminal <;> simp
  capped := by
    intro hgoing
    rw [hgoing] at ended termination
    exact ⟨termination, steps_eq.trans (ended.resolve_left Bool.false_ne_true)⟩
  unbroken := by
    rw [termination]
    cases o.final.isTerminal <;> simp
  experiences := by rwa [htells.fetched]

/-- An episode fails with the one failure that it cannot endure; without one it has an outcome,
unless all pages that were looked at are full. -/
lemma Episode.told {result : Option (Except ServiceError (EpisodeOutcome α))}
    (h : Episode game player maxSteps limit horizon xs result) :
    (∃ e, result = some (.error e) ∧ xs.filterMap Exchange.fatal = [e]) ∨
      (∃ o, result = some (.ok o) ∧ xs.filterMap Exchange.fatal = [] ∧
        o.Reflects maxSteps limit xs) ∨
      (result = none ∧ xs.filterMap Exchange.fatal = [] ∧
        Unended limit (xs.filterMap Exchange.fetched) ∧
        (xs.filterMap Exchange.fetched).length = horizon) := by
  cases h with
  | unopened now e => exact .inl ⟨e, rfl, rfl⟩
  | @broken now opened _ _ _ e steps going length_lt failed =>
    have htells := (tells_created now game player opened).append
      (steps.tells.append failed.tells_of_error)
    exact .inl ⟨e, rfl, htells.fatal⟩
  | @played now opened xs ys os fetched o steps going length_le ended pages _ _ final steps_eq
      experiences termination =>
    obtain ⟨told, hpages, hcollects⟩ := pages.collects
    have htells := (tells_created now game player opened).append (steps.tells.append hpages)
    simp only [List.nil_append, List.append_nil] at htells
    exact .inr (.inl ⟨o, rfl, htells.fatal, htells.reflects going length_le ended final steps_eq
      termination (experiences ▸ hcollects)⟩)
  | @unended now opened xs ys os final steps _ _ _ _ pages pages_eq =>
    obtain ⟨told, full, hends⟩ := pages.tells
    rcases hends with ⟨hpages, -, hlength⟩ | ⟨last, -, -, hfetched⟩ | ⟨e, -, hfetched⟩
    · have htells := (tells_created now game player opened).append (steps.tells.append hpages)
      have hfetched : (_ :: (xs ++ ys)).filterMap Exchange.fetched = told.map .ok := htells.fetched
      refine .inr (.inr ⟨rfl, htells.fatal, ⟨told, hfetched, full⟩, ?_⟩)
      rw [hfetched, List.length_map, ← hlength, pages_eq]
    · cases hfetched
    · cases hfetched

lemma Episode.reflects {o : EpisodeOutcome α}
    (h : Episode game player maxSteps limit horizon xs (some (.ok o))) :
    o.Reflects maxSteps limit xs := by
  rcases h.told with ⟨e, herror, -⟩ | ⟨_, heq, -, hreflects⟩ | ⟨hnone, -⟩
  · cases herror
  · obtain rfl := Except.ok.inj (Option.some.inj heq)
    exact hreflects
  · cases hnone

end Protocol

/-! ## The breaker makes no difference -/

/-- The progress of an episode with another breaker. -/
def Progress.withBreaker (b : Breaker) (p : Progress α) : Progress α := { p with breaker := b }

/-- An agent whose breaker endures another number of failures. -/
def Agent.withThreshold (a : Agent) (threshold : Nat) : Agent :=
  { a with settings := { a.settings with breakerThreshold := threshold } }

namespace Agent

variable [Scalar α] [Service σ α] [RandomSource ρ α]

/-- As long as both breakers are closed the loop of steps goes the same way with either.  The
induction is on the steps that are allowed; a step that does not fail leaves a closed breaker as
it is. -/
lemma steps_withBreaker (a : Agent) (threshold : Nat) (session : SessionId) (profile : Profile α)
    (policy : Policy α) (n : Nat) {p : Progress α} {b : Breaker} (hp : p.breaker.Closed)
    (hb : b.Closed) (r : ρ) (w : World σ α) :
    (a.withThreshold threshold).steps session profile policy n (p.withBreaker b) r w =
      ((a.steps session profile policy n p r w).1.map (Progress.withBreaker b),
        (a.steps session profile policy n p r w).2) := by
  induction n generalizing p r w with
  | zero => rfl
  | succ n ih =>
    have hsame : (p.withBreaker b).stopped = p.stopped := by
      rw [Progress.stopped_eq_done hp, Progress.stopped_eq_done (p := p.withBreaker b) hb]
      rfl
    by_cases hstopped : p.stopped = true
    · rw [steps_of_stopped hstopped, steps_of_stopped (hsame.trans hstopped)]
      rfl
    · have hstopped' : ¬ (p.withBreaker b).stopped = true := by rwa [hsame]
      rcases h : a.stepper.step session profile policy a.settings.fixedDelay r w with
        ⟨e | o, r₁, w₁⟩
      · rw [steps_of_error hstopped h, steps_of_error (a := a.withThreshold threshold) hstopped' h]
        rfl
      · have hafter : (p.withBreaker b).after o = (p.after o).withBreaker b := by
          simp only [Progress.after, Progress.withBreaker, hb.succeed_eq]
        have hclosed : (p.after o).breaker.Closed := by
          rw [Progress.breaker_after hp]
          exact hp
        rw [steps_of_ok hstopped h, steps_of_ok (a := a.withThreshold threshold) hstopped' h,
          hafter, ih hclosed]

/-- An episode goes the same way however many failures the breaker endures. -/
theorem runEpisode_withThreshold (a : Agent) (threshold : Nat) (fresh : GameId)
    (profile : Profile α) (policy : Policy α) (r : ρ) (w : World σ α) :
    (a.withThreshold threshold).runEpisode fresh profile policy r w =
      a.runEpisode fresh profile policy r w := by
  rcases hcreate : a.stepper.call (.create (a.settings.game.getD fresh) profile.player) w with
    ⟨e | opened, w₁⟩
  · rw [runEpisode_of_unopened hcreate,
      runEpisode_of_unopened (a := a.withThreshold threshold) hcreate]
  · have hclosed := Breaker.closed_new a.settings.breakerThreshold
    have hclosed' := Breaker.closed_new threshold
    have hsteps' := a.steps_withBreaker threshold opened.session profile policy a.maxSteps
      (p := .start opened.phase a.settings.breakerThreshold) hclosed hclosed' r w₁
    obtain ⟨_, _, hwalks⟩ := a.asks_steps opened.session profile policy a.maxSteps
      (p := .start opened.phase a.settings.breakerThreshold) hclosed r w₁
    rcases hsteps : a.steps opened.session profile policy a.maxSteps
      (.start opened.phase a.settings.breakerThreshold) r w₁ with ⟨e | p, r₁, w₂⟩ <;>
      rw [hsteps] at hsteps' hwalks
    · rw [runEpisode_of_broken hcreate hsteps,
        runEpisode_of_broken (a := a.withThreshold threshold) hcreate hsteps']
    · rcases hfetch : a.fetch opened.session w₂ with ⟨fetched, w₃⟩
      have hbreaker : p.breaker.Closed := by
        cases hwalks with
        | reached _ reached => exact reached.breaker ▸ hclosed
      rw [runEpisode_of_reached hcreate hsteps hfetch,
        runEpisode_of_reached (a := a.withThreshold threshold) hcreate hsteps' hfetch,
        Progress.termination_eq hbreaker,
        Progress.termination_eq (p := p.withBreaker (.new threshold)) hclosed']
      rfl

/-- **What an episode comes to**: it fails exactly with the failure of a call that opens its
session, reads it or plays in it; without such a failure it has an outcome that reflects what it was
answered.  The one exception are pages that do not end: where as many were looked at as may be and
each of them was full, there is no outcome yet, and wherever there is one it does not depend on how
many may be looked at.  How many failures the breaker endures changes neither what is returned nor
what is asked.  The exchanges `xs` are the ones in which the calls of the episode were settled. -/
theorem episode_outcome (a : Agent) (fresh : GameId) (profile : Profile α) (policy : Policy α)
    (r : ρ) (w : World σ α) :
    (∃ xs,
      (∀ ys, a.stepper.retrier.Asks ys w (a.runEpisode fresh profile policy r w).2.2 ↔ ys = xs) ∧
      (∀ e, (a.runEpisode fresh profile policy r w).1 = some (.error e) ↔
        e ∈ xs.filterMap Exchange.fatal) ∧
      (xs.filterMap Exchange.fatal = [] →
        (∃ o, (a.runEpisode fresh profile policy r w).1 = some (.ok o) ∧
          o.Reflects (max a.settings.maxSteps 1) (min (max a.settings.pageSize 1) Call.maxPage)
            xs) ∨
        ((a.runEpisode fresh profile policy r w).1 = none ∧
          Protocol.Unended (min (max a.settings.pageSize 1) Call.maxPage)
            (xs.filterMap Exchange.fetched) ∧
          (xs.filterMap Exchange.fetched).length = a.horizon))) ∧
    (∀ n, a.horizon ≤ n → (a.runEpisode fresh profile policy r w).1 ≠ none →
      (a.withHorizon n).runEpisode fresh profile policy r w =
        a.runEpisode fresh profile policy r w) ∧
    ∀ threshold, (a.withThreshold threshold).runEpisode fresh profile policy r w =
      a.runEpisode fresh profile policy r w := by
  refine ⟨?_, fun n hn hended => runEpisode_withHorizon hended hn,
    fun threshold => a.runEpisode_withThreshold threshold fresh profile policy r w⟩
  obtain ⟨xs, hasks, hepisode⟩ := a.asks_runEpisode fresh profile policy r w
  refine ⟨xs, fun ys => ⟨fun hys => hys.unique hasks, fun hys => hys ▸ hasks⟩, ?_⟩
  rcases hepisode.told with ⟨e, hresult, hfatal⟩ | ⟨o, hresult, hfatal, hreflects⟩ |
    ⟨hresult, hfatal, hunended, hlength⟩
  · rw [hresult, hfatal]
    refine ⟨?_, by simp⟩
    intro e'
    rw [List.mem_singleton]
    exact ⟨fun h => (Except.error.inj (Option.some.inj h)).symm, fun h => h ▸ rfl⟩
  · rw [hresult, hfatal]
    exact ⟨by simp, fun _ => .inl ⟨o, rfl, hreflects⟩⟩
  · rw [hresult, hfatal]
    exact ⟨by simp, fun _ => .inr ⟨rfl, hunended, hlength⟩⟩

end Agent

end Punter
