/-
# The protocol of an episode

Whatever the service answers, the calls of an episode come in one order: the opening of a session;
steps, each of which reads the session and then plays in it; pages.  The grammar of this order
(`Protocol.Episode`) is about calls that are settled, one exchange each.  That every call is made
in a block of attempts is a matter of `Retrier.Asks` alone, and the three loops — of attempts, of
steps and of pages — are kept apart in that way.

No call follows one that has failed for good (`Protocol.Unfailing`).  The breaker takes no part in
this: it only counts failures in a row, and the first step that fails ends the episode.
-/
import Mathlib
import Punter.Proofs.Episode.Steps
import Punter.Proofs.Resilience.Blocks

namespace Punter

variable {σ ρ α : Type}

/-! ## The grammar -/

namespace Protocol

/-- The calls of a step, and what it came to. -/
inductive Step (session : SessionId) :
    List (Exchange α) → Except ServiceError (Observation α) → Prop
  /-- The session cannot be read. -/
  | unread (now : Duration) (e : ServiceError) :
      Step session [⟨now, .get session, .error e⟩] (.error e)
  /-- The session is read, and then played in. -/
  | played (now now' : Duration) (before : Observation α) (p : Play α)
      (outcome : Except ServiceError (Observation α)) :
      Step session [⟨now, .get session, .ok before⟩, ⟨now', .play session p, outcome⟩] outcome

/-- The calls of steps that were made, and how the plays were answered. -/
inductive Steps (session : SessionId) : List (Exchange α) → List (Observation α) → Prop
  | nil : Steps session [] []
  | cons {xs ys : List (Exchange α)} {o : Observation α} {os : List (Observation α)}
      (step : Step session xs (.ok o)) (rest : Steps session ys os) :
      Steps session (xs ++ ys) (o :: os)

/-- The offset of the page with a number. -/
def pageOffset (limit k : Nat) : Nat := min (k * limit) Call.maxOffset

/-- The calls for pages from the page with the number `k` on, and what they came to.  After a full
page comes another one, and the loop may go on when they are looked at. -/
inductive Pages (session : SessionId) (limit : Nat) :
    Nat → List (Exchange α) → Option (Except ServiceError (List (Experience α))) → Prop
  | unended {k : Nat} : Pages session limit k [] none
  | failed {k : Nat} (now : Duration) (e : ServiceError) :
      Pages session limit k [⟨now, .page session limit (pageOffset limit k), .error e⟩]
        (some (.error e))
  | last {k : Nat} (now : Duration) (page : List (Experience α)) (short : page.length < limit) :
      Pages session limit k [⟨now, .page session limit (pageOffset limit k), .ok page⟩]
        (some (.ok page))
  | more {k : Nat} {xs : List (Exchange α)}
      {rest : Option (Except ServiceError (List (Experience α)))}
      (now : Duration) (page : List (Experience α)) (full : limit ≤ page.length)
      (pages : Pages session limit (k + 1) xs rest) :
      Pages session limit k
        (⟨now, .page session limit (pageOffset limit k), .ok page⟩ :: xs)
        (rest.map (Except.map (page ++ ·)))

/-- The calls of an episode of at most `maxSteps` steps, with pages of the size `limit` of which
`horizon` are looked at, and what the episode came to. -/
inductive Episode (game : GameId) (player : Player α) (maxSteps limit horizon : Nat) :
    List (Exchange α) → Option (Except ServiceError (EpisodeOutcome α)) → Prop
  /-- No session can be opened. -/
  | unopened (now : Duration) (e : ServiceError) :
      Episode game player maxSteps limit horizon [⟨now, .create game player, .error e⟩]
        (some (.error e))
  /-- A step fails. -/
  | broken {now : Duration} {opened : Opened} {xs ys : List (Exchange α)}
      {os : List (Observation α)} {e : ServiceError} (steps : Steps opened.session xs os)
      (going : ∀ o ∈ os, o.isTerminal = false) (length_lt : os.length < maxSteps)
      (failed : Step opened.session ys (.error e)) :
      Episode game player maxSteps limit horizon
        (⟨now, .create game player, .ok opened⟩ :: (xs ++ ys)) (some (.error e))
  /-- All steps are made, and pages are asked for until one is the last. -/
  | played {now : Duration} {opened : Opened} {xs ys : List (Exchange α)}
      {os : List (Observation α)} {fetched : Except ServiceError (List (Experience α))}
      {o : EpisodeOutcome α} (steps : Steps opened.session xs os)
      (going : ∀ o ∈ os.dropLast, o.isTerminal = false) (length_le : os.length ≤ maxSteps)
      (ended : o.final.isTerminal = true ∨ os.length = maxSteps)
      (pages : Pages opened.session limit 0 ys (some fetched)) (pages_le : ys.length ≤ horizon)
      (session_eq : o.session = opened.session) (final : os.getLast? = some o.final)
      (steps_eq : o.steps = os.length) (experiences : o.experiences = Agent.orNone fetched)
      (termination : o.termination = if o.final.isTerminal then .done else .stepCap) :
      Episode game player maxSteps limit horizon
        (⟨now, .create game player, .ok opened⟩ :: (xs ++ ys)) (some (.ok o))
  /-- All steps are made, and no page that was looked at is the last. -/
  | unended {now : Duration} {opened : Opened} {xs ys : List (Exchange α)}
      {os : List (Observation α)} {final : Observation α} (steps : Steps opened.session xs os)
      (going : ∀ o ∈ os.dropLast, o.isTerminal = false) (length_le : os.length ≤ maxSteps)
      (last : os.getLast? = some final)
      (ended : final.isTerminal = true ∨ os.length = maxSteps)
      (pages : Pages opened.session limit 0 ys none) (pages_eq : ys.length = horizon) :
      Episode game player maxSteps limit horizon
        (⟨now, .create game player, .ok opened⟩ :: (xs ++ ys)) none

end Protocol

/-! ## The breaker -/

namespace Breaker

/-- No failure has been counted since the last success. -/
def Closed (b : Breaker) : Prop := b.failures = 0 ∧ 0 < b.threshold

lemma closed_new (threshold : Nat) : (new threshold).Closed :=
  ⟨rfl, lt_max_of_lt_right Nat.zero_lt_one⟩

lemma Closed.isOpen_eq {b : Breaker} (hb : b.Closed) : b.isOpen = false := by
  obtain ⟨hfailures, hpos⟩ := hb
  simp [isOpen, hfailures, hpos.ne']

lemma Closed.succeed_eq {b : Breaker} (hb : b.Closed) : b.succeed = b := by
  rw [succeed, ← hb.1]

end Breaker

namespace Progress

lemma stopped_eq_done {p : Progress α} (hp : p.breaker.Closed) : p.stopped = p.done := by
  rw [stopped, hp.isOpen_eq, Bool.or_false]

lemma termination_eq {p : Progress α} (hp : p.breaker.Closed) :
    p.termination = if p.done then .done else .stepCap := by
  rw [termination, hp.isOpen_eq]
  rfl

/-- A step that did not fail leaves a closed breaker as it is. -/
lemma breaker_after [Scalar α] {p : Progress α} (hp : p.breaker.Closed) (o : StepOutcome α) :
    (p.after o).breaker = p.breaker := hp.succeed_eq

end Progress

/-! ## Steps -/

section Steps

variable [Scalar α] [Service σ α] [RandomSource ρ α]

/-- A step asks what a step is to ask. -/
lemma Stepper.asks_step (s : Stepper) (session : SessionId) (profile : Profile α)
    (policy : Policy α) (fixed : Option Duration) (r : ρ) (w : World σ α) :
    ∃ xs, s.retrier.Asks xs w (s.step session profile policy fixed r w).2.2 ∧
      Protocol.Step session xs
        ((s.step session profile policy fixed r w).1.map StepOutcome.observation) := by
  obtain ⟨now, hasks⟩ := s.asks_call (.get session) w
  rcases hget : s.call (.get session) w with ⟨e | before, w₁⟩ <;> rw [hget] at hasks
  · rw [step_of_unread hget]
    exact ⟨_, hasks, .unread now e⟩
  · rcases hdecide : policy.decide before.phase r with ⟨proposal, r₁⟩
    rcases htarget : Stepper.target profile fixed r₁ with ⟨target, r₂⟩
    rcases hwait : s.pacer.wait target w₁ with ⟨actual, w₂⟩
    obtain ⟨now', hasks'⟩ :=
      s.asks_call (.play session (proposal.toPlay profile (profile.likeness actual.toMillis))) w₂
    rcases hplay : s.call (.play session (proposal.toPlay profile
      (profile.likeness actual.toMillis))) w₂ with ⟨outcome, w₃⟩
    rw [hplay] at hasks'
    -- nothing is asked during the pause
    have hpause : s.retrier.Asks [] w₁ w₂ := by
      refine .of_history_eq ?_
      rw [show w₂ = (s.pacer.wait target w₁).2 by rw [hwait]]
      rfl
    rw [step_of_calls hget hdecide htarget hwait hplay]
    refine ⟨_, (hasks.trans hpause).trans hasks', ?_⟩
    have houtcome : ∀ f : Observation α → StepOutcome α, (∀ o, (f o).observation = o) →
        (outcome.map f).map StepOutcome.observation = outcome := by
      intro f hf
      cases outcome with
      | error e => rfl
      | ok o => exact congrArg Except.ok (hf o)
    rw [houtcome _ fun _ => rfl]
    exact .played now now' before _ outcome

/-- How far the steps of an episode have come when the plays were answered with `os`, where they
had come as far as `p` before. -/
structure Progress.Reached (n : Nat) (p : Progress α) (os : List (Observation α))
    (p' : Progress α) : Prop where
  idle : p.done = true → os = []
  length_le : os.length ≤ n
  /-- Only the last step can end the session. -/
  going : ∀ o ∈ os.dropLast, o.isTerminal = false
  steps : p'.steps = p.steps + os.length
  observation : p'.observation = os.getLast?.getD p.observation
  done : p'.done = os.getLast?.elim p.done Observation.isTerminal
  breaker : p'.breaker = p.breaker
  ended : p'.done = true ∨ os.length = n

/-- What steps came to: one of them failed, or all were made. -/
inductive Progress.Walks (session : SessionId) (n : Nat) (p : Progress α) :
    List (Exchange α) → Except ServiceError (Progress α) → Prop
  | broken {xs ys : List (Exchange α)} {os : List (Observation α)} {e : ServiceError}
      (steps : Protocol.Steps session xs os) (going : ∀ o ∈ os, o.isTerminal = false)
      (length_lt : os.length < n) (failed : Protocol.Step session ys (.error e))
      (undone : p.done = false) : Walks session n p (xs ++ ys) (.error e)
  | reached {xs : List (Exchange α)} {os : List (Observation α)} {p' : Progress α}
      (steps : Protocol.Steps session xs os) (reached : p.Reached n os p') :
      Walks session n p xs (.ok p')

omit [Scalar α] in
lemma Progress.reached_refl {n : Nat} {p : Progress α} (h : p.done = true ∨ n = 0) :
    p.Reached n [] p where
  idle := fun _ => rfl
  length_le := Nat.zero_le n
  going := by simp
  steps := rfl
  observation := rfl
  done := rfl
  breaker := rfl
  ended := h.imp_right Eq.symm

/-- One more step before others. -/
lemma Progress.Reached.cons {n : Nat} {p p' : Progress α} {o : StepOutcome α}
    {os : List (Observation α)} (hp : p.breaker.Closed) (undone : p.done = false)
    (h : (p.after o).Reached n os p') : p.Reached (n + 1) (o.observation :: os) p' where
  idle := fun hdone => absurd hdone (by simp [undone])
  length_le := Nat.succ_le_succ h.length_le
  going := by
    cases os with
    | nil => simp
    | cons o' os =>
      -- another step was made, so that this one did not end the session
      have hdone : ¬ (p.after o).done = true := fun hdone => List.cons_ne_nil _ _ (h.idle hdone)
      intro x hx
      rcases List.mem_cons.mp hx with rfl | hx
      · exact Bool.eq_false_of_not_eq_true hdone
      · exact h.going x hx
  steps := by
    have hsteps := h.steps
    rw [show (p.after o).steps = p.steps + 1 from rfl] at hsteps
    rw [List.length_cons]
    omega
  observation := by
    rw [h.observation, List.getLast?_cons]
    rfl
  done := by
    rw [h.done, List.getLast?_cons]
    cases os.getLast? <;> rfl
  breaker := h.breaker.trans (breaker_after hp o)
  ended := h.ended.imp_right (congrArg (· + 1))

lemma Progress.Walks.cons {session : SessionId} {n : Nat} {p : Progress α} {o : StepOutcome α}
    {xs ys : List (Exchange α)} {result : Except ServiceError (Progress α)}
    (hp : p.breaker.Closed) (undone : p.done = false)
    (step : Protocol.Step session xs (.ok o.observation))
    (h : (p.after o).Walks session n ys result) : p.Walks session (n + 1) (xs ++ ys) result := by
  cases h with
  | broken steps going length_lt failed undone' =>
    rw [← List.append_assoc]
    refine .broken (.cons step steps) ?_ (Nat.succ_lt_succ length_lt) failed undone
    intro x hx
    rcases List.mem_cons.mp hx with rfl | hx
    · exact undone'
    · exact going x hx
  | reached steps reached => exact .reached (.cons step steps) (reached.cons hp undone)

/-- The loop of steps. -/
theorem Agent.asks_steps (a : Agent) (session : SessionId) (profile : Profile α)
    (policy : Policy α) (n : Nat) {p : Progress α} (hp : p.breaker.Closed) (r : ρ)
    (w : World σ α) :
    ∃ xs, a.stepper.retrier.Asks xs w (a.steps session profile policy n p r w).2.2 ∧
      p.Walks session n xs (a.steps session profile policy n p r w).1 := by
  induction n generalizing p r w with
  | zero => exact ⟨[], .of_history_eq rfl, .reached .nil (Progress.reached_refl (Or.inr rfl))⟩
  | succ n ih =>
    by_cases hstopped : p.stopped = true
    · rw [steps_of_stopped hstopped]
      rw [Progress.stopped_eq_done hp] at hstopped
      exact ⟨[], .of_history_eq rfl, .reached .nil (Progress.reached_refl (Or.inl hstopped))⟩
    · have hundone : p.done = false := by
        rw [Progress.stopped_eq_done hp] at hstopped
        exact Bool.eq_false_of_not_eq_true hstopped
      obtain ⟨xs, hasks, hstep⟩ :=
        a.stepper.asks_step session profile policy a.settings.fixedDelay r w
      rcases h : a.stepper.step session profile policy a.settings.fixedDelay r w with
        ⟨e | o, r₁, w₁⟩ <;> rw [h] at hasks hstep
      · rw [steps_of_error hstopped h]
        exact ⟨xs, hasks, .broken .nil (by simp) (Nat.succ_pos n) hstep hundone⟩
      · rw [steps_of_ok hstopped h]
        have hclosed : (p.after o).breaker.Closed := by
          rw [Progress.breaker_after hp]
          exact hp
        obtain ⟨ys, hasks', hwalks⟩ := ih hclosed r₁ w₁
        exact ⟨xs ++ ys, hasks.trans hasks', hwalks.cons hp hundone hstep⟩

end Steps

/-! ## Pages -/

section Pages

variable [Service σ α]

lemma Protocol.pageOffset_succ (limit k : Nat) :
    min (pageOffset limit k + limit) Call.maxOffset = pageOffset limit (k + 1) := by
  rw [pageOffset, pageOffset, Nat.succ_mul]
  omega

/-- The loop of pages.  The induction is on the pages that are still looked at. -/
lemma Stepper.asks_fetchFrom (s : Stepper) (session : SessionId) (limit pages : Nat) {k : Nat}
    (sofar : List (Experience α)) (w : World σ α) :
    ∃ xs fetched,
      s.retrier.Asks xs w
        (s.fetchFrom session limit pages (Protocol.pageOffset limit k) sofar w).2 ∧
      Protocol.Pages session limit k xs fetched ∧ xs.length ≤ pages ∧
      (fetched = none → xs.length = pages) ∧
      (s.fetchFrom session limit pages (Protocol.pageOffset limit k) sofar w).1 =
        fetched.map (Except.map (sofar ++ ·)) := by
  induction pages generalizing k sofar w with
  | zero => exact ⟨[], none, .of_history_eq rfl, .unended, le_rfl, fun _ => rfl, rfl⟩
  | succ pages ih =>
    obtain ⟨now, hasks⟩ := s.asks_call (.page session limit (Protocol.pageOffset limit k)) w
    rcases hcall : s.call (.page session limit (Protocol.pageOffset limit k)) w with
      ⟨e | page, w₁⟩ <;> rw [hcall] at hasks <;> rw [fetchFrom, hcall] <;> dsimp only
    · exact ⟨_, _, hasks, .failed now e, Nat.succ_pos pages, by simp, rfl⟩
    · by_cases hshort : page.length < limit
      · rw [if_pos hshort]
        exact ⟨_, _, hasks, .last now page hshort, Nat.succ_pos pages, by simp, rfl⟩
      · rw [if_neg hshort, Protocol.pageOffset_succ]
        obtain ⟨xs, fetched, hasks', hpages, hlength, hunended, hfetched⟩ :=
          ih (k := k + 1) (sofar ++ page) w₁
        refine ⟨_, _, hasks.trans hasks', .more now page (not_lt.mp hshort) hpages,
          Nat.succ_le_succ hlength, ?_, ?_⟩
        · intro hnone
          exact congrArg (· + 1) (hunended (Option.map_eq_none_iff.mp hnone))
        · rw [hfetched, Option.map_map]
          congr 1
          funext fetched
          cases fetched with
          | error e => rfl
          | ok es => exact congrArg Except.ok (List.append_assoc _ _ _)

lemma Agent.asks_fetch (a : Agent) (session : SessionId) (w : World σ α) :
    ∃ xs, a.stepper.retrier.Asks xs w (a.fetch session w).2 ∧
      Protocol.Pages session (Stepper.pageLimit a.settings.pageSize) 0 xs
        (a.fetch session w).1 ∧
      xs.length ≤ a.horizon ∧ ((a.fetch session w).1 = none → xs.length = a.horizon) := by
  have hfirst : Protocol.pageOffset (Stepper.pageLimit a.settings.pageSize) 0 = 0 := by
    simp [Protocol.pageOffset]
  obtain ⟨xs, fetched, hasks, hpages, hlength, hunended, hfetched⟩ :=
    a.stepper.asks_fetchFrom session (Stepper.pageLimit a.settings.pageSize) a.horizon
      (k := 0) [] w
  rw [hfirst] at hasks hfetched
  obtain rfl : (a.fetch session w).1 = fetched := by
    refine hfetched.trans ?_
    rcases fetched with - | e | es <;> rfl
  exact ⟨xs, hasks, hpages, hlength, hunended⟩

/-- What is asked does not depend on how far the pages are followed, as far as they are. -/
lemma Stepper.history_fetchFrom (s : Stepper) (session : SessionId) (limit : Nat) {k m n : Nat}
    (hn : n ≤ m) (sofar : List (Experience α)) (w : World σ α) :
    (s.fetchFrom session limit n (Protocol.pageOffset limit k) sofar w).2.history <+:
      (s.fetchFrom session limit m (Protocol.pageOffset limit k) sofar w).2.history := by
  induction n generalizing k m sofar w with
  | zero =>
    obtain ⟨_, _, ⟨trace, hhistory, -⟩, -⟩ := s.asks_fetchFrom session limit m (k := k) sofar w
    exact ⟨trace, hhistory.symm⟩
  | succ n ih =>
    obtain ⟨m, rfl⟩ := Nat.exists_eq_add_of_le' (Nat.zero_lt_of_lt hn)
    rw [fetchFrom, fetchFrom]
    rcases s.call (.page session limit (Protocol.pageOffset limit k)) w with ⟨e | page, w₁⟩
    · exact List.prefix_rfl
    · dsimp only
      split
      · exact List.prefix_rfl
      · rw [Protocol.pageOffset_succ]
        exact ih (Nat.le_of_succ_le_succ hn) _ w₁

end Pages

/-! ## Episodes -/

/-- Where the first step was allowed, one was made. -/
lemma Progress.Reached.ne_nil {n : Nat} {p p' : Progress α} {os : List (Observation α)}
    (h : p.Reached n os p') (hn : 0 < n) (undone : p.done = false) : os ≠ [] := by
  rintro rfl
  have hdone : p'.done = false := h.done.trans undone
  rcases h.ended with hended | hended
  · exact Bool.false_ne_true (hdone.symm.trans hended)
  · exact hn.ne hended

section Episodes

variable [Scalar α] [Service σ α] [RandomSource ρ α]

/-- An episode asks what an episode is to ask. -/
theorem Agent.asks_runEpisode (a : Agent) (fresh : GameId) (profile : Profile α)
    (policy : Policy α) (r : ρ) (w : World σ α) :
    ∃ xs, a.stepper.retrier.Asks xs w (a.runEpisode fresh profile policy r w).2.2 ∧
      Protocol.Episode (a.settings.game.getD fresh) profile.player a.maxSteps
        (Stepper.pageLimit a.settings.pageSize) a.horizon xs
        (a.runEpisode fresh profile policy r w).1 := by
  obtain ⟨now, hasks⟩ :=
    a.stepper.asks_call (.create (a.settings.game.getD fresh) profile.player) w
  rcases hcreate : a.stepper.call (.create (a.settings.game.getD fresh) profile.player) w with
    ⟨e | opened, w₁⟩ <;> rw [hcreate] at hasks
  · rw [runEpisode_of_unopened hcreate]
    exact ⟨_, hasks, .unopened now e⟩
  · have hclosed := Breaker.closed_new a.settings.breakerThreshold
    obtain ⟨xs, hasks', hwalks⟩ :=
      a.asks_steps opened.session profile policy a.maxSteps
        (p := .start opened.phase a.settings.breakerThreshold) hclosed r w₁
    rcases hsteps : a.steps opened.session profile policy a.maxSteps
      (.start opened.phase a.settings.breakerThreshold) r w₁ with ⟨e | p, r₁, w₂⟩ <;>
      rw [hsteps] at hasks' hwalks
    · rw [runEpisode_of_broken hcreate hsteps]
      have hall := hasks.trans hasks'
      rw [List.singleton_append] at hall
      cases hwalks with
      | broken steps going length_lt failed _ =>
        exact ⟨_, hall, .broken steps going length_lt failed⟩
    · obtain ⟨ys, hasks'', hpages, hlength, hunended⟩ := a.asks_fetch opened.session w₂
      rcases hfetch : a.fetch opened.session w₂ with ⟨fetched, w₃⟩
      rw [hfetch] at hasks'' hpages hunended
      rw [runEpisode_of_reached hcreate hsteps hfetch]
      have hall := hasks.trans (hasks'.trans hasks'')
      rw [List.singleton_append] at hall
      cases hwalks with
      | @reached _ os _ steps reached =>
        have hpos : 0 < a.maxSteps := lt_max_of_lt_right Nat.zero_lt_one
        have hlast : os.getLast? = some p.observation := by
          rw [reached.observation, List.getLast?_eq_some_getLast (reached.ne_nil hpos rfl)]
          rfl
        have hdone : p.done = p.observation.isTerminal := by
          rw [reached.done, hlast]
          rfl
        have hended := reached.ended
        rw [hdone] at hended
        cases fetched with
        | none =>
          exact ⟨_, hall, .unended steps reached.going reached.length_le hlast hended hpages
            (hunended rfl)⟩
        | some fetched =>
          have hbreaker : p.breaker.Closed := reached.breaker ▸ hclosed
          refine ⟨_, hall, .played steps reached.going reached.length_le hended hpages hlength rfl
            hlast ?_ rfl ?_⟩
          · exact reached.steps.trans (Nat.zero_add _)
          · rw [← hdone]
            exact Progress.termination_eq hbreaker

end Episodes

/-! ## What follows a failure -/

/-- Whether a call was answered. -/
def Exchange.succeeded : Exchange α → Bool
  | ⟨_, _, .ok _⟩ => true
  | ⟨_, _, .error _⟩ => false

namespace Protocol

variable {session : SessionId} {xs ys : List (Exchange α)}

/-- Only the last one of some exchanges may have failed. -/
def Unfailing (xs : List (Exchange α)) : Prop := ∀ x ∈ xs.dropLast, x.succeeded = true

lemma Unfailing.of_forall (h : ∀ x ∈ xs, x.succeeded = true) : Unfailing xs :=
  fun x hx => h x (List.mem_of_mem_dropLast hx)

/-- After exchanges that were answered, nothing changes. -/
lemma Unfailing.append (hxs : ∀ x ∈ xs, x.succeeded = true) (hys : Unfailing ys) :
    Unfailing (xs ++ ys) := by
  by_cases hnil : ys = []
  · rw [hnil, List.append_nil]
    exact .of_forall hxs
  · intro x hx
    rw [List.dropLast_append_of_ne_nil hnil, List.mem_append] at hx
    exact hx.elim (hxs x) (hys x)

lemma Step.succeeded {o : Observation α} (h : Step session xs (.ok o)) :
    ∀ x ∈ xs, x.succeeded = true := by
  cases h with
  | played now now' before p => simp [Exchange.succeeded]

lemma Step.unfailing {outcome : Except ServiceError (Observation α)}
    (h : Step session xs outcome) : Unfailing xs := by
  cases h with
  | unread now e => simp [Unfailing]
  | played now now' before p => simp [Unfailing, Exchange.succeeded]

lemma Steps.succeeded {os : List (Observation α)} (h : Steps session xs os) :
    ∀ x ∈ xs, x.succeeded = true := by
  induction h with
  | nil => simp
  | cons step rest ih =>
    intro x hx
    exact (List.mem_append.mp hx).elim (step.succeeded x) (ih x)

lemma Pages.unfailing {limit k : Nat}
    {fetched : Option (Except ServiceError (List (Experience α)))}
    (h : Pages session limit k xs fetched) : Unfailing xs := by
  induction h with
  | unended => simp [Unfailing]
  | failed now e => simp [Unfailing]
  | last now page short => simp [Unfailing]
  | more now page full pages ih =>
    rw [← List.singleton_append]
    refine .append ?_ ih
    simp [Exchange.succeeded]

/-- No call of an episode follows one that has failed for good. -/
lemma Episode.unfailing {game : GameId} {player : Player α} {maxSteps limit horizon : Nat}
    {result : Option (Except ServiceError (EpisodeOutcome α))}
    (h : Episode game player maxSteps limit horizon xs result) : Unfailing xs := by
  have hcreated : ∀ (now : Duration) (opened : Opened),
      ∀ x ∈ [(⟨now, .create game player, .ok opened⟩ : Exchange α)], x.succeeded = true := by
    simp [Exchange.succeeded]
  cases h with
  | unopened now e => simp [Unfailing]
  | @broken now opened _ _ _ _ steps _ _ failed =>
    exact .append (hcreated now opened) (.append steps.succeeded failed.unfailing)
  | @played now opened _ _ _ _ _ steps _ _ _ pages =>
    exact .append (hcreated now opened) (.append steps.succeeded pages.unfailing)
  | @unended now opened _ _ _ _ steps _ _ _ _ pages =>
    exact .append (hcreated now opened) (.append steps.succeeded pages.unfailing)

end Protocol

/-- The exchanges of an episode are the same however far its pages are followed, as far as they
are. -/
lemma Agent.history_withHorizon [Scalar α] [Service σ α] [RandomSource ρ α] (a : Agent) {n : Nat}
    (hn : a.horizon ≤ n) (fresh : GameId) (profile : Profile α) (policy : Policy α) (r : ρ)
    (w : World σ α) :
    (a.runEpisode fresh profile policy r w).2.2.history <+:
      ((a.withHorizon n).runEpisode fresh profile policy r w).2.2.history := by
  rcases hcreate : a.stepper.call (.create (a.settings.game.getD fresh) profile.player) w with
    ⟨e | opened, w₁⟩
  · rw [runEpisode_of_unopened hcreate, runEpisode_of_unopened (a := a.withHorizon n) hcreate]
  · rcases hsteps : a.steps opened.session profile policy a.maxSteps
      (.start opened.phase a.settings.breakerThreshold) r w₁ with ⟨e | p, r₁, w₂⟩ <;>
      have hsteps' := (a.steps_withHorizon n).trans hsteps
    · rw [runEpisode_of_broken hcreate hsteps,
        runEpisode_of_broken (a := a.withHorizon n) hcreate hsteps']
    · have hpages : (a.fetch opened.session w₂).2.history <+:
          ((a.withHorizon n).fetch opened.session w₂).2.history := by
        have hfetch := a.stepper.history_fetchFrom opened.session
          (Stepper.pageLimit a.settings.pageSize) (k := 0) hn [] w₂
        rwa [Protocol.pageOffset, Nat.zero_mul, Nat.zero_min] at hfetch
      rw [runEpisode_of_reached hcreate hsteps rfl,
        runEpisode_of_reached (a := a.withHorizon n) hcreate hsteps' rfl]
      exact hpages

/-- **The protocol of an episode**: whatever the service answers, from whatever state of the world,
an episode makes its calls in blocks of at most one call and the retries that are allowed.  The
blocks open a session; then, in this session, they are steps of which none follows an observation
of an ended session, at most as many as are allowed and at least one; then, if no step has failed,
they ask for pages, each where the last one ended, until a page is not full.  Only the last block may
have come to nothing.  If the pages do not end within the number of them that is looked at, the
blocks are those up to there, and more of the same follow when more are looked at. -/
theorem Agent.episode_protocol [Scalar α] [Service σ α] [RandomSource ρ α] (a : Agent)
    (fresh : GameId) (profile : Profile α) (policy : Policy α) (r : ρ) (w : World σ α) :
    (∃ xs, a.stepper.retrier.Asks xs w (a.runEpisode fresh profile policy r w).2.2 ∧
      Protocol.Episode (a.settings.game.getD fresh) profile.player (max a.settings.maxSteps 1)
        (min (max a.settings.pageSize 1) Call.maxPage) a.horizon xs
        (a.runEpisode fresh profile policy r w).1 ∧
      Protocol.Unfailing xs) ∧
    ∀ n, a.horizon ≤ n →
      (a.runEpisode fresh profile policy r w).2.2.history <+:
        ((a.withHorizon n).runEpisode fresh profile policy r w).2.2.history ∧
      ((a.runEpisode fresh profile policy r w).1 ≠ none →
        (a.withHorizon n).runEpisode fresh profile policy r w =
          a.runEpisode fresh profile policy r w) := by
  refine ⟨?_, fun n hn => ⟨a.history_withHorizon hn fresh profile policy r w, fun hended =>
    runEpisode_withHorizon hended hn⟩⟩
  obtain ⟨xs, hasks, hepisode⟩ := a.asks_runEpisode fresh profile policy r w
  exact ⟨xs, hasks, hepisode, hepisode.unfailing⟩

end Punter
