/-
# What an episode leaves on record

The simulated service records the plays of a session on its own, and an episode only learns of the
records by fetching them.  This file compares them with the plays that the episode has made and with
what it was answered: both are the same story.

There are two parts.  The first one is about the service alone: a session that is opened and then
played in, while no other session is, has just these plays on record as long as it is held
(`State.records_of_run`), and it is still held when it has been completed, if completed sessions are
kept (`State.held_of_run`).  The second one is about the agent: its episodes are such runs.  There
are then no more experiences to fetch than steps were made, and so the pages come to an end
(`Agent.runEpisode_ne_none`).
-/
import Mathlib
import Punter.Experience.Statistics
import Punter.Proofs.Episode.Outcome
import Punter.Proofs.Episode.Pages
import Punter.Proofs.Episode.Replay
import Punter.Proofs.Simulation.Ledger
import Punter.Proofs.Simulation.Retention
import Punter.Proofs.Simulation.Retried

namespace Punter

open Simulation

variable {γ ρ α : Type}

/-! ## Records -/

section Records

variable [Scalar α]

/-- An experience records a play of a session with the answer to it. -/
structure Experience.Records (session : SessionId) (p : Play α × Observation α)
    (e : Experience α) : Prop where
  session : e.session = session
  action : e.action = (Action.codec.write p.1.action).canonicalize
  done : e.done = p.2.isTerminal
  phase : e.nextState.get? "state" = some (.str p.2.phase.label)
  totalSpins : e.nextState.get? "totalSpins" = some (.ofNat p.2.counters.totalSpins)
  totalPayout : e.nextState.get? "totalPayout" = some (.ofScalar p.2.counters.totalPayout)

lemma Simulation.Move.RecordedAs.records {settings : Settings α} {m : Move α} {e : Experience α}
    (h : m.RecordedAs settings e) : e.Records m.session (m.play, m.observation) where
  session := h.session
  action := h.action
  done := h.done
  phase := by
    rw [h.nextState]
    exact get?_state_snapshot m.turn.after
  totalSpins := by
    rw [h.nextState]
    simp [Game.snapshot, Json.get?, Move.observation, Game.observation]
  totalPayout := by
    rw [h.nextState]
    simp [Game.snapshot, Json.get?, Move.observation, Game.observation]

lemma Simulation.records_of_leads [Chance γ α] {settings : Settings α} {start g : Game α}
    {ms : List (Move α)} {es : List (Experience α)} (h : Leads γ settings start ms es g)
    {id : SessionId} (hid : ∀ m ∈ ms, m.session = id) :
    List.Forall₂ (Experience.Records id) (ms.map fun m => (m.play, m.observation)) es := by
  induction h with
  | nil => exact .nil
  | @snoc ms es m e _ _ _ _ records ih =>
    have hm : m.session = id := hid m (by simp)
    have hrecords := hm ▸ records.records
    rw [List.map_append]
    exact List.rel_append (ih fun m' hm' => hid m' (List.mem_append_left _ hm'))
      (.cons hrecords .nil)

omit [Scalar α] in
lemma Simulation.isChain_of_chained {first last : Json α} {es : List (Experience α)}
    (h : Chained first es last) : es.IsChain fun e e' => e'.state = e.nextState := by
  induction es generalizing first with
  | nil => exact .nil
  | cons e es ih =>
    obtain ⟨-, hrest⟩ := h
    cases es with
    | nil => exact .singleton e
    | cons e' es => exact .cons_cons hrest.1 (ih hrest)

end Records

/-! ## The service -/

namespace Simulation

/-- A session that has not been completed before is not pushed out of a queue by its completion. -/
lemma not_mem_rdrop_completions {ms ms' : List (Move α)} {id : SessionId} {n : Nat}
    (before : ∀ m ∈ ms, m.session ≠ id) (after : ∀ m ∈ ms', m.session = id) (hn : 1 ≤ n) :
    id ∉ (completions (ms ++ ms')).rdrop n := by
  obtain ⟨new, hnew⟩ : completions ms <+: completions (ms ++ ms') := by
    rw [completions, completions, List.filter_append, List.map_append]
    exact eraseDups_prefix_append _ _
  have hnodup : (completions ms ++ new).Nodup := hnew ▸ nodup_eraseDups _
  rw [List.nodup_append] at hnodup
  obtain ⟨-, hnew_nodup, hdisjoint⟩ := hnodup
  -- of what is completed afterwards there is at most this one session
  have hsubset : new ⊆ [id] := by
    intro x hx
    have hall : x ∈ completions (ms ++ ms') := hnew ▸ List.mem_append_right _ hx
    obtain ⟨m, hm, hterm, rfl⟩ := mem_completions.mp hall
    rcases List.mem_append.mp hm with hm | hm
    · have hearlier := mem_completions.mpr ⟨m, hm, hterm, rfl⟩
      exact (hdisjoint _ hearlier _ hx rfl).elim
    · exact List.mem_singleton.mpr (after m hm)
  have hlength : new.length ≤ 1 := (hnew_nodup.subperm hsubset).length_le
  intro hid
  rw [← hnew, List.rdrop, List.length_append, List.take_append_of_le_length (by omega)] at hid
  obtain ⟨m, hm, -, hsession⟩ := mem_completions.mp (List.take_subset _ _ hid)
  exact before m hm hsession

namespace State

variable [Scalar α] [Chance γ α]

/-- The session that is opened in a run, if it is the only one. -/
lemma session_of_opens {s : State γ α} {ops : List (Operation α)} {id : SessionId}
    (opens : (s.exchanges ops).filterMap Exchange.openedSession = [id]) :
    (s.run ops).opened = s.opened + 1 ∧ id = s.names.session s.opened := by
  have hopened := openedSession_exchanges s ops
  rw [opens] at hopened
  have hcount : (s.run ops).opened = s.opened + 1 := by
    simpa using (congrArg List.length hopened).symm
  rw [hcount, List.range_succ, List.map_append] at hopened
  exact ⟨hcount, by simpa using List.append_cancel_left hopened⟩

/-- The session in which a run plays, if it is the only one. -/
lemma session_of_plays {s : State γ α} {ops : List (Operation α)} {id : SessionId}
    (plays : ∀ x ∈ (s.exchanges ops).filterMap acceptedPlay, x.1 = id) :
    ∀ m ∈ s.moves ops, m.session = id := by
  intro m hm
  have hmem := List.mem_map_of_mem (f := fun m : Move α => (m.session, m.play, m.observation)) hm
  rw [← acceptedPlay_exchanges] at hmem
  exact plays _ hmem

/-- Take a run in which one session is opened, and in which no other session is played in.  The
service accounts for its sessions by the moves before, of which none was made in this session, and
by those of the run, which were all made in it. -/
lemma exists_accounts {s : State γ α} (reachable : s.Reachable)
    (distinct : s.names.Distinct (s.opened + 1)) {ops : List (Operation α)} {id : SessionId}
    (opens : (s.exchanges ops).filterMap Exchange.openedSession = [id])
    (plays : ∀ x ∈ (s.exchanges ops).filterMap acceptedPlay, x.1 = id) :
    ∃ before : List (Move α),
      Accounts s.settings s.names (before ++ s.moves ops) (s.run ops) ∧
      Keeps s.names (before ++ s.moves ops) (s.run ops) ∧ (∀ m ∈ before, m.session ≠ id) := by
  obtain ⟨settings, names, chances, ops₀, rfl⟩ := reachable
  obtain ⟨hcount, hsession⟩ := session_of_opens opens
  have hnames : ((new settings names chances).run ops₀).names = names := names_run _ _
  rw [hnames] at distinct hsession ⊢
  have hrun := run_append (new settings names chances) ops₀ ops
  have haccounts₀ := accounts_run settings names chances ops₀ (distinct.mono (Nat.le_succ _))
  have hdistinct : names.Distinct ((new settings names chances).run (ops₀ ++ ops)).opened := by
    rw [hrun, hcount]
    exact distinct
  have haccounts := accounts_run settings names chances (ops₀ ++ ops) hdistinct
  have hkeeps := keeps_run settings names chances (ops₀ ++ ops) hdistinct
  rw [moves_append, hrun] at haccounts hkeeps
  refine ⟨_, ?_, hkeeps, hsession ▸ (haccounts₀.fresh distinct).2⟩
  rw [haccounts₀.settings_eq]
  exact haccounts

section OneSession

variable {s : State γ α} (reachable : s.Reachable) (distinct : s.names.Distinct (s.opened + 1))
  {ops : List (Operation α)} {id : SessionId}
  (opens : (s.exchanges ops).filterMap Exchange.openedSession = [id])
  (plays : ∀ x ∈ (s.exchanges ops).filterMap acceptedPlay, x.1 = id)

include reachable distinct opens plays

/-- The session is held after the run if completed sessions are kept. -/
theorem held_of_run (retained : 1 ≤ s.settings.retained) :
    ∃ h, (s.run ops).find? id = some h := by
  obtain ⟨before, haccounts, hkeeps, hbefore⟩ := exists_accounts reachable distinct opens plays
  obtain ⟨hcount, hsession⟩ := session_of_opens opens
  obtain ⟨h, hh, hid⟩ := (hkeeps.held_iff id).mpr
    ⟨by rw [hcount, hsession]; exact List.mem_map_of_mem List.self_mem_range_succ,
      not_mem_rdrop_completions hbefore (session_of_plays plays)
        (haccounts.settings_eq ▸ retained)⟩
  exact ⟨h, hid ▸ haccounts.find?_eq hh⟩

/-- If the session is held after the run, it has its plays on record. -/
theorem records_of_run {h : Held α} (found : (s.run ops).find? id = some h) :
    List.Forall₂ (Experience.Records id) ((s.exchanges ops).filterMap (accepted id))
        ((s.run ops).records.of id) ∧
      ((s.run ops).records.of id).IsChain fun e e' => e'.state = e.nextState := by
  obtain ⟨before, haccounts, -, hbefore⟩ := exists_accounts reachable distinct opens plays
  have hafter := session_of_plays plays
  -- all its moves are those of the run
  have hnone : before.filter (fun m => m.session = id) = [] := by
    simpa [List.filter_eq_nil_iff] using hbefore
  have hall : (s.moves ops).filter (fun m => m.session = id) = s.moves ops := by
    simpa [List.filter_eq_self] using hafter
  obtain ⟨game, player, hleads⟩ := haccounts.accounted h (mem_of_find? found)
  rw [id_of_find? found, List.filter_append, hnone, hall, List.nil_append] at hleads
  refine ⟨?_, isChain_of_chained (chained_of_leads hleads)⟩
  rw [accepted_exchanges, hall]
  exact records_of_leads hleads hafter

end OneSession

end State

end Simulation

/-! ## The agent -/

/-- Where all plays are in one session, its plays are all of them. -/
lemma filterMap_accepted {id : SessionId} {xs : List (Exchange α)}
    (h : ∀ x ∈ xs.filterMap acceptedPlay, x.1 = id) :
    xs.filterMap (accepted id) = (xs.filterMap acceptedPlay).map (·.2) := by
  rw [funext (State.accepted_eq_bind id), ← List.filterMap_filterMap, ← List.filterMap_eq_map]
  exact List.filterMap_congr fun x hx => by simp [h x hx]

lemma filterMap_played (xs : List (Exchange α)) :
    xs.filterMap Exchange.played = (xs.filterMap acceptedPlay).map (·.2.2) := by
  rw [← List.filterMap_eq_map, List.filterMap_filterMap]
  refine List.filterMap_congr fun x _ => ?_
  obtain ⟨now, c, o⟩ := x
  cases c <;> cases o <;> rfl

namespace Protocol

variable {session : SessionId} {xs ys : List (Exchange α)}

/-- Steps play in their session only, and open none. -/
lemma Steps.within {os : List (Observation α)} (h : Steps session xs os) :
    (∀ x ∈ xs.filterMap acceptedPlay, x.1 = session) ∧
      xs.filterMap Exchange.openedSession = [] := by
  induction h with
  | nil => simp
  | cons step rest ih =>
    obtain ⟨hplays, hopens⟩ := ih
    cases step with
    | played now now' before p =>
      refine ⟨?_, hopens⟩
      intro x hx
      rcases List.mem_cons.mp hx with rfl | hx
      · rfl
      · exact hplays x hx

lemma Step.without_openings {outcome : Except ServiceError (Observation α)}
    (h : Step session xs outcome) : xs.filterMap Exchange.openedSession = [] := by
  cases h <;> rfl

lemma Pages.without_openings {limit k : Nat}
    {fetched : Option (Except ServiceError (List (Experience α)))}
    (h : Pages session limit k ys fetched) : ys.filterMap Exchange.openedSession = [] := by
  induction h with
  | unended => rfl
  | failed => rfl
  | last => rfl
  | more now page full pages ih => exact ih

/-- An episode opens one session at most. -/
lemma Episode.length_openedSession_le {game : GameId} {player : Player α}
    {maxSteps limit horizon : Nat} {result : Option (Except ServiceError (EpisodeOutcome α))}
    (h : Episode game player maxSteps limit horizon xs result) :
    (xs.filterMap Exchange.openedSession).length ≤ 1 := by
  cases h with
  | unopened now e => exact Nat.zero_le 1
  | broken steps _ _ failed =>
    simp [Exchange.openedSession, steps.within.2, failed.without_openings]
  | played steps _ _ _ pages =>
    simp [Exchange.openedSession, steps.within.2, pages.without_openings]
  | unended steps _ _ _ _ pages =>
    simp [Exchange.openedSession, steps.within.2, pages.without_openings]

lemma Pages.without_plays {limit k : Nat}
    {fetched : Option (Except ServiceError (List (Experience α)))}
    (h : Pages session limit k ys fetched) : ys.filterMap acceptedPlay = [] := by
  induction h with
  | unended => rfl
  | failed => rfl
  | last => rfl
  | more now page full pages ih => exact ih

end Protocol

variable [Scalar α] [Chance γ α]

/-- The experiences of an episode are the records of its plays. -/
structure EpisodeOutcome.Recorded (plays : List (Play α × Observation α))
    (o : EpisodeOutcome α) : Prop where
  length_eq : o.experiences.length = o.steps
  /-- There is one for each play, in their order. -/
  records : List.Forall₂ (Experience.Records o.session) plays o.experiences
  /-- Each of them starts where the one before it ended. -/
  chained : o.experiences.IsChain fun e e' => e'.state = e.nextState
  going : ∀ e ∈ o.experiences.dropLast, e.done = false
  /-- The last one shows what was seen last. -/
  last : ∃ e p, o.experiences.getLast? = some e ∧ e.Records o.session (p, o.final) ∧
    (e.done = true ↔ o.termination = .done)
  episodeLength_eq : Rewards.episodeLength (o.experiences.map (·.done)) = o.steps

lemma Rewards.episodeLength_eq_length {ds : List Bool} (h : ∀ d ∈ ds.dropLast, d = false) :
    Rewards.episodeLength ds = ds.length := by
  induction ds with
  | nil => rfl
  | cons d ds ih =>
    cases ds with
    | nil => cases d <;> rfl
    | cons d' ds =>
      have hd : d = false := h d (by simp)
      have hrest := ih fun d'' hd'' => h d'' (by simpa using Or.inr hd'')
      rw [episodeLength, hd, hrest]
      rfl

lemma Experience.Records.map_done {session : SessionId} {plays : List (Play α × Observation α)}
    {es : List (Experience α)} (h : List.Forall₂ (Experience.Records session) plays es) :
    es.map (·.done) = (plays.map Prod.snd).map Observation.isTerminal := by
  induction h with
  | nil => rfl
  | cons record _ ih => simp [record.done, ih]

lemma Experience.Records.getLast? {session : SessionId} {plays : List (Play α × Observation α)}
    {es : List (Experience α)} (h : List.Forall₂ (Experience.Records session) plays es)
    {p : Play α × Observation α} (hp : plays.getLast? = some p) :
    ∃ e, es.getLast? = some e ∧ e.Records session p := by
  rw [List.getLast?_eq_getElem?, List.getElem?_eq_some_iff] at hp
  obtain ⟨hlt, rfl⟩ := hp
  have hlt' : plays.length - 1 < es.length := h.length_eq ▸ hlt
  refine ⟨es[plays.length - 1], ?_, h.get hlt hlt'⟩
  rw [List.getLast?_eq_getElem?, ← h.length_eq, List.getElem?_eq_getElem hlt']

/-- Where the records are those of the plays, what is known of the plays is known of them. -/
lemma EpisodeOutcome.Reflects.recorded {maxSteps limit : Nat} {xs : List (Exchange α)}
    {o : EpisodeOutcome α} (reflects : o.Reflects maxSteps limit xs)
    {plays : List (Play α × Observation α)}
    (hplays : xs.filterMap Exchange.played = plays.map Prod.snd)
    (records : List.Forall₂ (Experience.Records o.session) plays o.experiences)
    (chained : o.experiences.IsChain fun e e' => e'.state = e.nextState) : o.Recorded plays := by
  have hlength : o.experiences.length = o.steps := by
    rw [reflects.steps_eq, hplays, List.length_map, records.length_eq]
  have hgoing : ∀ d ∈ (o.experiences.map (·.done)).dropLast, d = false := by
    intro d hd
    rw [Experience.Records.map_done records, ← hplays, ← List.map_dropLast] at hd
    obtain ⟨before, hbefore, rfl⟩ := List.mem_map.mp hd
    exact reflects.going before hbefore
  have hfinal := reflects.final
  rw [hplays, List.getLast?_map, Option.map_eq_some_iff] at hfinal
  obtain ⟨⟨p, _⟩, hlast, rfl⟩ := hfinal
  obtain ⟨e, he, hrecord⟩ := Experience.Records.getLast? records hlast
  refine
    { length_eq := hlength
      records := records
      chained := chained
      going := fun e he => hgoing _ ?_
      last := ⟨e, p, he, hrecord, ?_⟩
      episodeLength_eq := ?_ }
  · rw [← List.map_dropLast]
    exact List.mem_map_of_mem he
  · rw [hrecord.done]
    exact reflects.done_iff.symm
  · rw [Rewards.episodeLength_eq_length hgoing, List.length_map, hlength]

namespace Agent

variable [RandomSource ρ α]

omit [RandomSource ρ α] in
/-- The records of a session that was opened between two worlds, by how the calls in between were
settled. -/
lemma records_of_asks {w w' : World (State γ α) α} (reachable : w.service.Reachable)
    (distinct : w.service.names.Distinct (w.service.opened + 1)) (hreaches : w.Reaches w')
    {retrier : Retrier} {xs : List (Exchange α)} (hasks : retrier.Asks xs w w') {id : SessionId}
    (opens : xs.filterMap Exchange.openedSession = [id])
    (plays : ∀ x ∈ xs.filterMap acceptedPlay, x.1 = id) :
    (1 ≤ w.service.settings.retained → ∃ h, w'.service.find? id = some h) ∧
      ∀ h, w'.service.find? id = some h →
        List.Forall₂ (Experience.Records id) (xs.filterMap (accepted id))
            (w'.service.records.of id) ∧
          (w'.service.records.of id).IsChain fun e e' => e'.state = e.nextState := by
  obtain ⟨trace, hhistory, hservice, hexchanges⟩ := hreaches.replays
  obtain ⟨trace', hhistory', hblocks⟩ := hasks
  obtain rfl : trace = trace' := List.append_cancel_left (hhistory.symm.trans hhistory')
  -- calls that were tried again leave no trace in what is looked at here
  have hopens := hblocks.filterMap_eq (f := Exchange.openedSession) fun _ c _ => by cases c <;> rfl
  have hplays := hblocks.filterMap_eq (f := acceptedPlay) fun _ c _ => by cases c <;> rfl
  have haccepted := hblocks.filterMap_eq (f := accepted id) fun _ c _ => by cases c <;> rfl
  rw [← hopens, ← hexchanges] at opens
  rw [← hplays, ← hexchanges] at plays
  rw [← haccepted, ← hexchanges, hservice]
  exact ⟨State.held_of_run reachable distinct opens plays,
    fun h found => State.records_of_run reachable distinct opens plays found⟩

section Fetch

variable {w : World (State γ α) α} {id : SessionId} (unqueued : w.service.failures.of .page = [])

include unqueued

omit [RandomSource ρ α] in
/-- A session that is held is fetched with all its experiences, if no failure is queued and the pages
are followed far enough. -/
lemma fetch_of_find? (a : Agent) {h : Held α} (found : w.service.find? id = some h)
    (hlength : (w.service.records.of id).length < UInt32.size)
    (hfar : (w.service.records.of id).length < a.horizon) :
    (a.fetch id w).1 = some (.ok (w.service.records.of id)) := by
  have hshows : State.Shows a.stepper.retrier id (w.service.records.of id) 0 w.service :=
    ⟨⟨h, found⟩, rfl, by simp [unqueued], by simp [unqueued]⟩
  obtain ⟨_, w', hfetch, -⟩ := a.stepper.fetch_complete id (w.service.records.of id) _
    (State.showsPages_shows a.stepper.retrier id (w.service.records.of id)) hlength
    a.settings.pageSize w hshows
  exact congrArg Prod.fst (hfetch a.horizon ((Nat.div_le_self _ _).trans_lt hfar))

omit [RandomSource ρ α] in
/-- A session that is not held has no pages. -/
lemma fetch_of_not_held (a : Agent) (gone : w.service.find? id = none) (hfar : 0 < a.horizon) :
    (a.fetch id w).1 = some (.error (State.notFound id)) := by
  obtain ⟨n, hn⟩ := Nat.exists_eq_succ_of_ne_zero hfar.ne'
  have hserves : State.Serves (.page id (Stepper.pageLimit a.settings.pageSize) 0) .page w
      (a.stepper.call (.page id (Stepper.pageLimit a.settings.pageSize) 0) w) :=
    State.serves_attempts rfl (by simp [unqueued]) (by simp [unqueued])
  obtain ⟨now, houtcome, -⟩ := hserves.served
  have hpage : w.service.page id (Stepper.pageLimit a.settings.pageSize) 0 =
      .error (State.notFound id) := by simp only [State.page, gone]
  rcases hcall : a.stepper.call (.page id (Stepper.pageLimit a.settings.pageSize) 0) w with
    ⟨outcome, w₁⟩
  rw [hcall] at houtcome
  obtain rfl : outcome = .error (State.notFound id) := houtcome.trans hpage
  simp only [fetch, Stepper.fetch, hn, Stepper.fetchFrom, hcall]

end Fetch

/-- Before an episode asks for pages it has opened its session and played in it. -/
lemma asks_made {a : Agent} {game : GameId} {profile : Profile α} {policy : Policy α}
    {opened : Opened} {p : Progress α} {r r₁ : ρ} {w w₁ w₂ : World (State γ α) α}
    (hcreate : a.stepper.call (.create game profile.player) w = (.ok opened, w₁))
    (hsteps : a.steps opened.session profile policy a.maxSteps
      (.start opened.phase a.settings.breakerThreshold) r w₁ = (.ok p, r₁, w₂)) :
    w.Reaches w₂ ∧ p.steps ≤ a.maxSteps ∧ ∃ xs, a.stepper.retrier.Asks xs w w₂ ∧
      xs.filterMap Exchange.openedSession = [opened.session] ∧
      (∀ x ∈ xs.filterMap acceptedPlay, x.1 = opened.session) ∧
      (xs.filterMap (accepted opened.session)).length = p.steps := by
  have hreached := a.stepper.reaches_call (.create game profile.player) w
  have hreached' := a.reaches_steps opened.session profile policy a.maxSteps
    (.start opened.phase a.settings.breakerThreshold) r w₁
  obtain ⟨now, hcreated⟩ := a.stepper.asks_call (.create game profile.player) w
  obtain ⟨xs, hmade, hwalks⟩ := a.asks_steps opened.session profile policy a.maxSteps
    (p := .start opened.phase a.settings.breakerThreshold) (Breaker.closed_new _) r w₁
  rw [hcreate] at hreached hcreated
  rw [hsteps] at hreached' hmade hwalks
  cases hwalks with
  | reached steps reached =>
    have hcount := reached.steps.trans (Nat.zero_add _)
    obtain ⟨hplays, hopens⟩ := steps.within
    refine ⟨hreached.trans hreached', hcount ▸ reached.length_le, _, hcreated.trans hmade, ?_,
      hplays, ?_⟩
    · rw [List.filterMap_append, hopens]
      rfl
    · have hplayed := congrArg List.length steps.tells.played
      rw [filterMap_played, List.length_map] at hplayed
      change (xs.filterMap (accepted opened.session)).length = p.steps
      rw [filterMap_accepted hplays, List.length_map, hplayed, hcount]

/-- **Episodes end.**  On a simulated service that some run has led to, that gives the next session an
identifier of its own, and has no failure of pages queued, the pages of an episode end before its
steps would be used up: one that makes fewer than `2 ^ 32` steps has an outcome. -/
theorem runEpisode_ne_none (a : Agent) (fresh : GameId) (profile : Profile α) (policy : Policy α)
    (r : ρ) (w : World (State γ α) α) (reachable : w.service.Reachable)
    (distinct : w.service.names.Distinct (w.service.opened + 1))
    (unqueued : w.service.failures.of .page = []) (hsteps : a.maxSteps < UInt32.size)
    (hfar : a.maxSteps < a.horizon) : (a.runEpisode fresh profile policy r w).1 ≠ none := by
  rcases hcreate : a.stepper.call (.create (a.settings.game.getD fresh) profile.player) w with
    ⟨e | opened, w₁⟩
  · rw [runEpisode_of_unopened hcreate]
    exact Option.some_ne_none _
  rcases hmade : a.steps opened.session profile policy a.maxSteps
    (.start opened.phase a.settings.breakerThreshold) r w₁ with ⟨e | p, r₁, w₂⟩
  · rw [runEpisode_of_broken hcreate hmade]
    exact Option.some_ne_none _
  obtain ⟨hreaches, hle, made, hasks, hopens, hplays, hcount⟩ := asks_made hcreate hmade
  have hended : (a.fetch opened.session w₂).1 ≠ none := by
    cases found : w₂.service.find? opened.session with
    | none =>
      rw [a.fetch_of_not_held (hreaches.unqueued unqueued) found (Nat.zero_lt_of_lt hfar)]
      exact Option.some_ne_none _
    | some h =>
      obtain ⟨-, hrecorded⟩ := records_of_asks reachable distinct hreaches hasks hopens hplays
      obtain ⟨hrecords, -⟩ := hrecorded h found
      -- there are as many records as plays
      have hlength : (w₂.service.records.of opened.session).length ≤ a.maxSteps := by
        rw [← hrecords.length_eq, hcount]
        exact hle
      rw [a.fetch_of_find? (hreaches.unqueued unqueued) found (hlength.trans_lt hsteps)
        (hlength.trans_lt hfar)]
      exact Option.some_ne_none _
  rcases hfetch : a.fetch opened.session w₂ with ⟨fetched, w₃⟩
  rw [hfetch] at hended
  rw [runEpisode_of_reached hcreate hmade hfetch]
  cases fetched with
  | none => exact absurd rfl hended
  | some fetched => exact Option.some_ne_none _

/-- After an episode the service is again in a state that some run has led to, and it has opened one
session more at most. -/
lemma reachable_runEpisode (a : Agent) (fresh : GameId) (profile : Profile α) (policy : Policy α)
    (r : ρ) (w : World (State γ α) α) (reachable : w.service.Reachable) :
    let s := (a.runEpisode fresh profile policy r w).2.2.service
    s.Reachable ∧ s.names = w.service.names ∧ s.opened ≤ w.service.opened + 1 := by
  intro s
  obtain ⟨xs, ⟨trace, hhistory, hblocks⟩, hepisode⟩ := a.asks_runEpisode fresh profile policy r w
  obtain ⟨trace', hhistory', hservice, hexchanges⟩ :=
    (a.reaches_runEpisode fresh profile policy r w).replays
  obtain rfl : trace' = trace := List.append_cancel_left (hhistory'.symm.trans hhistory)
  have hservice : s = w.service.run (trace'.map Exchange.operation) := hservice
  have hopens := hblocks.filterMap_eq (f := Exchange.openedSession) fun _ c _ => by cases c <;> rfl
  have hopened := congrArg List.length
    (State.openedSession_exchanges w.service (trace'.map Exchange.operation))
  rw [hexchanges, hopens, ← hservice, List.length_append] at hopened
  simp only [List.length_map, List.length_range] at hopened
  have hle := hepisode.length_openedSession_le
  refine ⟨?_, hservice ▸ State.names_run _ _, by omega⟩
  obtain ⟨settings, names, chances, ops, hs⟩ := reachable
  exact ⟨settings, names, chances, ops ++ trace'.map Exchange.operation,
    by rw [hservice, hs, State.run_append]⟩

/-- **What an episode leaves on record.**  Take a simulated service that some run has led to, that
keeps completed sessions, gives the next session an identifier of its own, and has no failure of
pages queued.  If an episode is completed on it, however often its calls were tried again, its
experiences are the records of its plays: there is one for each step, with the action that was
played and what was answered, each starts where the one before it ended, and the last one alone
ends the session, if it was ended. -/
theorem episode_recorded (a : Agent) (fresh : GameId) (profile : Profile α) (policy : Policy α)
    (r : ρ) (w : World (State γ α) α) (reachable : w.service.Reachable)
    (distinct : w.service.names.Distinct (w.service.opened + 1))
    (retained : 1 ≤ w.service.settings.retained) (unqueued : w.service.failures.of .page = [])
    {o : EpisodeOutcome α} {r' : ρ} {w' : World (State γ α) α}
    (hrun : a.runEpisode fresh profile policy r w = (some (.ok o), r', w'))
    (hsteps : o.steps < UInt32.size) :
    ∃ xs, a.stepper.retrier.Asks xs w w' ∧
      Protocol.Episode (a.settings.game.getD fresh) profile.player (max a.settings.maxSteps 1)
        (min (max a.settings.pageSize 1) Call.maxPage) a.horizon xs (some (.ok o)) ∧
      o.Recorded (xs.filterMap (accepted o.session)) := by
  obtain ⟨xs, hasks, hepisode⟩ := a.asks_runEpisode fresh profile policy r w
  rw [hrun] at hasks hepisode
  refine ⟨xs, hasks, hepisode, ?_⟩
  have hreflects := hepisode.reflects
  -- the episode has opened its session, made its steps, and fetched
  rcases hcreate : a.stepper.call (.create (a.settings.game.getD fresh) profile.player) w with
    ⟨e | opened, w₁⟩
  · rw [runEpisode_of_unopened hcreate] at hrun
    cases hrun
  rcases hmade : a.steps opened.session profile policy a.maxSteps
    (.start opened.phase a.settings.breakerThreshold) r w₁ with ⟨e | p, r₁, w₂⟩
  · rw [runEpisode_of_broken hcreate hmade] at hrun
    cases hrun
  obtain ⟨hreaches, -, made, hbefore, hopens, hplays, hcount⟩ := asks_made hcreate hmade
  obtain ⟨pages, hafter, hpages, -⟩ := a.asks_fetch opened.session w₂
  rcases hfetch : a.fetch opened.session w₂ with ⟨- | fetched, w₃⟩
  · rw [runEpisode_of_reached hcreate hmade hfetch] at hrun
    cases hrun
  rw [hfetch] at hafter hpages
  rw [runEpisode_of_reached hcreate hmade hfetch] at hrun
  obtain ⟨rfl, -, rfl⟩ : _ ∧ _ ∧ w₃ = w' := by
    simpa only [Option.map_some, Prod.mk.injEq, Option.some.injEq, Except.ok.injEq] using hrun
  obtain rfl := hasks.unique (hbefore.trans hafter)
  obtain ⟨hheld, hrecorded⟩ := records_of_asks reachable distinct hreaches hbefore hopens hplays
  obtain ⟨h, found⟩ := hheld retained
  obtain ⟨hrecords, hchain⟩ := hrecorded h found
  -- nothing is played while pages are asked for
  have hall : (made ++ pages).filterMap acceptedPlay = made.filterMap acceptedPlay := by
    rw [List.filterMap_append, hpages.without_plays, List.append_nil]
  have hplayed : (made ++ pages).filterMap (accepted opened.session) =
      made.filterMap (accepted opened.session) := by
    rw [filterMap_accepted hplays, filterMap_accepted (hall ▸ hplays), hall]
  have hanswered : (made ++ pages).filterMap Exchange.played =
      (made.filterMap (accepted opened.session)).map Prod.snd := by
    rw [filterMap_played, hall, filterMap_accepted hplays, List.map_map]
    rfl
  have hlength : p.steps = (w₂.service.records.of opened.session).length := by
    rw [← hrecords.length_eq, hcount]
  -- followed further the pages come to the same
  have hfound := (a.withHorizon (max a.horizon (p.steps + 1))).fetch_of_find?
    (hreaches.unqueued unqueued) found (hlength ▸ hsteps)
    (hlength ▸ (Nat.lt_succ_self p.steps).trans_le (le_max_right _ _))
  rw [fetch_withHorizon (by simp [hfetch]) (le_max_left _ _), hfetch] at hfound
  obtain rfl : fetched = .ok (w₂.service.records.of opened.session) := Option.some.inj hfound
  exact hreflects.recorded (hplayed ▸ hanswered) (hplayed ▸ hrecords) hchain

/-- Three steps beside another session, with a reset of a play; the last of the records come on a
page of their own. -/
theorem episode_recorded_three :
    let a : Agent :=
      ⟨⟨.standard, .instant⟩, { EpisodeSettings.standard with maxSteps := 3, pageSize := 2 }, 2⟩
    let create : Operation ℚ := .call (.create .nil ⟨"cautious", none⟩) .zero
    let s : State Generator ℚ := (State.new .standard .counting (Generator.ofSeed 7)).run
      [create, .inject .play [.transport "reset"]]
    let r : Script ℚ := .ofList [1 / 2, 3 / 4]
    let w : World (State Generator ℚ) ℚ := .start s
    ∃ o r' w', a.runEpisode ⟨7⟩ .standard .standard r w = (some (.ok o), r', w') ∧ o.steps = 3 ∧
      w'.history.length = 10 ∧
      ∃ xs, a.stepper.retrier.Asks xs w w' ∧ o.Recorded (xs.filterMap (accepted o.session)) := by
  intro a create s r w
  have hopened : s.opened = 1 := by decide +kernel
  have hnames : s.names = .counting := State.names_run _ _
  have hsteps : (a.runEpisode ⟨7⟩ .standard .standard r w).1.map
      (·.toOption.map (·.steps)) = some (some 3) := by decide +kernel
  have hcalls : (a.runEpisode ⟨7⟩ .standard .standard r w).2.2.history.length = 10 := by
    decide +kernel
  rcases hrun : a.runEpisode ⟨7⟩ .standard .standard r w with ⟨- | e | o, r', w'⟩ <;>
    rw [hrun] at hsteps hcalls
  · cases hsteps
  · cases hsteps
  have hthree : o.steps = 3 := Option.some.inj (Option.some.inj hsteps)
  obtain ⟨xs, hasks, -, hrecorded⟩ := episode_recorded a ⟨7⟩ .standard .standard r w
    ⟨_, _, _, _, rfl⟩
    (by
      rw [show w.service.opened = 1 from hopened, show w.service.names = .counting from hnames]
      exact Names.distinct_counting (by decide))
    (by decide +kernel) (by decide +kernel) hrun (by rw [hthree]; decide)
  exact ⟨o, r', w', rfl, hthree, hcalls, xs, hasks, hrecorded⟩

end Agent

end Punter
