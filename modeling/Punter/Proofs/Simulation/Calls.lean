/-
# The calls of the simulated service

A call is counted, then a queued failure is taken if there is one, and only then is the call
served.  `State.serve` is what is left of a call when the queues are set aside: it neither reads
nor changes queues and counters, a refused call leaves the state as it was, and an accepted play
makes one of the turns of its session (`State.settled`).
-/
import Mathlib
import Punter.Proofs.Simulation.Stores
import Punter.Proofs.Simulation.Turns

namespace Punter.Simulation

namespace CallKind

/-- The kind under which a call is counted.  Enquiries after health are not counted. -/
def of? {α : Type} : Call α → Option CallKind
  | .create _ _ => some .create
  | .get _ => some .get
  | .play _ _ => some .play
  | .page _ _ _ => some .page
  | .health => none

end CallKind

namespace State

variable {γ α : Type}

/-! ## Queues and counters -/

/-- One more call of a kind is counted. -/
def count (s : State γ α) (k : CallKind) : State γ α :=
  { s with calls := s.calls.set k (Number.next32 (s.calls.of k)) }

/-- The queue of a kind is replaced. -/
def queue (s : State γ α) (k : CallKind) (es : List ServiceError) : State γ α :=
  { s with failures := s.failures.set k es }

/-- The same service with the queues and counters of another one. -/
def withTallies (s t : State γ α) : State γ α :=
  { s with failures := t.failures, calls := t.calls }

@[simp] lemma find?_withTallies (s t : State γ α) (id : SessionId) :
    (s.withTallies t).find? id = s.find? id := rfl

lemma enter_of_nil {s : State γ α} {k : CallKind} (h : s.failures.of k = []) :
    s.enter k = (.ok (), s.count k) := by
  simp only [enter, h, count]

lemma enter_of_cons {s : State γ α} {k : CallKind} {e : ServiceError} {es : List ServiceError}
    (h : s.failures.of k = e :: es) : s.enter k = (.error e, (s.count k).queue k es) := by
  simp only [enter, h, count, queue]

/-! ## Served calls -/

variable [Scalar α] [Chance γ α]

/-- The answer to a call for which no failure is queued. -/
def serve (c : Call α) (now : Duration) (s : State γ α) :
    Except ServiceError c.Answer × State γ α :=
  match c with
  | .create game player => (.ok (s.create game player).1, (s.create game player).2)
  | .get id => (s.get id, s)
  | .play id p => s.play now id p
  | .page id limit offset => (s.page id limit offset, s)
  | .health => (.ok ⟨"healthy"⟩, s)

lemma answer_of_nil {s : State γ α} {c : Call α} {k : CallKind} (hk : CallKind.of? c = some k)
    (h : s.failures.of k = []) (now : Duration) :
    s.answer c now = (s.count k).serve c now := by
  cases c <;> cases hk <;> simp only [answer, serve, enter_of_nil h]

lemma answer_of_cons {s : State γ α} {c : Call α} {k : CallKind} {e : ServiceError}
    {es : List ServiceError} (hk : CallKind.of? c = some k) (h : s.failures.of k = e :: es)
    (now : Duration) : s.answer c now = (.error e, (s.count k).queue k es) := by
  cases c <;> cases hk <;> simp only [answer, enter_of_cons h]

lemma answer_health (s : State γ α) (now : Duration) :
    s.answer .health now = (.ok ⟨"healthy"⟩, s) := rfl

/-- Queues and counters neither matter to a served call nor are changed by it. -/
lemma serve_withTallies (s u : State γ α) (c : Call α) (now : Duration) :
    (s.withTallies u).serve c now =
      ((s.serve c now).1, (s.serve c now).2.withTallies u) := by
  cases c with
  | play id p =>
    simp only [serve, play, find?_withTallies]
    cases s.find? id with
    | none => rfl
    | some h =>
      dsimp only
      rcases hplay : h.game.play s.settings p.action s.chances with ⟨_ | t, g, c⟩
      · simp only [withTallies, hplay]
      · simp only [withTallies, hplay, retire, record]
        split <;> rfl
  | _ => rfl

/-- A call for which no failure is queued is served, and counted. -/
lemma answer_eq_serve {s : State γ α} {c : Call α} {k : CallKind} (hk : CallKind.of? c = some k)
    (h : s.failures.of k = []) (now : Duration) :
    s.answer c now = ((s.serve c now).1, (s.serve c now).2.withTallies (s.count k)) := by
  rw [answer_of_nil hk h, ← serve_withTallies]
  rfl

/-! ## Accepted plays -/

/-- The state after a turn of a session. -/
def turned (s : State γ α) (now : Duration) (h : Held α) (p : Play α) (t : Turn α) (c : γ) :
    State γ α :=
  { s with
    chances := c
    held := Held.put h.id t.after s.held
    records := s.records.push h.id (s.record now h p t)
    recorded := s.recorded + 1 }

/-- The state after a turn of a session, which is retired when the turn completes it. -/
def settled (s : State γ α) (now : Duration) (h : Held α) (p : Play α) (t : Turn α) (c : γ) :
    State γ α :=
  if t.after.phase.isTerminal && !h.game.phase.isTerminal then (s.turned now h p t c).retire h.id
  else s.turned now h p t c

omit [Scalar α] [Chance γ α] in
lemma id_of_find? {s : State γ α} {id : SessionId} {h : Held α} (found : s.find? id = some h) :
    h.id = id := by
  simpa using List.find?_some found

omit [Scalar α] [Chance γ α] in
lemma mem_of_find? {s : State γ α} {id : SessionId} {h : Held α} (found : s.find? id = some h) :
    h ∈ s.held :=
  List.mem_of_find?_eq_some found

/-- An accepted play makes its turn. -/
lemma play_of_plays {s : State γ α} {id : SessionId} {h : Held α} {p : Play α} {t : Turn α} {c : γ}
    (found : s.find? id = some h) (plays : h.game.Plays s.settings p.action s.chances t c)
    (now : Duration) :
    s.play now id p = (.ok (t.after.observation (some t.result)), s.settled now h p t c) := by
  obtain rfl := id_of_find? found
  simp only [play, found, Game.play_of_plays plays, settled, turned]
  rfl

/-- A refused play leaves everything as it was: the session is put in the state it was in, and the
source of chances has not been asked. -/
lemma play_of_refuses {s : State γ α} {id : SessionId} {h : Held α} {p : Play α} {e : ServiceError}
    (found : s.find? id = some h) (refuses : h.game.Refuses s.settings p.action e)
    (now : Duration) : s.play now id p = (.error e, s) := by
  simp only [play, found, Game.play_of_refuses refuses]
  rw [Held.put_of_find? found]

lemma play_of_none {s : State γ α} {id : SessionId} (found : s.find? id = none) (p : Play α)
    (now : Duration) : s.play now id p = (.error (notFound id), s) := by
  simp only [play, found]

/-- A served play that is accepted makes a turn of its session. -/
lemma play_eq_ok {s s' : State γ α} {id : SessionId} {p : Play α} {now : Duration}
    {o : Observation α} (h : s.play now id p = (.ok o, s')) :
    ∃ held t c, s.find? id = some held ∧ held.game.Plays s.settings p.action s.chances t c ∧
      o = t.after.observation (some t.result) ∧ s' = s.settled now held p t c := by
  cases found : s.find? id with
  | none =>
    rw [play_of_none found] at h
    simp at h
  | some held =>
    rcases Game.refuses_or_plays γ s.settings held.game p.action with ⟨e, hrefuses⟩ | hplays
    · rw [play_of_refuses found hrefuses] at h
      simp at h
    · obtain ⟨t, c, plays⟩ := hplays s.chances
      rw [play_of_plays found plays] at h
      simp only [Prod.mk.injEq, Except.ok.injEq] at h
      exact ⟨held, t, c, rfl, plays, h.1.symm, h.2.symm⟩

/-- A served play that is refused leaves the state as it was.  Its session is not held, or refuses
the action. -/
lemma play_eq_error {s s' : State γ α} {id : SessionId} {p : Play α} {now : Duration}
    {e : ServiceError} (h : s.play now id p = (.error e, s')) :
    s' = s ∧ (e = notFound id ∨
      ∃ held, s.find? id = some held ∧ held.game.Refuses s.settings p.action e) := by
  cases found : s.find? id with
  | none =>
    rw [play_of_none found, Prod.mk.injEq, Except.error.injEq] at h
    exact ⟨h.2.symm, Or.inl h.1.symm⟩
  | some held =>
    rcases Game.refuses_or_plays γ s.settings held.game p.action with ⟨e', hrefuses⟩ | hplays
    · rw [play_of_refuses found hrefuses, Prod.mk.injEq, Except.error.injEq] at h
      obtain ⟨rfl, rfl⟩ := h
      exact ⟨rfl, Or.inr ⟨held, rfl, hrefuses⟩⟩
    · obtain ⟨t, c, plays⟩ := hplays s.chances
      rw [play_of_plays found plays] at h
      simp at h

omit [Scalar α] [Chance γ α] in
lemma get_eq_error {s : State γ α} {id : SessionId} {e : ServiceError}
    (h : s.get id = .error e) : e = notFound id := by
  unfold get at h
  split at h
  · simp at h
  · exact (Except.error.inj h).symm

omit [Scalar α] [Chance γ α] in
lemma page_eq_error {s : State γ α} {id : SessionId} {limit offset : Nat} {e : ServiceError}
    (h : s.page id limit offset = .error e) : e = notFound id := by
  unfold page at h
  split at h
  · simp at h
  · exact (Except.error.inj h).symm

/-- A served call that is refused leaves the state as it was.  Its session is not held, or refuses
the action. -/
lemma serve_eq_error {s s' : State γ α} {c : Call α} {now : Duration} {e : ServiceError}
    (h : s.serve c now = (.error e, s')) :
    s' = s ∧ ((∃ id, e = notFound id) ∨
      ∃ held ∈ s.held, ∃ a : Action α, held.game.Refuses s.settings a e) := by
  cases c with
  | create game player => simp [serve] at h
  | health => simp [serve] at h
  | get id =>
    exact ⟨(congrArg Prod.snd h).symm, Or.inl ⟨id, get_eq_error (congrArg Prod.fst h)⟩⟩
  | page id limit offset =>
    exact ⟨(congrArg Prod.snd h).symm, Or.inl ⟨id, page_eq_error (congrArg Prod.fst h)⟩⟩
  | play id p =>
    obtain ⟨hs, he | ⟨held, found, hrefuses⟩⟩ := play_eq_error h
    · exact ⟨hs, Or.inl ⟨id, he⟩⟩
    · exact ⟨hs, Or.inr ⟨held, mem_of_find? found, p.action, hrefuses⟩⟩

/-! ## Sessions and experiences after an accepted play -/

variable {s : State γ α} {now : Duration} {h : Held α} {p : Play α} {t : Turn α} {c : γ}

omit [Chance γ α] in
/-- The sessions held after an opening are the one that was opened and sessions from before it. -/
lemma mem_create {game : GameId} {player : Player α} {x : Held α}
    (hx : x ∈ (s.create game player).2.held) :
    x ∈ s.held ∨ x = ⟨s.names.session s.opened, .new s.settings game player⟩ := by
  rcases List.mem_append.mp hx with hx | hx
  · exact Or.inl (List.mem_of_mem_filter hx)
  · exact Or.inr (List.mem_singleton.mp hx)

omit [Chance γ α] in
/-- A session that was opened is held, whether or not its identifier was given before. -/
lemma exists_find?_create (s : State γ α) (game : GameId) (player : Player α) :
    ∃ h, (s.create game player).2.find? (s.create game player).1.session = some h := by
  rw [← Option.isSome_iff_exists, find?, List.find?_isSome]
  exact ⟨_, List.mem_append_right _ (List.mem_singleton.mpr rfl), by simp [State.create]⟩

omit [Scalar α] [Chance γ α] in
/-- Who is dropped when a session is counted as completed. -/
def dropped (s : State γ α) (id : SessionId) : List SessionId :=
  (s.finished ++ [id]).rdrop s.settings.retained

omit [Scalar α] [Chance γ α] in
lemma mem_held_retire {id : SessionId} {x : Held α} :
    x ∈ (s.retire id).held ↔ x ∈ s.held ∧ x.id ∉ s.dropped id := by
  simp [retire, dropped, List.rdrop]

omit [Scalar α] [Chance γ α] in
lemma records_retire (s : State γ α) (id : SessionId) :
    (s.retire id).records = s.records.drop (s.dropped id) := rfl

omit [Chance γ α] in
lemma settled_held_sublist :
    (s.settled now h p t c).held.Sublist (s.turned now h p t c).held := by
  unfold settled
  split
  · exact List.filter_sublist
  · exact List.Sublist.refl _

omit [Chance γ α] in
@[simp] lemma settled_settings : (s.settled now h p t c).settings = s.settings := by
  unfold settled; split <;> rfl

omit [Chance γ α] in
@[simp] lemma settled_names : (s.settled now h p t c).names = s.names := by
  unfold settled; split <;> rfl

omit [Chance γ α] in
@[simp] lemma settled_opened : (s.settled now h p t c).opened = s.opened := by
  unfold settled; split <;> rfl

omit [Chance γ α] in
/-- The sessions held after a turn are the one that has made it and sessions from before it. -/
lemma mem_settled {x : Held α} (hx : x ∈ (s.settled now h p t c).held) :
    x ∈ s.held ∨ x = ⟨h.id, t.after⟩ :=
  Held.mem_put (settled_held_sublist.subset hx)

omit [Chance γ α] in
lemma mem_finished_settled {x : SessionId} (hx : x ∈ (s.settled now h p t c).finished) :
    x ∈ s.finished ∨ x = h.id := by
  unfold settled at hx
  split at hx
  · have hx := List.mem_of_mem_drop hx
    simpa [turned] using hx
  · exact Or.inl hx

omit [Chance γ α] in
/-- A session that is held after a turn has the experiences it had, and one more if the turn is its
own. -/
lemma of_records_settled {x : Held α} (hx : x ∈ (s.settled now h p t c).held) :
    (s.settled now h p t c).records.of x.id =
      if x.id = h.id then s.records.of h.id ++ [s.record now h p t] else s.records.of x.id := by
  have hturned : (s.turned now h p t c).records.of x.id =
      if x.id = h.id then s.records.of h.id ++ [s.record now h p t] else s.records.of x.id :=
    Log.of_push _ _ _ _
  unfold settled at hx ⊢
  split at hx
  · next hretires =>
    rw [if_pos hretires, records_retire, Log.of_drop, if_neg (mem_held_retire.mp hx).2, hturned]
  · next hretires => rw [if_neg hretires, hturned]

omit [Chance γ α] in
/-- After a turn its session has made it, or it was dropped because the turn completed it. -/
lemma find?_settled (now : Duration) (p : Play α) (t : Turn α) (c : γ)
    (found : s.find? h.id = some h) :
    (s.settled now h p t c).find? h.id = some ⟨h.id, t.after⟩ ∨
      (t.after.phase = .completed ∧ (s.settled now h p t c).find? h.id = none) := by
  have hturned : (s.turned now h p t c).find? h.id = some ⟨h.id, t.after⟩ := Held.find?_put found
  unfold settled
  split
  · next hterm =>
    simp only [Bool.and_eq_true] at hterm
    by_cases hdrop : h.id ∈ (s.turned now h p t c).dropped h.id
    · refine Or.inr ⟨(Phase.isTerminal_iff _).mp hterm.1, ?_⟩
      simp only [find?, List.find?_eq_none, decide_eq_true_eq]
      rintro x hx hid
      exact (mem_held_retire.mp hx).2 (hid ▸ hdrop)
    · refine Or.inl ?_
      rw [← hturned]
      simp only [find?, retire, List.find?_filter]
      congr 1
      funext x
      by_cases hid : x.id = h.id
      · rw [hid]
        simpa [dropped, List.rdrop] using hdrop
      · simp [hid]
  · exact Or.inl hturned

end State

end Punter.Simulation
