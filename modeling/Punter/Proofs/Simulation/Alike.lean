/-
# Services alike

Identifiers are given out at random, so that two runs which do the same still name the session
differently that each of them opens.  Two services are alike (`State.Alike`) if one such session
is all they differ in: it may have another identifier and another game in each, and each service
has identified and dated its experiences on its own.  All other sessions are the same.

Calls for that session keep services alike, and their outcomes are the same as long as the session
is held; the failure for a session that is not held would show its identifier.
-/
import Mathlib
import Punter.Proofs.Simulation.Records

namespace Punter

/-- What names a session that is opened: its own identifier and that of its game. -/
structure Label where
  session : SessionId
  game : GameId

/-- Experiences of one turn of a session that has the label `n` here and the label `n'` there. -/
structure Experience.Alike {α : Type} (n n' : Label) (e e' : Experience α) : Prop where
  session : e.session = n.session
  session' : e'.session = n'.session
  state : e'.state = e.state
  action : e'.action = e.action
  reward : e'.reward = e.reward
  nextState : e'.nextState = e.nextState
  done : e'.done = e.done

namespace Simulation

/-- Identifiers of one session, where some session has the label `n` here and `n'` there. -/
def SameId (n n' : Label) (a a' : SessionId) : Prop :=
  (a = n.session ∧ a' = n'.session) ∨ (a = a' ∧ a ≠ n.session ∧ a' ≠ n'.session)

lemma biUnique_sameId (n n' : Label) : Relator.BiUnique (SameId n n') := by
  constructor
  · rintro a b c (⟨rfl, rfl⟩ | ⟨rfl, ha, hc⟩) (⟨rfl, hb⟩ | ⟨rfl, hb, hc'⟩)
    · rfl
    · exact absurd rfl hc'
    · exact absurd hb hc
    · rfl
  · rintro a b c (⟨rfl, rfl⟩ | ⟨rfl, ha, hc⟩) (⟨hb, rfl⟩ | ⟨rfl, hb, hc'⟩)
    · rfl
    · exact absurd rfl hb
    · exact absurd hb ha
    · rfl

variable {γ α : Type}

/-! ## Turns of games alike -/

/-- The session under another game. -/
def Game.relabel (g : Game α) (game : GameId) : Game α := { g with game := game }

/-- The turn of a session under another game. -/
def Turn.relabel (t : Turn α) (game : GameId) : Turn α := { t with after := t.after.relabel game }

section Play

variable [Scalar α] [Chance γ α] {settings : Settings α} {g : Game α} {a : Action α} {c c' : γ}
  {t : Turn α}

/-- A turn stays within its game, and it does not matter which game that is. -/
lemma Game.Plays.relabel (h : g.Plays settings a c t c') (game : GameId) :
    (g.relabel game).Plays settings a c (t.relabel game) c' ∧ t.after.game = g.game := by
  cases h with
  | bet kind phase stake => exact ⟨.bet (g := g.relabel game) kind phase stake, rfl⟩
  | spin kind phase pending => exact ⟨.spin (g := g.relabel game) kind phase pending, rfl⟩
  | cashOut kind phase => exact ⟨.cashOut (g := g.relabel game) kind phase, rfl⟩
  | idle lenient misfit => exact ⟨.idle (g := g.relabel game) lenient misfit, rfl⟩

omit [Chance γ α] in
lemma Game.Refuses.relabel {e : ServiceError} (h : g.Refuses settings a e) (game : GameId) :
    (g.relabel game).Refuses settings a e := by
  cases h with
  | stake kind phase stake => exact .stake (g := g.relabel game) kind phase stake
  | noStake kind phase pending => exact .noStake (g := g.relabel game) kind phase pending
  | misfit strict misfit => exact .misfit (g := g.relabel game) strict misfit

end Play

/-! ## Services alike -/

/-- A session in two services: it has the label `n` here and the label `n'` there, and is in the
same state in both, or it is another session and the same in both. -/
inductive Held.Alike (n n' : Label) : Held α → Held α → Prop
  | labelled {h h' : Held α} (id : h.id = n.session) (id' : h'.id = n'.session)
      (game : h.game.game = n.game) (game' : h'.game = h.game.relabel n'.game) : Alike n n' h h'
  | other {h : Held α} (ne : h.id ≠ n.session) (ne' : h.id ≠ n'.session) : Alike n n' h h

lemma Held.Alike.sameId {n n' : Label} {h h' : Held α} (alike : Held.Alike n n' h h') :
    SameId n n' h.id h'.id := by
  cases alike with
  | labelled id id' _ _ => exact Or.inl ⟨id, id'⟩
  | other ne ne' => exact Or.inr ⟨rfl, ne, ne'⟩

/-- The experiences of a session in two services: they are of the same turns, if the session has
the label `n` here and the label `n'` there, and the same for another session. -/
inductive Entry.Alike (n n' : Label) : Entry α → Entry α → Prop
  | labelled {y y' : Entry α} (session : y.session = n.session) (session' : y'.session = n'.session)
      (experiences : List.Forall₂ (Experience.Alike n n') y.experiences y'.experiences) :
      Alike n n' y y'
  | other {y : Entry α} (ne : y.session ≠ n.session) (ne' : y.session ≠ n'.session) : Alike n n' y y

lemma Entry.Alike.sameId {n n' : Label} {y y' : Entry α} (alike : Entry.Alike n n' y y') :
    SameId n n' y.session y'.session := by
  cases alike with
  | labelled session session' _ => exact Or.inl ⟨session, session'⟩
  | other ne ne' => exact Or.inr ⟨rfl, ne, ne'⟩

section Stores

variable {n n' : Label} {xs ys : List (Held α)} {l l' : Log α}

lemma rel_find? (h : List.Forall₂ (Held.Alike n n') xs ys) :
    Option.Rel (Held.Alike n n') (xs.find? fun x => x.id = n.session)
      (ys.find? fun y => y.id = n'.session) := by
  induction h with
  | nil => exact .none
  | cons head _ ih =>
    cases head with
    | labelled id id' game game' =>
      rw [List.find?_cons_of_pos (by simpa using id), List.find?_cons_of_pos (by simpa using id')]
      exact .some (.labelled id id' game game')
    | other ne ne' =>
      rw [List.find?_cons_of_neg (by simpa using ne), List.find?_cons_of_neg (by simpa using ne')]
      exact ih

lemma rel_put {g : Game α} (hg : g.game = n.game) (h : List.Forall₂ (Held.Alike n n') xs ys) :
    List.Forall₂ (Held.Alike n n') (Held.put n.session g xs)
      (Held.put n'.session (g.relabel n'.game) ys) := by
  induction h with
  | nil => exact .nil
  | cons head tail ih =>
    unfold Held.put
    cases head with
    | labelled id id' _ _ =>
      rw [if_pos id, if_pos id']
      exact .cons (.labelled id id' hg rfl) tail
    | other ne ne' =>
      rw [if_neg ne, if_neg ne']
      exact .cons (.other ne ne') ih

lemma rel_of (h : List.Forall₂ (Entry.Alike n n') l l') :
    List.Forall₂ (Experience.Alike n n') (l.of n.session) (l'.of n'.session) := by
  induction h with
  | nil => exact .nil
  | cons head _ ih =>
    unfold Log.of
    cases head with
    | labelled session session' experiences =>
      rw [if_pos session, if_pos session']
      exact experiences
    | other ne ne' =>
      rw [if_neg ne, if_neg ne']
      exact ih

lemma rel_push {e e' : Experience α} (he : Experience.Alike n n' e e')
    (h : List.Forall₂ (Entry.Alike n n') l l') :
    List.Forall₂ (Entry.Alike n n') (l.push n.session e) (l'.push n'.session e') := by
  induction h with
  | nil => exact .cons (.labelled rfl rfl (.cons he .nil)) .nil
  | cons head tail ih =>
    unfold Log.push
    cases head with
    | labelled session session' experiences =>
      rw [if_pos session, if_pos session']
      exact .cons (.labelled session session' (List.rel_append experiences (.cons he .nil))) tail
    | other ne ne' =>
      rw [if_neg ne, if_neg ne']
      exact .cons (.other ne ne') ih

end Stores

namespace State

/-- Two services that differ in the label of one session, and in names, queues and counters. -/
structure Alike (n n' : Label) (s s' : State γ α) : Prop where
  settings : s'.settings = s.settings
  chances : s'.chances = s.chances
  opened : s'.opened = s.opened
  recorded : s'.recorded = s.recorded
  held : List.Forall₂ (Held.Alike n n') s.held s'.held
  records : List.Forall₂ (Entry.Alike n n') s.records s'.records
  finished : List.Forall₂ (SameId n n') s.finished s'.finished

variable {n n' : Label} {s s' : State γ α}

/-- A service is like itself under other names, queues and counters, before the labels are used. -/
lemma alike_of_fresh (hn : s.Fresh n.session) (hn' : s.Fresh n'.session) (names : Names)
    (u : State γ α) : Alike n n' s { s.withTallies u with names := names } where
  settings := rfl
  chances := rfl
  opened := rfl
  recorded := rfl
  held := List.forall₂_same.mpr fun h hh => .other (hn.held h hh) (hn'.held h hh)
  records := List.forall₂_same.mpr fun y hy => .other (hn.records y hy) (hn'.records y hy)
  finished := List.forall₂_same.mpr fun x hx =>
    Or.inr ⟨rfl, hn.finished x hx, hn'.finished x hx⟩

lemma Alike.withTallies (alike : Alike n n' s s') (u u' : State γ α) :
    Alike n n' (s.withTallies u) (s'.withTallies u') :=
  ⟨alike.settings, alike.chances, alike.opened, alike.recorded, alike.held, alike.records,
    alike.finished⟩

/-- Opening a session under the labels. -/
lemma Alike.create [Scalar α] (alike : Alike n n' s s') (hn : s.names.session s.opened = n.session)
    (hn' : s'.names.session s'.opened = n'.session) (player : Player α) :
    Alike n n' (s.create n.game player).2 (s'.create n'.game player).2 where
  settings := alike.settings
  chances := alike.chances
  opened := congrArg (· + 1) alike.opened
  recorded := alike.recorded
  held := by
    have hgame : Game.new s'.settings n'.game player =
        (Game.new s.settings n.game player).relabel n'.game := by
      rw [alike.settings]
      rfl
    refine List.rel_append (List.rel_filter (fun x x' hx => ?_) alike.held)
      (.cons (.labelled hn hn' rfl hgame) .nil)
    -- what is replaced here is replaced there
    rw [hn, hn']
    cases hx with
    | labelled id id' _ _ => simp [id, id']
    | other ne ne' => simp [ne, ne']
  records := alike.records
  finished := alike.finished

/-- The session is held here and there, or in neither service. -/
lemma Alike.find? (alike : Alike n n' s s') :
    Option.Rel (Held.Alike n n') (s.find? n.session) (s'.find? n'.session) :=
  rel_find? alike.held

lemma Alike.find?_eq_some (alike : Alike n n' s s') {h : Held α}
    (found : s.find? n.session = some h) :
    ∃ h', s'.find? n'.session = some h' ∧ h'.game = h.game.relabel n'.game ∧
      h.game.game = n.game := by
  have hrel := alike.find?
  rw [found] at hrel
  cases hfound : s'.find? n'.session with
  | none =>
    rw [hfound] at hrel
    cases hrel
  | some h' =>
    rw [hfound] at hrel
    cases hrel with
    | some halike =>
      cases halike with
      | labelled _ _ game game' => exact ⟨h', rfl, game', game⟩
      | other ne _ => exact absurd (id_of_find? found) ne

/-! ## Calls for the labelled session -/

lemma Alike.get_eq (alike : Alike n n' s s') {h : Held α} (found : s.find? n.session = some h) :
    s'.get n'.session = s.get n.session := by
  obtain ⟨h', found', game', -⟩ := alike.find?_eq_some found
  simp only [get, found, found', game']
  rfl

/-- What two requests for experiences have in common: both give experiences of the same turns, or
both fail. -/
def SameExperiences (n n' : Label) :
    Except ServiceError (List (Experience α)) → Except ServiceError (List (Experience α)) → Prop
  | .ok es, .ok es' => List.Forall₂ (Experience.Alike n n') es es'
  | .error _, .error _ => True
  | _, _ => False

lemma Alike.page (alike : Alike n n' s s') (limit offset : Nat) :
    SameExperiences n n' (s.page n.session limit offset) (s'.page n'.session limit offset) := by
  cases found : s.find? n.session with
  | some h =>
    obtain ⟨h', found', -, -⟩ := alike.find?_eq_some found
    simp only [State.page, found, found', SameExperiences]
    exact List.forall₂_take _ (List.forall₂_drop _ (rel_of alike.records))
  | none =>
    have hrel := alike.find?
    rw [found] at hrel
    have found' : s'.find? n'.session = none := by
      cases hfound : s'.find? n'.session with
      | none => rfl
      | some h' =>
        rw [hfound] at hrel
        cases hrel
    simp only [State.page, found, found', SameExperiences]

section Play

variable [Scalar α] {h h' : Held α} {now now' : Duration} {p : Play α} {t : Turn α} {c : γ}

lemma Alike.record (alike : Alike n n' s s') (id : h.id = n.session) (id' : h'.id = n'.session)
    (game' : h'.game = h.game.relabel n'.game) :
    Experience.Alike n n' (s.record now h p t) (s'.record now' h' p (t.relabel n'.game)) where
  session := id
  session' := id'
  state := by
    change h'.game.snapshot = h.game.snapshot
    rw [game']
    rfl
  action := rfl
  reward := congrArg (fun settings => t.reward settings p.humanLikeness) alike.settings
  nextState := rfl
  done := rfl

lemma Alike.turned (alike : Alike n n' s s') (id : h.id = n.session) (id' : h'.id = n'.session)
    (game' : h'.game = h.game.relabel n'.game) (game : t.after.game = n.game) :
    Alike n n' (s.turned now h p t c) (s'.turned now' h' p (t.relabel n'.game) c) where
  settings := alike.settings
  chances := rfl
  opened := alike.opened
  recorded := congrArg (· + 1) alike.recorded
  held := by
    rw [State.turned, State.turned, id, id']
    exact rel_put game alike.held
  records := by
    rw [State.turned, State.turned, id, id']
    exact rel_push (alike.record id id' game') alike.records
  finished := alike.finished

omit [Scalar α] in
/-- The same sessions are dropped, because the same are completed. -/
lemma Alike.retire (alike : Alike n n' s s') :
    Alike n n' (s.retire n.session) (s'.retire n'.session) := by
  have hfinished : List.Forall₂ (SameId n n') (s.finished ++ [n.session])
      (s'.finished ++ [n'.session]) :=
    List.rel_append alike.finished (.cons (Or.inl ⟨rfl, rfl⟩) .nil)
  -- how many are dropped depends on their number only
  have hexcess : (s'.finished ++ [n'.session]).length - s'.settings.retained =
      (s.finished ++ [n.session]).length - s.settings.retained := by
    rw [hfinished.length_eq, alike.settings]
  -- a session is among the dropped ones here if and only if it is there
  have hdropped : ∀ {a a'}, SameId n n' a a' →
      (a ∈ s.dropped n.session ↔ a' ∈ s'.dropped n'.session) := by
    intro a a' ha
    rw [State.dropped, State.dropped, List.rdrop, List.rdrop, hexcess]
    exact List.rel_mem (biUnique_sameId n n') ha (List.forall₂_take _ hfinished)
  refine ⟨alike.settings, alike.chances, alike.opened, alike.recorded, ?_, ?_, ?_⟩
  · refine List.rel_filter (fun x x' hx => ?_) alike.held
    simpa [State.dropped, List.rdrop] using not_congr (hdropped hx.sameId)
  · refine List.rel_filter (fun y y' hy => ?_) alike.records
    simpa [State.dropped, List.rdrop] using not_congr (hdropped hy.sameId)
  · simp only [State.retire, hexcess]
    exact List.forall₂_drop _ hfinished

lemma Alike.settled (alike : Alike n n' s s') (id : h.id = n.session) (id' : h'.id = n'.session)
    (game' : h'.game = h.game.relabel n'.game) (game : t.after.game = n.game) :
    Alike n n' (s.settled now h p t c) (s'.settled now' h' p (t.relabel n'.game) c) := by
  have hturned : Alike n n' (s.turned now h p t c) (s'.turned now' h' p (t.relabel n'.game) c) :=
    alike.turned id id' game' game
  have hphase : h'.game.phase = h.game.phase := by
    rw [game']
    rfl
  unfold State.settled
  rw [hphase, id, id']
  change Alike n n' _ (if t.after.phase.isTerminal && !h.game.phase.isTerminal then _ else _)
  split
  · exact hturned.retire
  · exact hturned

/-- A play of the labelled session is refused here and there for the same reason, or accepted with
the same answer.  Unless it completes the session it keeps it. -/
lemma Alike.play [Chance γ α] (alike : Alike n n' s s') (found : s.find? n.session = some h)
    (p : Play α) (now now' : Duration) :
    (∃ e, s.play now n.session p = (.error e, s) ∧ s'.play now' n'.session p = (.error e, s')) ∨
      ∃ o s₁ s₁', s.play now n.session p = (.ok o, s₁) ∧ s'.play now' n'.session p = (.ok o, s₁') ∧
        Alike n n' s₁ s₁' ∧ s₁.opened = s.opened ∧
        (o.isTerminal = false → ∃ h, s₁.find? n.session = some h) := by
  obtain ⟨h', found', game', game⟩ := alike.find?_eq_some found
  have id := id_of_find? found
  have id' := id_of_find? found'
  rcases Game.refuses_or_plays γ s.settings h.game p.action with ⟨e, hrefuses⟩ | hplays
  · refine Or.inl ⟨e, play_of_refuses found hrefuses now, play_of_refuses found' ?_ now'⟩
    rw [game', alike.settings]
    exact hrefuses.relabel n'.game
  · obtain ⟨t, c, hplays⟩ := hplays s.chances
    obtain ⟨hplays', hgame⟩ := hplays.relabel n'.game
    rw [← game', ← alike.settings, ← alike.chances] at hplays'
    refine Or.inr ⟨_, _, _, play_of_plays found hplays now, play_of_plays found' hplays' now',
      alike.settled id id' game' (hgame.trans game), settled_opened, ?_⟩
    intro hopen
    rw [← id] at found ⊢
    rcases find?_settled now p t c found with hfound | ⟨hphase, -⟩
    · exact ⟨_, hfound⟩
    · have hterminal : t.after.phase.isTerminal = true := (Phase.isTerminal_iff _).mpr hphase
      exact absurd (hterminal.symm.trans hopen) (by decide)

end Play

end State

end Simulation

end Punter
