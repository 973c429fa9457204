/-
# Which sessions the simulated service keeps

Sessions are opened, are completed, and some time after that are dropped together with their
experiences.  All three can be told from the outside: which sessions were opened and completed is
seen in the exchanges of a run, and the service keeps the open sessions and a number of those
completed last.

A completed session may be played on where that is let pass, and then shows itself as completed
once more.  It is therefore its first completion that counts, and the invariant of this file
(`Keeps`) ties the phase of a session to the completions so far: without that a session could be
retired twice, and push another one out of the queue.
-/
import Mathlib
import Punter.Proofs.Simulation.Records

namespace Punter

/-! ## What can be seen of openings and completions -/

namespace Exchange

variable {α : Type}

/-- The session, where an exchange opened one. -/
def openedSession : Exchange α → Option SessionId
  | ⟨_, .create _ _, .ok o⟩ => some o.session
  | _ => none

/-- The session, where an exchange is an accepted play that shows it completed. -/
def completedSession : Exchange α → Option SessionId
  | ⟨_, .play id _, .ok o⟩ => if o.isTerminal then some id else none
  | _ => none

end Exchange

/-- The session to which a call is addressed. -/
def Call.session? {α : Type} : Call α → Option SessionId
  | .get id => some id
  | .play id _ => some id
  | .page id _ _ => some id
  | _ => none

namespace Simulation

/-- A source of chances with which no spin wins. -/
inductive NoLuck where
  | noLuck

instance {α : Type} : Chance NoLuck α := ⟨fun _ c => (false, c), fun _ h c => (⟨0, h⟩, c)⟩

variable {γ α : Type}

/-- The sessions that moves completed, in the order of their first completion. -/
def completions (ms : List (Move α)) : List SessionId :=
  ((ms.filter fun m => m.turn.after.phase.isTerminal).map Move.session).eraseDups

/-! ## The last ones of a list -/

section Last

variable {T : Type}

lemma rdrop_append_rtake (xs : List T) (n : Nat) : xs.rdrop n ++ xs.rtake n = xs :=
  List.take_append_drop _ _

lemma length_rtake (xs : List T) (n : Nat) : (xs.rtake n).length = min xs.length n := by
  rw [List.rtake, List.length_drop]
  omega

/-- One more element pushes out the first of the last ones. -/
lemma rtake_append_singleton (xs : List T) (x : T) (n : Nat) :
    (xs ++ [x]).rtake n = (xs.rtake n ++ [x]).rtake n := by
  cases n with
  | zero => simp
  | succ n =>
    rw [List.rtake_concat_succ, List.rtake_concat_succ]
    congr 1
    -- the last ones of the last ones, of which there are more
    rw [List.rtake, List.rtake, List.rtake, List.drop_drop, List.length_drop]
    congr 1
    omega

lemma rdrop_append_singleton (xs : List T) (x : T) (n : Nat) :
    (xs ++ [x]).rdrop n = xs.rdrop n ++ (xs.rtake n ++ [x]).rdrop n := by
  have hall : (xs ++ [x]).rdrop n ++ (xs ++ [x]).rtake n = xs ++ [x] := rdrop_append_rtake _ _
  have hlast : (xs.rtake n ++ [x]).rdrop n ++ (xs.rtake n ++ [x]).rtake n = xs.rtake n ++ [x] :=
    rdrop_append_rtake _ _
  rw [rtake_append_singleton] at hall
  refine List.append_cancel_right (hall.trans ?_)
  rw [List.append_assoc, hlast, ← List.append_assoc, rdrop_append_rtake]

/-- What is not among the last ones stays out of them. -/
lemma rdrop_prefix_rdrop {xs ys : List T} (h : xs <+: ys) (n : Nat) : xs.rdrop n <+: ys.rdrop n := by
  have hlength : xs.length ≤ ys.length := h.length_le
  refine List.prefix_of_prefix_length_le ((List.take_prefix _ _).trans h)
    (List.take_prefix _ _) ?_
  rw [List.rdrop, List.rdrop, List.length_take, List.length_take]
  omega

variable [BEq T] [LawfulBEq T]

lemma eraseDups_append_singleton (xs : List T) (x : T) :
    (xs ++ [x]).eraseDups = if x ∈ xs then xs.eraseDups else xs.eraseDups ++ [x] := by
  rw [List.eraseDups_append]
  by_cases hx : x ∈ xs <;> simp [List.removeAll, List.eraseDups_cons, hx]

lemma nodup_eraseDups (xs : List T) : xs.eraseDups.Nodup := by
  induction xs using List.reverseRecOn with
  | nil => simp
  | append_singleton xs x ih =>
    rw [eraseDups_append_singleton]
    split
    · exact ih
    · next hx =>
      refine List.nodup_append.mpr ⟨ih, List.nodup_singleton x, ?_⟩
      intro a ha b hb hab
      rw [List.mem_singleton.mp hb] at hab
      rw [hab, List.mem_eraseDups] at ha
      exact hx ha

lemma eraseDups_prefix_append (xs ys : List T) : xs.eraseDups <+: (xs ++ ys).eraseDups := by
  rw [List.eraseDups_append]
  exact List.prefix_append _ _

/-- How many are left when some are taken out. -/
lemma length_filter_notMem {xs ys : List T} (hxs : xs.Nodup) (hys : ys.Nodup) (h : ys ⊆ xs) :
    (xs.filter fun x => !ys.contains x).length = xs.length - ys.length := by
  have hsame : (xs.filter fun x => ys.contains x).Perm ys := by
    refine (List.perm_ext_iff_of_nodup (hxs.filter _) hys).mpr fun x => ?_
    rw [List.mem_filter, List.contains_iff_mem]
    exact ⟨fun hx => hx.2, fun hx => ⟨h hx, hx⟩⟩
  have htotal := List.length_eq_length_filter_add (l := xs) fun x => ys.contains x
  rw [hsame.length_eq] at htotal
  omega

end Last

/-! ## Completions -/

lemma mem_completions {ms : List (Move α)} {id : SessionId} :
    id ∈ completions ms ↔ ∃ m ∈ ms, m.turn.after.phase.isTerminal = true ∧ m.session = id := by
  simp only [completions, List.mem_eraseDups, List.mem_map, List.mem_filter, and_assoc]

/-- A move completes its session if it leaves it completed for the first time. -/
lemma completions_append_of_first {ms : List (Move α)} {m : Move α}
    (hterm : m.turn.after.phase.isTerminal = true) (hfirst : m.session ∉ completions ms) :
    completions (ms ++ [m]) = completions ms ++ [m.session] := by
  have hlast : [m].filter (fun m => m.turn.after.phase.isTerminal) = [m] := by simp [hterm]
  rw [completions, List.mem_eraseDups] at hfirst
  rw [completions, List.filter_append, hlast, List.map_append, List.map_singleton,
    eraseDups_append_singleton, if_neg hfirst]
  rfl

lemma completions_append_of_again {ms : List (Move α)} {m : Move α}
    (h : m.turn.after.phase.isTerminal = true → m.session ∈ completions ms) :
    completions (ms ++ [m]) = completions ms := by
  by_cases hterm : m.turn.after.phase.isTerminal = true
  · have hlast : [m].filter (fun m => m.turn.after.phase.isTerminal) = [m] := by simp [hterm]
    have hagain := h hterm
    rw [completions, List.mem_eraseDups] at hagain
    rw [completions, List.filter_append, hlast, List.map_append, List.map_singleton,
      eraseDups_append_singleton, if_pos hagain]
    rfl
  · have hlast : [m].filter (fun m => m.turn.after.phase.isTerminal) = [] := by simp [hterm]
    rw [completions, List.filter_append, hlast, List.append_nil]
    rfl

namespace State

variable [Scalar α] [Chance γ α]

/-- The service keeps the sessions that are open and those completed last. -/
structure Keeps (names : Names) (ms : List (Move α)) (s : State γ α) : Prop where
  finished_eq : s.finished = (completions ms).rtake s.settings.retained
  /-- Of all sessions that were opened those are left that were not pushed out of the queue. -/
  ids_eq : s.held.map Held.id = ((List.range s.opened).map names.session).filter
    fun id => !((completions ms).rdrop s.settings.retained).contains id
  completed_iff : ∀ h ∈ s.held, h.game.phase = .completed ↔ h.id ∈ completions ms

variable {settings : Settings α} {names : Names} {ms : List (Move α)} {s : State γ α}

omit [Scalar α] [Chance γ α] in
lemma keeps_new (settings : Settings α) (names : Names) (chances : γ) :
    Keeps names [] (new settings names chances) where
  finished_eq := by simp [new, completions]
  ids_eq := by simp [new]
  completed_iff := by simp [new]

omit [Scalar α] [Chance γ α] in
lemma Keeps.withTallies (hs : Keeps names ms s) (u : State γ α) :
    Keeps names ms (s.withTallies u) :=
  ⟨hs.finished_eq, hs.ids_eq, hs.completed_iff⟩

/-- Only sessions that were opened are completed. -/
lemma Accounts.exists_of_mem_completions (hs : Accounts settings names ms s) {id : SessionId}
    (hid : id ∈ completions ms) : ∃ i < s.opened, id = names.session i := by
  obtain ⟨m, hm, -, rfl⟩ := mem_completions.mp hid
  exact hs.moved m hm

lemma Keeps.create (hs : Keeps names ms s) (accounts : Accounts settings names ms s)
    (hn : names.Distinct (s.opened + 1)) (game : GameId) (player : Player α) :
    Keeps names ms (s.create game player).2 := by
  have hnew : names.session s.opened ∉ completions ms := fun hid =>
    hn.ne (accounts.exists_of_mem_completions hid) rfl
  have hheld : (s.create game player).2.held =
      s.held ++ [⟨names.session s.opened, .new s.settings game player⟩] := by
    have hfresh := (accounts.fresh hn).1
    rw [← accounts.names_eq] at hfresh ⊢
    exact hfresh.held_create game player
  refine ⟨hs.finished_eq, ?_, ?_⟩
  · have hkept : names.session s.opened ∉ (completions ms).rdrop s.settings.retained :=
      fun hid => hnew ((List.take_prefix _ _).subset hid)
    change _ = ((List.range (s.opened + 1)).map names.session).filter _
    rw [hheld, List.map_append, hs.ids_eq, List.range_succ, List.map_append, List.filter_append]
    congr 1
    simp [State.create, hkept]
  · intro x hx
    rw [hheld] at hx
    rcases List.mem_append.mp hx with hx | hx
    · exact hs.completed_iff x hx
    · rw [List.mem_singleton.mp hx]
      simp [Game.new, hnew]

omit [Scalar α] [Chance γ α] in
lemma finished_retire (s : State γ α) (id : SessionId) :
    (s.retire id).finished = (s.finished ++ [id]).rtake s.settings.retained := rfl

omit [Scalar α] [Chance γ α] in
lemma ids_retire (s : State γ α) (id : SessionId) :
    (s.retire id).held.map Held.id = (s.held.map Held.id).filter
      fun x => !(s.dropped id).contains x := by
  rw [List.filter_map]
  rfl

section Settled

variable {h : Held α} {p : Play α} {t : Turn α} {c : γ}

/-- The phase of a session still tells whether it has been completed. -/
lemma Keeps.completed_iff_settled (hs : Keeps names ms s) (accounts : Accounts settings names ms s)
    (hh : h ∈ s.held) (plays : h.game.Plays settings p.action s.chances t c)
    (now : Duration) :
    ∀ x ∈ (s.settled now h p t c).held,
      x.game.phase = .completed ↔ x.id ∈ completions (ms ++ [⟨h.id, p, h.game, t⟩]) := by
  intro x hx
  have hmem : ∀ id, id ∈ completions (ms ++ [⟨h.id, p, h.game, t⟩]) ↔
      id ∈ completions ms ∨ t.after.phase = .completed ∧ h.id = id := by
    intro id
    simp only [mem_completions, List.mem_append, List.mem_singleton, or_and_right, exists_or,
      exists_eq_left, Phase.isTerminal_iff]
  rw [hmem]
  rcases accounts.mem_settled hx with ⟨hx, hne⟩ | rfl
  · rw [hs.completed_iff x hx]
    exact ⟨Or.inl, fun hor => hor.resolve_right fun hand => hne hand.2.symm⟩
  · have hbefore := hs.completed_iff h hh
    refine ⟨fun hafter => Or.inr ⟨hafter, rfl⟩, ?_⟩
    rintro (hcompleted | ⟨hafter, -⟩)
    · -- what has been completed stays so
      rw [plays.after_eq (hbefore.mpr hcompleted)]
      exact hbefore.mpr hcompleted
    · exact hafter

lemma Keeps.settled (hs : Keeps names ms s) (accounts : Accounts settings names ms s)
    (hh : h ∈ s.held) (plays : h.game.Plays settings p.action s.chances t c)
    (now : Duration) :
    Keeps names (ms ++ [⟨h.id, p, h.game, t⟩]) (s.settled now h p t c) := by
  have hids : (s.turned now h p t c).held.map Held.id = _ :=
    (Held.ids_put _ _ _).trans hs.ids_eq
  have hbefore := hs.completed_iff h hh
  have hafter := hs.completed_iff_settled accounts hh plays now
  by_cases hretires : (t.after.phase.isTerminal && !h.game.phase.isTerminal) = true
  · obtain ⟨hterm, hopen⟩ := Bool.and_eq_true_iff.mp hretires
    have hfirst : h.id ∉ completions ms := by
      rw [← hbefore, ← Phase.isTerminal_iff]
      simpa using hopen
    have hcompletions : completions (ms ++ [⟨h.id, p, h.game, t⟩]) = completions ms ++ [h.id] :=
      completions_append_of_first hterm hfirst
    rw [State.settled, if_pos hretires] at hafter ⊢
    refine ⟨?_, ?_, hafter⟩
    · have hkept := rtake_append_singleton (completions ms) h.id s.settings.retained
      rw [← hs.finished_eq] at hkept
      rw [hcompletions]
      exact (finished_retire _ _).trans hkept.symm
    · -- who is pushed out now joins those who were pushed out before
      rw [ids_retire, hids, List.filter_filter, hcompletions]
      refine List.filter_congr fun x _ => ?_
      have hdropped := rdrop_append_singleton (completions ms) h.id s.settings.retained
      rw [← hs.finished_eq] at hdropped
      change _ = !((completions ms ++ [h.id]).rdrop s.settings.retained).contains x
      rw [hdropped, List.contains_append, Bool.not_or, Bool.and_comm]
      rfl
  · -- either the session goes on, or it had been completed before
    have hcompletions : completions (ms ++ [⟨h.id, p, h.game, t⟩]) = completions ms := by
      refine completions_append_of_again fun hterm => ?_
      rw [← hbefore, ← Phase.isTerminal_iff]
      simpa [show t.after.phase.isTerminal = true from hterm] using hretires
    rw [State.settled, if_neg hretires] at hafter ⊢
    refine ⟨?_, ?_, hafter⟩
    · rw [hcompletions]
      exact hs.finished_eq
    · rw [hcompletions]
      exact hids

end Settled

/-- After a run in which no identifier was given twice the service has kept what it is to keep. -/
lemma keeps_run (settings : Settings α) (names : Names) (chances : γ) (ops : List (Operation α))
    (distinct : names.Distinct ((new settings names chances).run ops).opened) :
    Keeps names ((new settings names chances).moves ops)
      ((new settings names chances).run ops) :=
  (accounts_induction (P := Keeps names) (keeps_new settings names chances)
    (fun keeps u => keeps.withTallies u)
    (fun keeps accounts hn game player => keeps.create accounts hn game player)
    (fun keeps accounts _ _ _ _ hh plays now => keeps.settled accounts hh plays now)
    ops distinct).2

/-! ## The invariant from the outside -/

omit [Scalar α] [Chance γ α] in
lemma completedSession_eq_bind (x : Exchange α) :
    x.completedSession = (acceptedPlay x).bind fun a =>
      if a.2.2.isTerminal = true then some a.1 else none := by
  obtain ⟨now, c, o⟩ := x
  cases c <;> cases o <;> rfl

/-- Which sessions were completed can be told from the answers to plays. -/
lemma completedSession_exchanges (s : State γ α) (ops : List (Operation α)) :
    ((s.exchanges ops).filterMap Exchange.completedSession).eraseDups =
      completions (s.moves ops) := by
  rw [completions, funext completedSession_eq_bind, ← List.filterMap_filterMap,
    acceptedPlay_exchanges, List.filterMap_map, ← List.filterMap_eq_map, List.filterMap_filter]
  rfl

/-- An answer opens the session that is counted. -/
lemma openedSession_answer (s : State γ α) (c : Call α) (now : Duration) :
    (List.range s.opened).map s.names.session ++
        (Exchange.openedSession ⟨now, c, (s.answer c now).1⟩).toList =
      (List.range (s.answer c now).2.opened).map s.names.session := by
  rcases h : s.answer c now with ⟨e | o, s'⟩
  · obtain ⟨-, u, rfl⟩ := answer_eq_error h
    cases c <;> exact List.append_nil _
  · cases c with
    | create game player =>
      obtain ⟨s'', u, hserve, rfl⟩ := answer_eq_ok h
      obtain ⟨ho, rfl⟩ := Prod.mk.inj hserve
      obtain rfl := Except.ok.inj ho
      change _ = (List.range (s.opened + 1)).map _
      rw [List.range_succ, List.map_append]
      rfl
    | play id p =>
      obtain ⟨held, t, c, u, -, -, -, rfl⟩ := answer_play_eq_ok h
      change _ = (List.range (s.settled now held p t c).opened).map _
      rw [settled_opened]
      exact List.append_nil _
    | _ =>
      obtain ⟨s'', u, hserve, rfl⟩ := answer_eq_ok h
      obtain rfl := congrArg Prod.snd hserve
      exact List.append_nil _

/-- Which sessions were opened can be told from the answers. -/
lemma openedSession_exchanges (s : State γ α) (ops : List (Operation α)) :
    (List.range s.opened).map s.names.session ++
        (s.exchanges ops).filterMap Exchange.openedSession =
      (List.range (s.run ops).opened).map s.names.session := by
  induction ops generalizing s with
  | nil => exact List.append_nil _
  | cons op ops ih =>
    cases op with
    | inject k es => exact ih (s.inject k es)
    | call c now =>
      have hnames : (s.after (.call c now)).names = s.names := names_run s [.call c now]
      have hrest := ih (s.after (.call c now))
      have hanswer := openedSession_answer s c now
      rw [hnames] at hrest
      rw [exchanges, List.filterMap_cons]
      change _ = (List.range ((s.after (.call c now)).run ops).opened).map _
      rw [← hrest, show (s.after (.call c now)).opened = (s.answer c now).2.opened from rfl,
        ← hanswer, List.append_assoc]
      congr 1
      cases Exchange.openedSession ⟨now, c, (s.answer c now).1⟩ <;> rfl

/-- A service keeps the sessions that it is to keep: all open ones, and of the completed ones a
number of those completed last. -/
structure Retains (retained : Nat) (created completed : List SessionId) (s : State γ α) :
    Prop where
  created_nodup : created.Nodup
  completed_nodup : completed.Nodup
  completed_subset : completed ⊆ created
  /-- The queue holds those completed last, in the order of their completion. -/
  finished_eq : s.finished = completed.rtake retained
  finished_length : s.finished.length = min completed.length retained
  held_nodup : (s.held.map Held.id).Nodup
  held_iff : ∀ id, (∃ h ∈ s.held, h.id = id) ↔
    (id ∈ created ∧ id ∉ completed) ∨ id ∈ s.finished
  held_length : s.held.length = created.length - completed.length + min completed.length retained
  completed_iff : ∀ h ∈ s.held, h.game.phase = .completed ↔ h.id ∈ completed
  /-- Experiences are kept for sessions that are held and for no others, with one entry for each
  session at most. -/
  recorded_nodup : (s.records.map Entry.session).Nodup
  recorded : ∀ y ∈ s.records, ∃ h ∈ s.held, h.id = y.session
  /-- They are kept under the session that they belong to. -/
  owned : ∀ y ∈ s.records, ∀ e ∈ y.experiences, e.session = y.session

lemma session_of_leads {start g : Game α} {es : List (Experience α)}
    (h : Leads γ settings start ms es g) : ∀ e ∈ es, ∃ m ∈ ms, e.session = m.session := by
  induction h with
  | nil => simp
  | @snoc ms es m e c c' _ _ records ih =>
    intro x hx
    rcases List.mem_append.mp hx with hx | hx
    · obtain ⟨m', hm', heq⟩ := ih x hx
      exact ⟨m', List.mem_append_left _ hm', heq⟩
    · rw [List.mem_singleton.mp hx]
      exact ⟨m, List.mem_append_right _ (List.mem_singleton.mpr rfl), records.session⟩

/-- An experience belongs to the session under which it is kept. -/
lemma Accounts.session_eq (hs : Accounts settings names ms s) {y : Entry α} (hy : y ∈ s.records)
    {e : Experience α} (he : e ∈ y.experiences) : e.session = y.session := by
  obtain ⟨h, hh, hid⟩ := hs.recorded y hy
  obtain ⟨game, player, hleads⟩ := hs.accounted h hh
  rw [hid, Log.of_eq_of_mem hs.nodup_records hy] at hleads
  obtain ⟨m, hm, heq⟩ := session_of_leads hleads e he
  rw [heq]
  simpa using (List.mem_filter.mp hm).2

omit [Scalar α] [Chance γ α] in
/-- A session is held if it was opened and has not been pushed out of the queue. -/
lemma Keeps.held_iff (hs : Keeps names ms s) (id : SessionId) :
    (∃ h ∈ s.held, h.id = id) ↔ id ∈ (List.range s.opened).map names.session ∧
      id ∉ (completions ms).rdrop s.settings.retained := by
  rw [← List.mem_map, hs.ids_eq, List.mem_filter, Bool.not_eq_true', ← Bool.not_eq_true,
    List.contains_iff_mem]

/-- The session that was completed last is held, if completed ones are kept at all. -/
lemma Keeps.exists_of_last (keeps : Keeps names ms s) (accounts : Accounts settings names ms s)
    (pos : 0 < s.settings.retained) {id : SessionId}
    (last : (completions ms).getLast? = some id) : ∃ h, s.find? id = some h := by
  obtain ⟨i, hi, hid⟩ := accounts.exists_of_mem_completions (List.mem_of_getLast? last)
  obtain ⟨before, hsplit⟩ := List.getLast?_eq_some_iff.mp last
  obtain ⟨n, hn⟩ := Nat.exists_eq_succ_of_ne_zero pos.ne'
  have hnodup : (before ++ [id]).Nodup := hsplit ▸ nodup_eraseDups _
  have hfirst : id ∉ before := fun hmem =>
    (List.nodup_append.mp hnodup).2.2 id hmem id (List.mem_singleton_self id) rfl
  -- it is the last one of the queue, and not among those before it who were pushed out
  have hheld : ∃ h ∈ s.held, h.id = id := by
    rw [keeps.held_iff, hsplit, hn, List.rdrop_concat_succ]
    refine ⟨?_, fun hdropped => hfirst (List.take_subset _ _ hdropped)⟩
    rw [hid]
    exact List.mem_map_of_mem (List.mem_range.mpr hi)
  obtain ⟨h, hh, rfl⟩ := hheld
  exact ⟨h, accounts.find?_eq hh⟩

lemma retains_of_keeps (keeps : Keeps names ms s) (accounts : Accounts settings names ms s)
    (distinct : names.Distinct s.opened) :
    s.Retains settings.retained ((List.range s.opened).map names.session) (completions ms) := by
  have hretained : s.settings.retained = settings.retained := by rw [accounts.settings_eq]
  have hnodup : ((List.range s.opened).map names.session).Nodup :=
    List.Nodup.map_on (fun i hi j hj => distinct i (List.mem_range.mp hi) j (List.mem_range.mp hj))
      List.nodup_range
  have hsubset : completions ms ⊆ (List.range s.opened).map names.session := by
    intro id hid
    obtain ⟨i, hi, rfl⟩ := accounts.exists_of_mem_completions hid
    exact List.mem_map_of_mem (List.mem_range.mpr hi)
  -- who was pushed out and who is in the queue are all that were completed, each of them once
  have hsplit := rdrop_append_rtake (completions ms) s.settings.retained
  have hcompleted : (completions ms).Nodup := nodup_eraseDups _
  have hdisjoint := hcompleted
  rw [← hsplit, List.nodup_append] at hdisjoint
  obtain ⟨hdropped, -, hne⟩ := hdisjoint
  have hlast : (completions ms).rtake s.settings.retained ⊆ completions ms :=
    List.drop_subset _ _
  refine
    { created_nodup := hnodup
      completed_nodup := hcompleted
      completed_subset := hsubset
      finished_eq := hretained ▸ keeps.finished_eq
      finished_length := ?_
      held_nodup := accounts.nodup
      held_iff := fun id => ?_
      held_length := ?_
      completed_iff := keeps.completed_iff
      recorded_nodup := accounts.nodup_records
      recorded := accounts.recorded
      owned := fun y hy e he => accounts.session_eq hy he }
  · rw [keeps.finished_eq, length_rtake, hretained]
  · rw [keeps.held_iff, keeps.finished_eq]
    constructor
    · rintro ⟨hcreated, hkept⟩
      by_cases hid : id ∈ completions ms
      · rw [← hsplit] at hid
        exact Or.inr ((List.mem_append.mp hid).resolve_left hkept)
      · exact Or.inl ⟨hcreated, hid⟩
    · rintro (⟨hcreated, hopen⟩ | hid)
      · exact ⟨hcreated, fun hid => hopen (List.take_subset _ _ hid)⟩
      · exact ⟨hsubset (hlast hid), fun hdrop => hne id hdrop id hid rfl⟩
  · have hlength := congrArg List.length keeps.ids_eq
    have hdrop : (completions ms).rdrop s.settings.retained ⊆
        (List.range s.opened).map names.session :=
      fun id hid => hsubset (List.take_subset _ _ hid)
    have hle := (hcompleted.subperm hsubset).length_le
    rw [List.length_map, length_filter_notMem hnodup hdropped hdrop, List.rdrop,
      List.length_take, hretained] at hlength
    omega

/-! ## Calls for other sessions, and for sessions that are not held -/

omit [Scalar α] [Chance γ α] in
lemma find?_eq_none_iff {id : SessionId} : s.find? id = none ↔ ¬ ∃ h ∈ s.held, h.id = id := by
  simp [find?]

/-- A call for a session that is not held fails, if not with a queued failure then because of
that. -/
lemma answer_of_not_held {id : SessionId} (hid : s.find? id = none) {c : Call α}
    (hc : c.session? = some id) {k : CallKind} (hk : CallKind.of? c = some k) (now : Duration) :
    (s.answer c now).1 = .error ((s.failures.of k).headD (notFound id)) := by
  cases hq : s.failures.of k with
  | cons e es => rw [answer_of_cons hk hq]; rfl
  | nil =>
    rw [answer_eq_serve hk hq]
    cases c <;> cases hc
    · simp only [serve, get, hid]; rfl
    · simp only [serve, play_of_none hid]; rfl
    · simp only [serve, page, hid]; rfl

/-- A session is left alone with its experiences, or it has been completed and is dropped together
with them. -/
def LeavesAlone (h : Held α) (s s' : State γ α) : Prop :=
  (h ∈ s'.held ∧ s'.records.of h.id = s.records.of h.id) ∨
    (h.id ∈ s.finished ∧ s'.find? h.id = none ∧ s'.records.of h.id = [])

omit [Chance γ α] in
lemma leavesAlone_settled {x h : Held α} {now : Duration} {p : Play α} {t : Turn α} {c : γ}
    (hh : h ∈ s.held) (hne : h.id ≠ x.id) : LeavesAlone h s (s.settled now x p t c) := by
  have hturned : h ∈ (s.turned now x p t c).held := Held.mem_put_of_ne hh hne
  have hrecords : (s.turned now x p t c).records.of h.id = s.records.of h.id :=
    (Log.of_push _ _ _ _).trans (if_neg hne)
  unfold State.settled
  split
  · by_cases hdrop : h.id ∈ (s.turned now x p t c).dropped x.id
    · refine Or.inr ⟨?_, ?_, ?_⟩
      · have hmem := List.take_subset _ _ hdrop
        exact (List.mem_append.mp hmem).resolve_right fun hx => hne (List.mem_singleton.mp hx)
      · rw [find?_eq_none_iff]
        rintro ⟨y, hy, hid⟩
        exact (mem_held_retire.mp hy).2 (hid ▸ hdrop)
      · rw [records_retire, Log.of_drop, if_pos hdrop]
    · refine Or.inl ⟨mem_held_retire.mpr ⟨hturned, hdrop⟩, ?_⟩
      rw [records_retire, Log.of_drop, if_neg hdrop, hrecords]
  · exact Or.inl ⟨hturned, hrecords⟩

/-- What is done with one session leaves all others alone. -/
lemma Accounts.leavesAlone (hs : Accounts settings names ms s) {s' : State γ α} {op : Operation α}
    {m : Option (Move α)} (hstep : Step s op m s') (hn : names.Distinct s'.opened) {h : Held α}
    (hh : h ∈ s.held) (hop : ∀ p now, op ≠ .call (.play h.id p) now) : LeavesAlone h s s' := by
  cases hstep with
  | quiet u => exact Or.inl ⟨hh, rfl⟩
  | @opened game player now u =>
    have hfresh := (hs.fresh hn).1
    rw [← hs.names_eq] at hfresh
    refine Or.inl ⟨?_, rfl⟩
    change h ∈ (s.create game player).2.held
    rw [hfresh.held_create]
    exact List.mem_append_left _ hh
  | @played id p now x t c found plays u =>
    obtain rfl := id_of_find? found
    exact leavesAlone_settled hh fun heq => hop p now (by rw [heq])

omit [Scalar α] [Chance γ α] in
/-- A session that was opened and is no longer held has been pushed out of the queue, and those
who were pushed out stay out. -/
lemma Keeps.find?_eq_none {s' : State γ α} {ms' : List (Move α)} (hs : Keeps names ms s)
    (hs' : Keeps names (ms ++ ms') s') (hretained : s'.settings.retained = s.settings.retained)
    {id : SessionId} (hid : id ∈ (List.range s.opened).map names.session)
    (gone : s.find? id = none) : s'.find? id = none := by
  rw [find?_eq_none_iff, hs.held_iff] at gone
  have hdropped : id ∈ (completions ms).rdrop s.settings.retained := by
    by_contra hkept
    exact gone ⟨hid, hkept⟩
  have hprefix : completions ms <+: completions (ms ++ ms') := by
    rw [completions, completions, List.filter_append, List.map_append]
    exact eraseDups_prefix_append _ _
  have hdropped' := (rdrop_prefix_rdrop hprefix s.settings.retained).subset hdropped
  rw [find?_eq_none_iff, hs'.held_iff, hretained]
  exact fun hheld => hheld.2 hdropped'

/-- **Retention and isolation.**  Take any run of the simulated service in which no identifier is
given twice, with the sessions that it was seen to open and to complete.  All sessions that are
open are held, and of those that were completed the last ones up to a set number, which wait in
the queue in the order of their completion; nothing else is held, and no experiences are kept but
those of the sessions that are held.  A call for a session that is not held fails for this reason,
unless a failure is queued for it; a session that was dropped is never held again.  And a call that
is not addressed to a session leaves it and its experiences as they are, unless the session has
been completed and is dropped. -/
theorem retention_and_isolation (settings : Settings α) (names : Names) (chances : γ)
    (ops : List (Operation α))
    (distinct : names.Distinct ((new settings names chances).run ops).opened) :
    let s := (new settings names chances).run ops
    let xs := (new settings names chances).exchanges ops
    let created := xs.filterMap Exchange.openedSession
    let completed := (xs.filterMap Exchange.completedSession).eraseDups
    s.Retains settings.retained created completed ∧
      (∀ id, s.find? id = none → ∀ (c : Call α) (k : CallKind) (now : Duration),
        c.session? = some id → CallKind.of? c = some k →
          (s.answer c now).1 = .error ((s.failures.of k).headD (notFound id))) ∧
      (∀ id ∈ created, s.find? id = none → ∀ more : List (Operation α),
        names.Distinct (s.run more).opened → (s.run more).find? id = none) ∧
      ∀ h ∈ s.held, ∀ (c : Call α) (now : Duration), c.session? ≠ some h.id →
        names.Distinct (s.answer c now).2.opened → LeavesAlone h s (s.answer c now).2 := by
  intro s xs created completed
  have hkeeps : ∀ ops : List (Operation α),
      names.Distinct ((new settings names chances).run ops).opened →
        Accounts settings names ((new settings names chances).moves ops)
            ((new settings names chances).run ops) ∧
          Keeps names ((new settings names chances).moves ops)
            ((new settings names chances).run ops) :=
    accounts_induction (P := Keeps names) (keeps_new settings names chances)
      (fun keeps u => keeps.withTallies u)
      (fun keeps accounts hn game player => keeps.create accounts hn game player)
      (fun keeps accounts _ _ _ _ hh plays now => keeps.settled accounts hh plays now)
  obtain ⟨accounts, keeps⟩ := hkeeps ops distinct
  have hcreated : created = (List.range s.opened).map names.session :=
    openedSession_exchanges (new settings names chances) ops
  have hcompleted : completed = completions ((new settings names chances).moves ops) :=
    completedSession_exchanges (new settings names chances) ops
  refine ⟨?_, ?_, ?_, ?_⟩
  · rw [hcreated, hcompleted]
    exact retains_of_keeps keeps accounts distinct
  · intro id gone c k now hc hk
    exact answer_of_not_held gone hc hk now
  · intro id hid gone more hmore
    rw [hcreated] at hid
    have hrun : (new settings names chances).run (ops ++ more) = s.run more := run_append _ _ _
    obtain ⟨accounts', keeps'⟩ := hkeeps (ops ++ more) (hrun ▸ hmore)
    rw [hrun] at accounts' keeps'
    rw [moves_append] at keeps'
    refine keeps.find?_eq_none keeps' ?_ hid gone
    rw [accounts'.settings_eq, accounts.settings_eq]
  · intro h hh c now hc hn
    refine accounts.leavesAlone (step_after s (.call c now)) hn hh fun p now' heq => hc ?_
    obtain rfl := (Operation.call.inj heq).1
    rfl

/-- Three sessions, of which two make their only spin, where one completed session is kept: the
second completion drops the first session. -/
theorem retention_and_isolation_three :
    let settings : Settings ℚ := { Settings.standard with spinsPerSession := 1, retained := 1 }
    let create : Operation ℚ := .call (.create .nil ⟨"cautious", none⟩) .zero
    let bet (id : SessionId) : Operation ℚ :=
      .call (.play id ⟨⟨.placeBet, some ⟨5, .usd⟩⟩, 1⟩) .zero
    let spin (id : SessionId) : Operation ℚ := .call (.play id ⟨⟨.spin, none⟩, 1⟩) .zero
    let ops := [create, create, bet ⟨1⟩, create, spin ⟨1⟩, bet ⟨0⟩, spin ⟨0⟩]
    let start : State NoLuck ℚ := new settings .counting .noLuck
    let s := start.run ops
    Names.counting.Distinct s.opened ∧
      s.Retains 1 [⟨0⟩, ⟨1⟩, ⟨2⟩] [⟨1⟩, ⟨0⟩] ∧ s.held.map Held.id = [⟨0⟩, ⟨2⟩] ∧
      (s.answer (.get ⟨1⟩) .zero).1 = .error (notFound ⟨1⟩) ∧
      ((s.after create).find? ⟨1⟩).isNone = true := by
  intro settings create bet spin ops start s
  have hopened : s.opened ≤ 7 := opened_run_le start ops
  have hdistinct : Names.counting.Distinct s.opened :=
    Names.distinct_counting (hopened.trans (by decide))
  obtain ⟨hretains, hgone, hstays, -⟩ :=
    retention_and_isolation settings .counting NoLuck.noLuck ops hdistinct
  have hcreated : (start.exchanges ops).filterMap Exchange.openedSession =
      [⟨0⟩, ⟨1⟩, ⟨2⟩] := by decide +kernel
  have hcompleted : ((start.exchanges ops).filterMap Exchange.completedSession).eraseDups =
      [⟨1⟩, ⟨0⟩] := by decide +kernel
  have hfind : s.find? ⟨1⟩ = none := by
    rw [← Option.isNone_iff_eq_none]
    decide +kernel
  have hqueue : s.failures.of .get = [] := by decide +kernel
  have hget := hgone ⟨1⟩ hfind (.get ⟨1⟩) .get .zero rfl rfl
  rw [hcreated, hcompleted] at hretains
  rw [hcreated] at hstays
  refine ⟨hdistinct, hretains, by decide +kernel, ?_, ?_⟩
  · rw [hget]
    change Except.error ((s.failures.of .get).headD (notFound ⟨1⟩)) = _
    rw [hqueue]
    rfl
  · have hmore : Names.counting.Distinct (s.run [create]).opened :=
      Names.distinct_counting ((opened_run_le s [create]).trans
        ((Nat.add_le_add_right hopened 1).trans (by decide)))
    rw [Option.isNone_iff_eq_none]
    exact hstays ⟨1⟩ (by decide) hfind [create] hmore

end State

end Simulation

end Punter
