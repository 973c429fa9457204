/-
# What the simulated service keeps of its sessions

A session is where its moves lead it from its opening, and its experiences record these moves one
by one (`Leads`).  This holds for every session that is held, after any run in which no identifier
is given twice: only then do the plays that are addressed to a session tell it apart from all
others.
-/
import Mathlib
import Punter.Proofs.Simulation.Runs

namespace Punter.Simulation

variable {γ α : Type}

/-- The first `n` sessions have different identifiers. -/
def Names.Distinct (names : Names) (n : Nat) : Prop :=
  ∀ i < n, ∀ j < n, names.session i = names.session j → i = j

lemma Names.Distinct.mono {names : Names} {m n : Nat} (h : names.Distinct n) (hmn : m ≤ n) :
    names.Distinct m :=
  fun i hi j hj => h i (hi.trans_le hmn) j (hj.trans_le hmn)

/-- The next identifier is none of those before it. -/
lemma Names.Distinct.ne {names : Names} {n : Nat} (h : names.Distinct (n + 1)) {id : SessionId}
    (hid : ∃ i < n, id = names.session i) : id ≠ names.session n := by
  rintro rfl
  obtain ⟨i, hi, heq⟩ := hid
  exact hi.ne (h n (Nat.lt_succ_self n) i (Nat.lt_succ_of_lt hi) heq).symm

/-- Names that count. -/
def Names.counting : Names := ⟨fun n => ⟨.ofNat 128 n⟩, fun n => ⟨.ofNat 128 n⟩⟩

lemma Names.distinct_counting {n : Nat} (hn : n ≤ 2 ^ 128) : Names.counting.Distinct n := by
  intro i hi j hj h
  have hbits : BitVec.ofNat 128 i = BitVec.ofNat 128 j := congrArg Uuid.bits h
  rw [← BitVec.toNat_inj, BitVec.toNat_ofNat, BitVec.toNat_ofNat] at hbits
  rwa [Nat.mod_eq_of_lt (hi.trans_le hn), Nat.mod_eq_of_lt (hj.trans_le hn)] at hbits

variable [Scalar α]

/-- An experience records a move. -/
structure Move.RecordedAs (settings : Settings α) (m : Move α) (e : Experience α) : Prop where
  session : e.session = m.session
  state : e.state = m.before.snapshot
  action : e.action = (Action.codec.write m.play.action).canonicalize
  reward : e.reward = m.turn.reward settings m.play.humanLikeness
  nextState : e.nextState = m.turn.after.snapshot
  done : e.done = m.turn.after.phase.isTerminal

/-- Moves lead a session from one state to another, and leave their experiences behind: each move
starts where the one before it ended. -/
inductive Leads (γ : Type) [Chance γ α] (settings : Settings α) (start : Game α) :
    List (Move α) → List (Experience α) → Game α → Prop
  | nil : Leads γ settings start [] [] start
  | snoc {ms : List (Move α)} {es : List (Experience α)} {m : Move α} {e : Experience α} {c c' : γ}
      (before : Leads γ settings start ms es m.before)
      (plays : m.before.Plays settings m.play.action c m.turn c')
      (records : m.RecordedAs settings e) :
      Leads γ settings start (ms ++ [m]) (es ++ [e]) m.turn.after

/-- A session is where its moves lead it from its opening, with their experiences. -/
def Held.Accounted (γ : Type) [Chance γ α] (settings : Settings α) (ms : List (Move α))
    (es : List (Experience α)) (h : Held α) : Prop :=
  ∃ game player, Leads γ settings (.new settings game player) ms es h.game

namespace State

/-- An identifier under which no session is held, nothing is recorded and none was completed. -/
structure Fresh (s : State γ α) (id : SessionId) : Prop where
  held : ∀ h ∈ s.held, h.id ≠ id
  records : ∀ y ∈ s.records, y.session ≠ id
  finished : ∀ x ∈ s.finished, x ≠ id

variable [Chance γ α]

/-- The service accounts for all its sessions by the moves so far. -/
structure Accounts (settings : Settings α) (names : Names) (ms : List (Move α)) (s : State γ α) :
    Prop where
  settings_eq : s.settings = settings
  names_eq : s.names = names
  named : ∀ h ∈ s.held, ∃ i < s.opened, h.id = names.session i
  ended : ∀ x ∈ s.finished, ∃ i < s.opened, x = names.session i
  nodup : (s.held.map Held.id).Nodup
  moved : ∀ m ∈ ms, ∃ i < s.opened, m.session = names.session i
  /-- There is at most one entry for each session, and only for sessions that are held. -/
  nodup_records : (s.records.map Entry.session).Nodup
  recorded : ∀ y ∈ s.records, ∃ h ∈ s.held, h.id = y.session
  accounted : ∀ h ∈ s.held, h.Accounted γ settings (ms.filter fun m => m.session = h.id)
    (s.records.of h.id)

variable {settings : Settings α} {names : Names} {ms : List (Move α)} {s : State γ α}

lemma accounts_new (settings : Settings α) (names : Names) (chances : γ) :
    Accounts settings names [] (new settings names chances) where
  settings_eq := rfl
  names_eq := rfl
  named := by simp [new]
  ended := by simp [new]
  nodup := by simp [new]
  moved := by simp
  nodup_records := by simp [new]
  recorded := by simp [new]
  accounted := by simp [new]

/-- Sessions with one identifier are one session. -/
lemma Accounts.eq_of_id_eq (hs : Accounts settings names ms s) {x y : Held α} (hx : x ∈ s.held)
    (hy : y ∈ s.held) (h : x.id = y.id) : x = y :=
  List.inj_on_of_nodup_map hs.nodup hx hy h

lemma Accounts.find?_eq (hs : Accounts settings names ms s) {h : Held α} (hh : h ∈ s.held) :
    s.find? h.id = some h := by
  cases found : s.find? h.id with
  | none =>
    unfold find? at found
    simpa using List.find?_eq_none.mp found h hh
  | some x => rw [hs.eq_of_id_eq (mem_of_find? found) hh (id_of_find? found)]

/-- A session that is held is read as it is. -/
lemma Accounts.get_eq (hs : Accounts settings names ms s) {h : Held α} (hh : h ∈ s.held) :
    s.get h.id = .ok (h.game.observation none) := by
  simp only [get, hs.find?_eq hh]

lemma Accounts.named_of_mem_records (hs : Accounts settings names ms s) {y : Entry α}
    (hy : y ∈ s.records) : ∃ i < s.opened, y.session = names.session i := by
  obtain ⟨h, hh, heq⟩ := hs.recorded y hy
  exact heq ▸ hs.named h hh

/-- The identifier of a new session is neither known nor addressed so far. -/
lemma Accounts.fresh (hs : Accounts settings names ms s) (hn : names.Distinct (s.opened + 1)) :
    s.Fresh (names.session s.opened) ∧ ∀ m ∈ ms, m.session ≠ names.session s.opened :=
  ⟨⟨fun h hh => hn.ne (hs.named h hh), fun _ hy => hn.ne (hs.named_of_mem_records hy),
      fun x hx => hn.ne (hs.ended x hx)⟩,
    fun m hm => hn.ne (hs.moved m hm)⟩

lemma Accounts.withTallies (hs : Accounts settings names ms s) (u : State γ α) :
    Accounts settings names ms (s.withTallies u) :=
  ⟨hs.settings_eq, hs.names_eq, hs.named, hs.ended, hs.nodup, hs.moved, hs.nodup_records,
    hs.recorded, hs.accounted⟩

omit [Chance γ α] in
/-- Opening a session under a new identifier replaces no other one. -/
lemma Fresh.held_create (hs : s.Fresh (s.names.session s.opened)) (game : GameId)
    (player : Player α) :
    (s.create game player).2.held =
      s.held ++ [⟨s.names.session s.opened, .new s.settings game player⟩] := by
  simp only [State.create]
  rw [List.filter_eq_self.mpr fun h hh => decide_eq_true (hs.held h hh)]

lemma Accounts.create (hs : Accounts settings names ms s) (hn : names.Distinct (s.opened + 1))
    (game : GameId) (player : Player α) :
    Accounts settings names ms (s.create game player).2 := by
  obtain ⟨hfresh, hmoves⟩ := hs.fresh hn
  have hopened : (s.create game player).2.held =
      s.held ++ [⟨names.session s.opened, .new settings game player⟩] := by
    rw [← hs.names_eq] at hfresh
    rw [hfresh.held_create, hs.settings_eq, hs.names_eq]
  refine ⟨hs.settings_eq, hs.names_eq, ?_, ?_, ?_, ?_, hs.nodup_records, ?_, ?_⟩
  · intro x hx
    rw [hopened] at hx
    rcases List.mem_append.mp hx with hx | hx
    · obtain ⟨i, hi, heq⟩ := hs.named x hx
      exact ⟨i, Nat.lt_succ_of_lt hi, heq⟩
    · rw [List.mem_singleton.mp hx]
      exact ⟨s.opened, Nat.lt_succ_self _, rfl⟩
  · intro x hx
    obtain ⟨i, hi, heq⟩ := hs.ended x hx
    exact ⟨i, Nat.lt_succ_of_lt hi, heq⟩
  · rw [hopened, List.map_append, List.nodup_append]
    refine ⟨hs.nodup, by simp, ?_⟩
    intro a ha b hb
    obtain ⟨x, hx, rfl⟩ := List.mem_map.mp ha
    rw [List.mem_singleton.mp hb]
    exact hfresh.held x hx
  · intro m hm
    obtain ⟨i, hi, heq⟩ := hs.moved m hm
    exact ⟨i, Nat.lt_succ_of_lt hi, heq⟩
  · intro y hy
    obtain ⟨h, hh, heq⟩ := hs.recorded y hy
    rw [hopened]
    exact ⟨h, List.mem_append_left _ hh, heq⟩
  · intro x hx
    rw [hopened] at hx
    rcases List.mem_append.mp hx with hx | hx
    · exact hs.accounted x hx
    · -- no play was addressed to the session before it was opened, and nothing was recorded for it
      have hnone : (ms.filter fun m => m.session = names.session s.opened) = [] := by
        simpa [List.filter_eq_nil_iff] using hmoves
      have hempty : (s.create game player).2.records.of (names.session s.opened) = [] :=
        Log.of_eq_nil hfresh.records
      rw [List.mem_singleton.mp hx, hnone, hempty]
      exact ⟨game, player, .nil⟩

omit [Chance γ α] in
lemma recordedAs_record (s : State γ α) (now : Duration) (h : Held α) (p : Play α) (t : Turn α) :
    Move.RecordedAs s.settings ⟨h.id, p, h.game, t⟩ (s.record now h p t) :=
  ⟨rfl, rfl, rfl, rfl, rfl, rfl⟩

/-- After a turn the session that has made it is in its new state, and all others are as before. -/
lemma Accounts.mem_settled (hs : Accounts settings names ms s) {h x : Held α} {now : Duration}
    {p : Play α} {t : Turn α} {c : γ} (hx : x ∈ (s.settled now h p t c).held) :
    (x ∈ s.held ∧ x.id ≠ h.id) ∨ x = ⟨h.id, t.after⟩ :=
  Held.mem_put_of_nodup hs.nodup (settled_held_sublist.subset hx)

/-- An experience is recorded for a session that is held, and when the session is dropped its
experiences are dropped with it. -/
lemma Accounts.recorded_settled (hs : Accounts settings names ms s) {h : Held α} (hh : h ∈ s.held)
    (now : Duration) (p : Play α) (t : Turn α) (c : γ) :
    ((s.settled now h p t c).records.map Entry.session).Nodup ∧
      ∀ y ∈ (s.settled now h p t c).records,
        ∃ x ∈ (s.settled now h p t c).held, x.id = y.session := by
  have hnodup : ((s.turned now h p t c).records.map Entry.session).Nodup :=
    Log.nodup_push hs.nodup_records
  have hheld : ∀ y ∈ (s.turned now h p t c).records,
      y.session ∈ (s.turned now h p t c).held.map Held.id := by
    intro y hy
    have hids : (s.turned now h p t c).held.map Held.id = s.held.map Held.id := Held.ids_put _ _ _
    rw [hids]
    rcases Log.mem_sessions_push (List.mem_map_of_mem hy) with hy | hy
    · obtain ⟨z, hz, hzy⟩ := List.mem_map.mp hy
      obtain ⟨x, hx, hid⟩ := hs.recorded z hz
      exact List.mem_map.mpr ⟨x, hx, hid.trans hzy⟩
    · rw [hy]
      exact List.mem_map_of_mem hh
  unfold State.settled
  split
  · refine ⟨(List.filter_sublist.map _).nodup hnodup, fun y hy => ?_⟩
    obtain ⟨hy, hkept⟩ := Log.mem_drop.mp hy
    obtain ⟨x, hx, hid⟩ := List.mem_map.mp (hheld y hy)
    exact ⟨x, mem_held_retire.mpr ⟨hx, hid ▸ hkept⟩, hid⟩
  · exact ⟨hnodup, fun y hy => List.mem_map.mp (hheld y hy)⟩

lemma Accounts.settled (hs : Accounts settings names ms s) {h : Held α} {p : Play α} {t : Turn α}
    {c : γ} (hh : h ∈ s.held) (plays : h.game.Plays settings p.action s.chances t c)
    (now : Duration) :
    Accounts settings names (ms ++ [⟨h.id, p, h.game, t⟩]) (s.settled now h p t c) := by
  obtain ⟨hnodup, hrecorded⟩ := hs.recorded_settled hh now p t c
  refine ⟨settled_settings.trans hs.settings_eq, settled_names.trans hs.names_eq,
    ?_, ?_, ?_, ?_, hnodup, hrecorded, ?_⟩
  · intro x hx
    rw [settled_opened]
    rcases hs.mem_settled hx with ⟨hx, -⟩ | rfl
    · exact hs.named x hx
    · exact hs.named h hh
  · intro x hx
    rw [settled_opened]
    rcases mem_finished_settled hx with hx | rfl
    · exact hs.ended x hx
    · exact hs.named h hh
  · refine (settled_held_sublist.map Held.id).nodup ?_
    exact (Held.ids_put _ _ _).symm ▸ hs.nodup
  · intro m hm
    rw [settled_opened]
    rcases List.mem_append.mp hm with hm | hm
    · exact hs.moved m hm
    · rw [List.mem_singleton.mp hm]
      exact hs.named h hh
  · intro x hx
    rw [of_records_settled hx]
    rcases hs.mem_settled hx with ⟨hx, hne⟩ | rfl
    · simp only [hne, if_false, List.filter_append, List.filter_cons, List.filter_nil,
        List.append_nil, Ne.symm hne, decide_false, Bool.false_eq_true]
      exact hs.accounted x hx
    · simp only [if_true, List.filter_append, List.filter_cons, List.filter_nil, decide_true]
      obtain ⟨game, player, hleads⟩ := hs.accounted h hh
      have hrecorded := recordedAs_record s now h p t
      rw [hs.settings_eq] at hrecorded
      exact ⟨game, player, hleads.snoc plays hrecorded⟩

/-- After a run in which no identifier was given twice the service accounts for all its sessions.
Whatever else holds at first and is kept by openings and turns while it does so holds as well. -/
theorem accounts_induction {settings : Settings α} {names : Names} {chances : γ}
    {P : List (Move α) → State γ α → Prop} (start : P [] (new settings names chances))
    (withTallies : ∀ {ms s}, P ms s → ∀ u, P ms (s.withTallies u))
    (create : ∀ {ms s}, P ms s → Accounts settings names ms s → names.Distinct (s.opened + 1) →
      ∀ game player, P ms (s.create game player).2)
    (settled : ∀ {ms s}, P ms s → Accounts settings names ms s →
      ∀ {h : Held α} {p : Play α} {t : Turn α} {c : γ}, h ∈ s.held →
        h.game.Plays settings p.action s.chances t c →
          ∀ now, P (ms ++ [⟨h.id, p, h.game, t⟩]) (s.settled now h p t c))
    (ops : List (Operation α))
    (distinct : names.Distinct ((new settings names chances).run ops).opened) :
    Accounts settings names ((new settings names chances).moves ops)
        ((new settings names chances).run ops) ∧
      P ((new settings names chances).moves ops) ((new settings names chances).run ops) := by
  refine run_induction
    (P := fun ms (s : State γ α) =>
      names.Distinct s.opened → Accounts settings names ms s ∧ P ms s)
    ?_ ops [] (fun _ => ⟨accounts_new settings names chances, start⟩) distinct
  intro ms s op m s' hs hstep hn
  cases hstep with
  | quiet u =>
    obtain ⟨accounts, hP⟩ := hs hn
    rw [Option.toList_none, List.append_nil]
    exact ⟨accounts.withTallies u, withTallies hP u⟩
  | opened u =>
    obtain ⟨accounts, hP⟩ := hs (hn.mono (Nat.le_succ _))
    rw [Option.toList_none, List.append_nil]
    exact ⟨(accounts.create hn _ _).withTallies u, withTallies (create hP accounts hn _ _) u⟩
  | played found plays u =>
    obtain ⟨accounts, hP⟩ := hs (settled_opened (s := s) ▸ hn)
    obtain rfl := id_of_find? found
    rw [accounts.settings_eq] at plays
    have hh := mem_of_find? found
    exact ⟨(accounts.settled hh plays _).withTallies u,
      withTallies (settled hP accounts hh plays _) u⟩

theorem accounts_run (settings : Settings α) (names : Names) (chances : γ)
    (ops : List (Operation α))
    (distinct : names.Distinct ((new settings names chances).run ops).opened) :
    Accounts settings names ((new settings names chances).moves ops)
      ((new settings names chances).run ops) :=
  (accounts_induction (P := fun _ _ => True) trivial (fun _ _ => trivial)
    (fun _ _ _ _ _ => trivial) (fun _ _ _ _ _ _ _ _ _ => trivial) ops distinct).1

/-- A state to which some run leads. -/
def Reachable (s : State γ α) : Prop :=
  ∃ settings names chances ops, s = (new settings names chances).run ops

lemma names_run (s : State γ α) (ops : List (Operation α)) : (s.run ops).names = s.names := by
  refine run_induction (P := fun _ (s' : State γ α) => s'.names = s.names) ?_ ops [] rfl
  intro _ _ _ _ _ hs hstep
  cases hstep with
  | quiet u => exact hs
  | opened u => exact hs
  | played _ _ u => exact settled_names.trans hs

/-- The identifier that is given next is fresh.  It may also come from other names, if these have
given the same identifiers so far. -/
theorem Reachable.fresh (hs : s.Reachable) {names : Names}
    (agree : ∀ i < s.opened, names.session i = s.names.session i)
    (distinct : names.Distinct (s.opened + 1)) : s.Fresh (names.session s.opened) := by
  obtain ⟨settings, names₀, chances, ops, rfl⟩ := hs
  rw [names_run] at agree
  have distinct₀ : names₀.Distinct ((new settings names₀ chances).run ops).opened := by
    intro i hi j hj h
    refine distinct.mono (Nat.le_succ _) i hi j hj ?_
    rw [agree i hi, agree j hj]
    exact h
  have haccounts := accounts_run settings names₀ chances ops distinct₀
  -- what was given out so far bears the same names in both
  have hagree : ∀ {id : SessionId}, (∃ i < _, id = names₀.session i) →
      ∃ i < _, id = names.session i :=
    fun ⟨i, hi, hid⟩ => ⟨i, hi, hid.trans (agree i hi).symm⟩
  exact ⟨fun h hh => distinct.ne (hagree (haccounts.named h hh)),
    fun y hy => distinct.ne (hagree (haccounts.named_of_mem_records hy)),
    fun x hx => distinct.ne (hagree (haccounts.ended x hx))⟩

end State

end Punter.Simulation
