/-
# The spins of the simulated service

Only an accepted spin asks the source of chances.  The source that a spin finds is therefore the
one with which the service was set up, after as many spins as were made before, no matter in which
sessions they were made, for which stakes, and what else was called in between.  So what a spin
shows and how often it pays its stake is known from its rank alone (`Spin.ofRank`).
-/
import Mathlib
import Punter.Proofs.Simulation.Records

namespace Punter.Simulation

namespace Spin

variable {γ α : Type} [Scalar α] [Chance γ α]

/-- The source of chances after a number of spins. -/
def chancesAfter (probability : α) (chances : γ) : Nat → γ
  | 0 => chances
  | n + 1 => (draw probability (chancesAfter probability chances n)).2

/-- The spin that is made after a number of other spins. -/
def ofRank (probability : α) (chances : γ) (rank : Nat) : Spin α :=
  (draw probability (chancesAfter probability chances rank)).1

omit [Chance γ α] in
/-- What a spin can be: it shows three symbols, and they are the same where it wins. -/
structure Possible (s : Spin α) : Prop where
  length_symbols : s.symbols.length = 3
  mem_symbols : ∀ x ∈ s.symbols, x ∈ Simulation.symbols
  wins : ∀ k, s.multiplier = some k → k ∈ multipliers ∧ ∃ x, s.symbols = [x, x, x]

omit [Scalar α] in
lemma symbol_mem (c : γ) : (symbol α c).1 ∈ Simulation.symbols := Vector.getElem_mem _

lemma possible_draw (probability : α) (c : γ) : (draw probability c).1.Possible := by
  unfold draw
  dsimp only
  split
  · -- a win shows one symbol three times
    refine ⟨rfl, ?_, ?_⟩
    · intro x hx
      simp only [List.mem_cons, List.not_mem_nil, or_false, or_self] at hx
      rw [hx]
      exact symbol_mem _
    · intro k hk
      obtain rfl := Option.some.inj hk
      exact ⟨Vector.getElem_mem _, _, rfl⟩
  · -- otherwise each reel stops on its own
    refine ⟨rfl, ?_, ?_⟩
    · intro x hx
      simp only [List.mem_cons, List.not_mem_nil, or_false] at hx
      rcases hx with rfl | rfl | rfl <;> exact symbol_mem _
    · rintro k ⟨⟩

end Spin

/-- A move spins the reels and is answered with what a spin shows.  It pays for its own stake, and
as many times as the spin says. -/
structure Move.Shows {α : Type} [Scalar α] (m : Move α) (s : Spin α) : Prop where
  isSpin : m.isSpin = true
  paid : m.turn.payout = s.payout m.turn.stake
  answered : ∃ currency, m.before.pending = some ⟨m.turn.stake, currency⟩ ∧
    m.observation.lastResult = some ⟨some ⟨m.turn.payout, currency⟩, s.symbols⟩

/-- Chances for which it only matters how many were asked for before. -/
structure Wheel where
  turns : Nat

instance {α : Type} : Chance Wheel α where
  happens _ c := (c.turns % 3 ≠ 0, ⟨c.turns + 1⟩)
  pick n h c := (⟨c.turns % n, Nat.mod_lt _ h⟩, ⟨c.turns + 1⟩)

namespace State

variable {γ α : Type} [Scalar α] [Chance γ α]

/-- The moves of a run that spin the reels, in whichever sessions they do. -/
def spins (s : State γ α) (ops : List (Operation α)) : List (Move α) :=
  (s.moves ops).filter Move.isSpin

omit [Chance γ α] in
@[simp] lemma settled_chances {s : State γ α} {now : Duration} {h : Held α} {p : Play α}
    {t : Turn α} {c : γ} : (s.settled now h p t c).chances = c := by
  unfold settled
  split <;> rfl

/-- A turn that asks the source of chances is a spin and shows what it was told. -/
lemma shows_or_rests (id : SessionId) {settings : Settings α} {g : Game α} {p : Play α}
    {t : Turn α} {c c' : γ} (h : g.Plays settings p.action c t c') :
    let m : Move α := ⟨id, p, g, t⟩
    m.Shows (Spin.draw settings.winProbability c).1 ∧
        c' = (Spin.draw settings.winProbability c).2 ∨
      m.isSpin = false ∧ c' = c := by
  intro m
  cases h with
  | spin kind phase pending =>
    left
    exact ⟨⟨by simp [m, Move.isSpin, kind, phase], rfl, _, pending, rfl⟩, rfl⟩
  | bet kind _ _ =>
    right
    exact ⟨by simp [m, Move.isSpin, kind], rfl⟩
  | cashOut kind _ =>
    right
    exact ⟨by simp [m, Move.isSpin, kind], rfl⟩
  | idle _ misfit =>
    right
    refine ⟨?_, rfl⟩
    -- a spin in the playing phase would fit
    rw [← Bool.not_eq_true]
    intro hspin
    obtain ⟨hphase, hkind⟩ : g.phase = .playing ∧ p.action.kind = .spin := by
      simpa [m, Move.isSpin] using hspin
    simp [fits, hphase, hkind] at misfit

/-- An operation makes one spin, for which it asks the source of chances, or it leaves the source
alone. -/
theorem spins_or_rests_of_step {s s' : State γ α} {op : Operation α} {m : Option (Move α)}
    (h : Step s op m s') :
    (∃ x, m = some x ∧ x.Shows (Spin.draw s.settings.winProbability s.chances).1 ∧
        s'.chances = (Spin.draw s.settings.winProbability s.chances).2) ∨
      m.any Move.isSpin = false ∧ s'.chances = s.chances := by
  cases h with
  | quiet u => exact Or.inr ⟨rfl, rfl⟩
  | opened u => exact Or.inr ⟨rfl, rfl⟩
  | @played id p now held t c found plays u =>
    have hc : ((s.settled now held p t c).withTallies u).chances = c := settled_chances
    rw [hc]
    rcases shows_or_rests id plays with ⟨hshows, hnext⟩ | hrests
    · exact Or.inl ⟨_, rfl, hshows, hnext⟩
    · exact Or.inr hrests

lemma settings_of_step {s s' : State γ α} {op : Operation α} {m : Option (Move α)}
    (h : Step s op m s') : s'.settings = s.settings := by
  cases h with
  | quiet u => rfl
  | opened u => rfl
  | played _ _ u => exact settled_settings

/-- Where a run of a service stands: its source of chances has served the spins so far, each of
which has shown the spin of its rank. -/
structure Served (settings : Settings α) (chances : γ) (ms : List (Move α)) (s : State γ α) :
    Prop where
  settings_eq : s.settings = settings
  chances_eq : s.chances =
    Spin.chancesAfter settings.winProbability chances (ms.filter Move.isSpin).length
  shows : ∀ (rank : Nat) (m : Move α), (ms.filter Move.isSpin)[rank]? = some m →
    m.Shows (Spin.ofRank settings.winProbability chances rank)

lemma served_step {settings : Settings α} {chances : γ} {ms : List (Move α)} {s s' : State γ α}
    {op : Operation α} {m : Option (Move α)} (hs : Served settings chances ms s)
    (hstep : Step s op m s') : Served settings chances (ms ++ m.toList) s' := by
  obtain ⟨rfl, hchances, hshows⟩ := hs
  have hsettings : s'.settings = s.settings := settings_of_step hstep
  rcases spins_or_rests_of_step hstep with ⟨x, rfl, hx, hnext⟩ | ⟨hno, hsame⟩
  · -- the spin comes after those that were made before
    have hfilter : (ms ++ [x]).filter Move.isSpin = ms.filter Move.isSpin ++ [x] := by
      rw [List.filter_append, List.filter_cons_of_pos hx.isSpin, List.filter_nil]
    refine ⟨hsettings, ?_, ?_⟩
    · rw [hnext, hchances, Option.toList_some, hfilter, List.length_append]
      rfl
    · intro rank m hm
      rw [Option.toList_some, hfilter, List.getElem?_append] at hm
      split at hm
      · exact hshows rank m hm
      · next hrank =>
        rw [List.getElem?_singleton, Option.ite_none_right_eq_some] at hm
        obtain ⟨hzero, hx'⟩ := hm
        obtain rfl := Option.some.inj hx'
        obtain rfl : rank = (ms.filter Move.isSpin).length := by omega
        rw [Spin.ofRank, ← hchances]
        exact hx
  · have hfilter : (ms ++ m.toList).filter Move.isSpin = ms.filter Move.isSpin := by
      cases m with
      | none => rw [Option.toList_none, List.append_nil]
      | some x =>
        rw [Option.any_some] at hno
        rw [List.filter_append, Option.toList_some, List.filter_cons_of_neg (by simp [hno]),
          List.filter_nil, List.append_nil]
    refine ⟨hsettings, ?_, ?_⟩
    · rw [hsame, hfilter]
      exact hchances
    · rw [hfilter]
      exact hshows

/-- Every spin of a run shows the spin of its rank. -/
theorem served_run (settings : Settings α) (names : Names) (chances : γ)
    (ops : List (Operation α)) :
    Served settings chances ((new settings names chances : State γ α).moves ops)
      ((new settings names chances : State γ α).run ops) :=
  run_induction (P := Served settings chances) served_step ops [] ⟨rfl, rfl, by simp⟩

/-- **Spins depend on their rank alone.**  Take two services that were set up with the same source
of chances and the same probability of a win, and otherwise as one likes, and any run of each.
Spins of the same rank, counted over all sessions, are the same: both win or neither does, they
show the same symbols, and they pay the same multiple of their own stakes.  After as many spins the
sources of chances are the same, since an operation that makes no spin leaves the source alone. -/
theorem spins_by_rank {settings settings' : Settings α}
    (same : settings.winProbability = settings'.winProbability) (names names' : Names)
    (chances : γ) (ops ops' : List (Operation α)) :
    let first : State γ α := new settings names chances
    let first' : State γ α := new settings' names' chances
    (∀ (rank : Nat) (m m' : Move α),
        (first.spins ops)[rank]? = some m → (first'.spins ops')[rank]? = some m' →
          let spin := Spin.ofRank settings.winProbability chances rank
          spin.Possible ∧ m.Shows spin ∧ m'.Shows spin) ∧
      ((first.spins ops).length = (first'.spins ops').length →
        (first.run ops).chances = (first'.run ops').chances) ∧
      ∀ op, ((first.run ops).move? op).any Move.isSpin = false →
        ((first.run ops).after op).chances = (first.run ops).chances := by
  intro first first'
  have hserved : Served settings chances (first.moves ops) (first.run ops) :=
    served_run settings names chances ops
  have hserved' : Served settings' chances (first'.moves ops') (first'.run ops') :=
    served_run settings' names' chances ops'
  refine ⟨?_, ?_, ?_⟩
  · intro rank m m' hm hm' spin
    refine ⟨Spin.possible_draw _ _, hserved.shows rank m hm, ?_⟩
    have hshows := hserved'.shows rank m' hm'
    rwa [← same] at hshows
  · intro hlength
    rw [hserved.chances_eq, hserved'.chances_eq, ← same]
    exact congrArg (Spin.chancesAfter settings.winProbability chances) hlength
  · intro op hno
    rcases spins_or_rests_of_step (step_after (first.run ops) op) with ⟨x, hx, hshows, -⟩ | h
    · rw [hx, Option.any_some, hshows.isSpin] at hno
      simp at hno
    · exact h.2

/-- One session that spins twice, and two others that spin once each, for other stakes, with other
settings, and with calls in between that are refused or have no effect.  The second spin wins. -/
theorem spins_by_rank_two :
    let create : Operation ℚ := .call (.create .nil ⟨"cautious", none⟩) .zero
    let play (id : Nat) (kind : ActionKind) (stake : Option ℚ) : Operation ℚ :=
      .call (.play ⟨id⟩ ⟨⟨kind, stake.map (⟨·, .usd⟩)⟩, 1⟩) .zero
    let ops := [create, play 0 .placeBet (some 5), play 0 .spin none, play 0 .placeBet (some 5),
      play 0 .spin none]
    let ops' := [create, play 0 .spin none, create, play 1 .placeBet (some 2),
      .inject .play [.transport "reset"], play 1 .spin none, play 1 .spin none,
      play 0 .placeBet (some 30), play 0 .placeBet (some 3), play 0 .spin none]
    let settings : Settings ℚ := .standard
    let settings' : Settings ℚ := { settings with rejectInvalid := true, startingBalance := 9 }
    let first : State Wheel ℚ := new settings .counting ⟨0⟩
    let first' : State Wheel ℚ := new settings' .counting ⟨0⟩
    settings.winProbability = settings'.winProbability ∧
      ∃ m m' : Move ℚ, (first.spins ops)[1]? = some m ∧ (first'.spins ops')[1]? = some m' ∧
        (m.turn.stake, m.turn.payout) = (5, 15 / 2) ∧
        (m'.turn.stake, m'.turn.payout) = (3, 9 / 2) ∧ ∃ spin, m.Shows spin ∧ m'.Shows spin := by
  intro create play ops ops' settings settings' first first'
  have hpaid : (first.spins ops)[1]?.map (fun m => (m.turn.stake, m.turn.payout)) =
      some (5, 15 / 2) := by decide +kernel
  have hpaid' : (first'.spins ops')[1]?.map (fun m => (m.turn.stake, m.turn.payout)) =
      some (3, 9 / 2) := by decide +kernel
  obtain ⟨m, hm, hm₁⟩ := Option.map_eq_some_iff.mp hpaid
  obtain ⟨m', hm', hm₁'⟩ := Option.map_eq_some_iff.mp hpaid'
  have hsame : settings.winProbability = settings'.winProbability := rfl
  obtain ⟨hspins, -⟩ := spins_by_rank hsame .counting .counting (⟨0⟩ : Wheel) ops ops'
  obtain ⟨-, hshows, hshows'⟩ := hspins 1 m m' hm hm'
  exact ⟨hsame, m, m', hm, hm', hm₁, hm₁', _, hshows, hshows'⟩

end State

end Punter.Simulation
