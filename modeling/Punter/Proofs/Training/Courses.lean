/-
# The episodes of a run by their numbers

An episode takes the course of a run to the next one.  So the courses of a run can be numbered
(`Trainer.courseAt`), from the one with which it begins, as if it went on for ever; a run follows
them as far as it goes (`Trainer.RunsTo`).  With this, what holds of every course is shown without
looking at the loop.

`Trainer.Yields` opens the definition of an episode once, by what became of it and of its export.
-/
import Mathlib
import Punter.Proofs.Episode.Steps
import Punter.Proofs.Files.Kept
import Punter.Training.Run

namespace Punter

variable {σ ρ φ α : Type} [Scalar α] [Service σ α] [RandomSource ρ α] [Storage φ]

omit [Scalar α] in
/-- Letting go of an error removes the file that it holds, and no other. -/
lemma TrainingError.content?_release {here : φ → Place} {content? : φ → Place → Option String}
    (atomic : Storage.Atomic here content?) (e : TrainingError α) (files : φ) (q : Place) :
    content? (e.release files) q = if e.held? = some q then none else content? files q := by
  cases e with
  | exportFailed number e => exact atomic.release e files q
  | badProfile | badPolicy | episodeFailed => rfl

/-- A summary shows the number of its episode and with what the episode was played. -/
structure Summary.Shows (number : Nat) (c : Course ρ σ φ α) (s : Summary α) : Prop where
  episode : s.episode = number
  epsilon : s.epsilon = c.policy.epsilon
  minBet : s.minBet = c.profile.minBet
  maxBet : s.maxBet = c.profile.maxBet

namespace Trainer

/-! ## One episode -/

/-- The files after an export has failed: its error is let go of, unless it ends the run. -/
def filesAfter (t : Trainer) (e : TrainingError α) (files : φ) : φ :=
  if t.settings.abortOnError then files else e.release files

/-- What an episode yields: the error for which a run may stop after it, the summary with which
it goes on, and the course after it; or else the course that an episode without end has reached. -/
inductive Yields (t : Trainer) (number : Nat) (c : Course ρ σ φ α) :
    Option (Option (TrainingError α) × Summary α) → Course ρ σ φ α → Prop
  /-- The episode goes on. -/
  | unended {random : ρ} {world : World σ α}
      (run : t.agent.runEpisode (t.games number) c.profile c.policy c.random c.world =
        (none, random, world)) :
      Yields t number c none { c with random := random, world := world }
  /-- The episode fails. -/
  | failed {e : ServiceError} {random : ρ} {world : World σ α}
      (run : t.agent.runEpisode (t.games number) c.profile c.policy c.random c.world =
        (some (.error e), random, world)) :
      Yields t number c
        (some (some (.episodeFailed number e), .failed number c.profile c.policy e.message))
        { c with random := random, world := world }
  /-- The episode is completed, but it cannot be exported. -/
  | unexported {o : EpisodeOutcome α} {random : ρ} {world : World σ α} {e : WriteError} {files : φ}
      (run : t.agent.runEpisode (t.games number) c.profile c.policy c.random c.world =
        (some (.ok o), random, world))
      (save : t.exportEpisode number o.experiences c.files = (.error e, files)) :
      Yields t number c
        (some (some (.exportFailed number e), .ofOutcome number o c.profile c.policy none
          (some (causes (TrainingError.chain (.exportFailed number e : TrainingError α))))))
        ⟨c.profile.adapt (o.experiences.map (·.reward)) t.settings.window, c.policy.decay, random,
          world, t.filesAfter (.exportFailed number e : TrainingError α) files⟩
  /-- The episode is completed and exported. -/
  | exported {o : EpisodeOutcome α} {random : ρ} {world : World σ α} {path : Option String}
      {files : φ}
      (run : t.agent.runEpisode (t.games number) c.profile c.policy c.random c.world =
        (some (.ok o), random, world))
      (save : t.exportEpisode number o.experiences c.files = (.ok path, files)) :
      Yields t number c (some (none, .ofOutcome number o c.profile c.policy path none))
        ⟨c.profile.adapt (o.experiences.map (·.reward)) t.settings.window, c.policy.decay, random,
          world, files⟩

/-- Whether a run goes on after an episode. -/
def settle (t : Trainer) (stop : Option (TrainingError α)) (s : Summary α) :
    Except (TrainingError α) (Summary α) :=
  match stop with
  | some e => if t.settings.abortOnError then .error e else .ok s
  | none => .ok s

variable {t : Trainer} {number : Nat} {c c' : Course ρ σ φ α} {stop : Option (TrainingError α)}
  {s : Summary α} {yielded : Option (Option (TrainingError α) × Summary α)}

lemma exists_yields (t : Trainer) (number : Nat) (c : Course ρ σ φ α) :
    ∃ yielded c', t.Yields number c yielded c' := by
  rcases hrun : t.agent.runEpisode (t.games number) c.profile c.policy c.random c.world with
    ⟨_ | e | o, random, world⟩
  · exact ⟨_, _, .unended hrun⟩
  · exact ⟨_, _, .failed hrun⟩
  · rcases hsave : t.exportEpisode number o.experiences c.files with ⟨e | path, files⟩
    · exact ⟨_, _, .unexported hrun hsave⟩
    · exact ⟨_, _, .exported hrun hsave⟩

lemma episode_of_yields (h : t.Yields number c yielded c') :
    t.episode number c = (yielded.map fun y => t.settle y.1 y.2, c') := by
  cases h with
  | unended run =>
    simp only [episode, run]
    rfl
  | failed run =>
    simp only [episode, run, settle, Option.map_some]
    split <;> rfl
  | unexported run save =>
    simp only [episode, run, save, settle, filesAfter, Option.map_some]
    split <;> rfl
  | exported run save => simp only [episode, run, save, settle, Option.map_some]

lemma yields_of_episode {result : Option (Except (TrainingError α) (Summary α))}
    (h : t.episode number c = (result, c')) :
    ∃ yielded, t.Yields number c yielded c' ∧
      result = yielded.map fun y => t.settle y.1 y.2 := by
  obtain ⟨yielded, c'', hyields⟩ := t.exists_yields number c
  rw [episode_of_yields hyields, Prod.mk.injEq] at h
  obtain ⟨rfl, rfl⟩ := h
  exact ⟨yielded, hyields, rfl⟩

lemma Yields.shows (h : t.Yields number c (some (stop, s)) c') : s.Shows number c := by
  cases h <;> exact ⟨rfl, rfl, rfl, rfl⟩

omit [Scalar α] in
lemma eq_of_settle {s' : Summary α} (h : t.settle stop s = .ok s') : s = s' := by
  unfold settle at h
  split at h
  · split at h
    · cases h
    · exact Except.ok.inj h
  · exact Except.ok.inj h

omit [Scalar α] in
lemma stop_eq_of_settle {e : TrainingError α} (h : t.settle stop s = .error e) :
    stop = some e ∧ t.settings.abortOnError = true := by
  unfold settle at h
  split at h
  · split at h
    · next habort => exact ⟨congrArg some (Except.error.inj h), habort⟩
    · cases h
  · cases h

/-- An episode after which a run goes on. -/
lemma yields_of_episode_ok (h : t.episode number c = (some (.ok s), c')) :
    ∃ stop, t.Yields number c (some (stop, s)) c' := by
  obtain ⟨yielded, hyields, hresult⟩ := yields_of_episode h
  obtain ⟨⟨stop, s'⟩, rfl, hsettle⟩ := Option.map_eq_some_iff.mp hresult.symm
  obtain rfl := eq_of_settle hsettle
  exact ⟨stop, hyields⟩

/-- An episode that ends a run. -/
lemma yields_of_episode_error {e : TrainingError α} (h : t.episode number c = (some (.error e), c')) :
    ∃ s, t.Yields number c (some (some e, s)) c' ∧ t.settings.abortOnError = true := by
  obtain ⟨yielded, hyields, hresult⟩ := yields_of_episode h
  obtain ⟨⟨stop, s⟩, rfl, hsettle⟩ := Option.map_eq_some_iff.mp hresult.symm
  obtain ⟨rfl, habort⟩ := stop_eq_of_settle hsettle
  exact ⟨s, hyields, habort⟩

/-- An episode leaves profile and policy as they are, or adapts the one to some rewards and lets
the other decay. -/
lemma Yields.learns (h : t.Yields number c yielded c') :
    (c'.profile = c.profile ∧ c'.policy = c.policy) ∨
      ∃ rewards, c'.profile = c.profile.adapt rewards t.settings.window ∧
        c'.policy = c.policy.decay := by
  cases h with
  | unended => exact .inl ⟨rfl, rfl⟩
  | failed => exact .inl ⟨rfl, rfl⟩
  | unexported => exact .inr ⟨_, rfl, rfl⟩
  | exported => exact .inr ⟨_, rfl, rfl⟩

/-! ## One episode after another -/

/-- The course of a run after its first `k` episodes, whatever became of them. -/
def courseAt (t : Trainer) (c : Course ρ σ φ α) : Nat → Course ρ σ φ α
  | 0 => c
  | k + 1 => (t.episode (k + 1) (t.courseAt c k)).2

lemma exists_yields_courseAt (t : Trainer) (c : Course ρ σ φ α) (k : Nat) :
    ∃ yielded, t.Yields (k + 1) (t.courseAt c k) yielded (t.courseAt c (k + 1)) := by
  obtain ⟨yielded, hyields, -⟩ := yields_of_episode
    (Prod.mk.eta : ((t.episode (k + 1) (t.courseAt c k)).1, t.courseAt c (k + 1)) = _).symm
  exact ⟨yielded, hyields⟩

/-- What holds at the beginning and is kept by every episode holds of every course. -/
theorem courseAt_induction {P : Nat → Course ρ σ φ α → Prop} (start : P 0 c)
    (episode : ∀ {k c yielded c'}, P k c → t.Yields (k + 1) c yielded c' → P (k + 1) c')
    (k : Nat) : P k (t.courseAt c k) := by
  induction k with
  | zero => exact start
  | succ k ih =>
    obtain ⟨yielded, hyields⟩ := t.exists_yields_courseAt c k
    exact episode ih hyields

/-- The first `k` episodes let a run go on. -/
def GoesOn (t : Trainer) (c : Course ρ σ φ α) (k : Nat) : Prop :=
  ∀ i < k, ∃ s, t.episode (i + 1) (t.courseAt c i) = (some (.ok s), t.courseAt c (i + 1))

/-- The episodes of which there are summaries let a run go on. -/
lemma goesOn_of_played {ss : List (Summary α)} (played : ∀ k s, ss[k]? = some s →
    t.episode (k + 1) (t.courseAt c k) = (some (.ok s), t.courseAt c (k + 1))) :
    t.GoesOn c ss.length :=
  fun i hi => ⟨_, played i _ (List.getElem?_eq_getElem hi)⟩

/-- A run goes on up to the first episode that does not let it. -/
lemma GoesOn.le {j k : Nat} {result : Option (Except (TrainingError α) (Summary α))}
    (h : t.GoesOn c k)
    (halts : t.episode (j + 1) (t.courseAt c j) = (result, t.courseAt c (j + 1)))
    (hresult : ∀ s, result ≠ some (.ok s)) : k ≤ j := by
  by_contra hlt
  obtain ⟨s, hs⟩ := h j (Nat.lt_of_not_le hlt)
  exact hresult s (congrArg Prod.fst (halts.symm.trans hs))

/-- What a run of `n` episodes comes to: a report of all of them, the error of the first one for
which it stops, or nothing if it comes to one that goes on for ever. -/
inductive RunsTo (t : Trainer) (c : Course ρ σ φ α) (n : Nat) :
    Option (Except (TrainingError α) (Report α)) × Course ρ σ φ α → Prop
  | reported {ss : List (Summary α)} (length_eq : ss.length = n)
      (played : ∀ k s, ss[k]? = some s →
        t.episode (k + 1) (t.courseAt c k) = (some (.ok s), t.courseAt c (k + 1))) :
      RunsTo t c n
        (some (.ok ⟨ss, (t.courseAt c n).profile, (t.courseAt c n).policy⟩), t.courseAt c n)
  | stopped {k : Nat} {e : TrainingError α} (lt : k < n) (before : t.GoesOn c k)
      (failed : t.episode (k + 1) (t.courseAt c k) = (some (.error e), t.courseAt c (k + 1))) :
      RunsTo t c n (some (.error e), t.courseAt c (k + 1))
  | unended {k : Nat} (lt : k < n) (before : t.GoesOn c k)
      (unended : t.episode (k + 1) (t.courseAt c k) = (none, t.courseAt c (k + 1))) :
      RunsTo t c n (none, t.courseAt c (k + 1))

/-- The courses tell what a run comes to. -/
theorem RunsTo.unique {n : Nat} {x y : Option (Except (TrainingError α) (Report α)) × Course ρ σ φ α}
    (hx : t.RunsTo c n x) (hy : t.RunsTo c n y) : x = y := by
  -- both go on up to the first episode that does not let them, and so equally far
  cases hx with
  | @reported ss length_eq played =>
    have goesOn := goesOn_of_played played
    cases hy with
    | @reported ss' length_eq' played' =>
      have hss : ss = ss' := by
        refine List.ext_getElem (length_eq.trans length_eq'.symm) fun k hk hk' => ?_
        have hok := played k ss[k] (List.getElem?_eq_getElem hk)
        rw [played' k ss'[k] (List.getElem?_eq_getElem hk')] at hok
        exact (Except.ok.inj (Option.some.inj (Prod.mk.inj hok).1)).symm
      rw [hss]
    | stopped lt before failed =>
      have hle := goesOn.le failed (by simp)
      omega
    | unended lt before unended =>
      have hle := goesOn.le unended (by simp)
      omega
  | @stopped k e lt before failed =>
    cases hy with
    | reported length_eq played =>
      have hle := (goesOn_of_played played).le failed (by simp)
      omega
    | @stopped k' e' lt' before' failed' =>
      obtain rfl : k = k' :=
        Nat.le_antisymm (before.le failed' (by simp)) (before'.le failed (by simp))
      rw [failed] at failed'
      obtain rfl := Except.error.inj (Option.some.inj (Prod.mk.inj failed').1)
      rfl
    | @unended k' lt' before' unended' =>
      obtain rfl : k = k' :=
        Nat.le_antisymm (before.le unended' (by simp)) (before'.le failed (by simp))
      rw [failed] at unended'
      cases (Prod.mk.inj unended').1
  | @unended k lt before unended =>
    cases hy with
    | reported length_eq played =>
      have hle := (goesOn_of_played played).le unended (by simp)
      omega
    | @stopped k' e' lt' before' failed' =>
      obtain rfl : k = k' :=
        Nat.le_antisymm (before.le failed' (by simp)) (before'.le unended (by simp))
      rw [unended] at failed'
      cases (Prod.mk.inj failed').1
    | @unended k' lt' before' unended' =>
      obtain rfl : k = k' :=
        Nat.le_antisymm (before.le unended' (by simp)) (before'.le unended (by simp))
      rfl

/-- A run ends with one of its courses. -/
lemma RunsTo.exists_courseAt {n : Nat}
    {result : Option (Except (TrainingError α) (Report α)) × Course ρ σ φ α}
    (h : t.RunsTo c n result) : ∃ k ≤ n, result.2 = t.courseAt c k := by
  cases h with
  | reported => exact ⟨n, Nat.le_refl n, rfl⟩
  | @stopped k e lt before failed => exact ⟨k + 1, lt, rfl⟩
  | @unended k lt before unended => exact ⟨k + 1, lt, rfl⟩

lemma RunsTo.length_eq {n : Nat} {report : Report α} {final : Course ρ σ φ α}
    (h : t.RunsTo c n (some (.ok report), final)) : report.summaries.length = n := by
  cases h with
  | reported length_eq => exact length_eq

lemma RunsTo.played {n k : Nat} {report : Report α} {final : Course ρ σ φ α}
    (h : t.RunsTo c n (some (.ok report), final)) (hs : report.summaries[k]? = some s) :
    t.episode (k + 1) (t.courseAt c k) = (some (.ok s), t.courseAt c (k + 1)) := by
  cases h with
  | reported _ played => exact played k s hs

/-- A part of a run that is reported. -/
lemma RunsTo.take {m n : Nat} {report : Report α} {final : Course ρ σ φ α}
    (h : t.RunsTo c n (some (.ok report), final)) (hm : m ≤ n) :
    t.RunsTo c m (some (.ok ⟨report.summaries.take m, (t.courseAt c m).profile,
      (t.courseAt c m).policy⟩), t.courseAt c m) := by
  cases h with
  | reported length_eq played =>
    refine .reported (by rw [List.length_take, length_eq, min_eq_left hm]) fun k s hs => ?_
    refine played k s ?_
    rw [List.getElem?_take] at hs
    split at hs
    · exact hs
    · cases hs

/-- The same trainer for another number of episodes. -/
def limited (t : Trainer) (n : Nat) : Trainer :=
  { t with settings := { t.settings with episodes := n } }

lemma episodes_limited (t : Trainer) (n left number : Nat) (c : Course ρ σ φ α) :
    (t.limited n).episodes left number c = t.episodes left number c := by
  induction left generalizing number c with
  | zero => rfl
  | succ left ih =>
    rw [episodes, episodes, show (t.limited n).episode number c = t.episode number c from rfl]
    rcases t.episode number c with ⟨_ | e | s, c'⟩
    · rfl
    · rfl
    · dsimp only
      rw [ih]

/-- The loop of one more episode, seen from its end. -/
lemma episodes_succ (t : Trainer) (n number : Nat) (c : Course ρ σ φ α) :
    t.episodes (n + 1) number c =
      match t.episodes n number c with
      | (none, c') => (none, c')
      | (some (.error e), c') => (some (.error e), c')
      | (some (.ok ss), c') =>
        match t.episode (number + n) c' with
        | (none, c'') => (none, c'')
        | (some (.error e), c'') => (some (.error e), c'')
        | (some (.ok s), c'') => (some (.ok (ss ++ [s])), c'') := by
  induction n generalizing number c with
  | zero =>
    rcases hepisode : t.episode number c with ⟨_ | e | s, c'⟩ <;>
      simp only [episodes, hepisode, Nat.add_zero, List.nil_append]
  | succ n ih =>
    rw [episodes, episodes]
    rcases t.episode number c with ⟨_ | e | s, c₁⟩
    · rfl
    · rfl
    · dsimp only
      rw [ih (number + 1) c₁, show number + (n + 1) = number + 1 + n by omega]
      rcases t.episodes n (number + 1) c₁ with ⟨_ | e | ss, c₂⟩
      · rfl
      · rfl
      · dsimp only
        rcases t.episode (number + 1 + n) c₂ with ⟨_ | e | s', c₃⟩ <;> rfl

/-- A run of one more episode. -/
lemma run_limited_succ (hprofile : c.profile.check = .ok ()) (hpolicy : c.policy.check = .ok ())
    (n : Nat) :
    (t.limited (n + 1)).run c =
      match (t.limited n).run c with
      | (none, c') => (none, c')
      | (some (.error e), c') => (some (.error e), c')
      | (some (.ok r), c') =>
        match t.episode (n + 1) c' with
        | (none, c'') => (none, c'')
        | (some (.error e), c'') => (some (.error e), c'')
        | (some (.ok s), c'') =>
          (some (.ok ⟨r.summaries ++ [s], c''.profile, c''.policy⟩), c'') := by
  simp only [run, hprofile, hpolicy, episodes_limited]
  simp only [limited, episodes_succ]
  rcases t.episodes n 1 c with ⟨_ | e | ss, c'⟩
  · rfl
  · rfl
  · dsimp only
    rw [Nat.add_comm 1 n]
    rcases t.episode (n + 1) c' with ⟨_ | e | s, c''⟩ <;> rfl

/-- A run follows the courses as far as it goes.  The induction is on the number of its episodes. -/
theorem runsTo_limited (hprofile : c.profile.check = .ok ()) (hpolicy : c.policy.check = .ok ())
    (n : Nat) : t.RunsTo c n ((t.limited n).run c) := by
  induction n with
  | zero =>
    have hrun : (t.limited 0).run c = (some (.ok ⟨[], c.profile, c.policy⟩), c) := by
      simp only [run, hprofile, hpolicy, limited, episodes]
    rw [hrun]
    exact .reported rfl (by simp)
  | succ n ih =>
    rw [run_limited_succ hprofile hpolicy]
    generalize (t.limited n).run c = result at ih
    cases ih with
    | stopped lt before failed => exact .stopped (Nat.lt_succ_of_lt lt) before failed
    | unended lt before unended => exact .unended (Nat.lt_succ_of_lt lt) before unended
    | @reported ss length_eq played =>
      have before : t.GoesOn c n := length_eq ▸ goesOn_of_played played
      have hcourse : (t.episode (n + 1) (t.courseAt c n)).2 = t.courseAt c (n + 1) := rfl
      rcases hepisode : t.episode (n + 1) (t.courseAt c n) with ⟨_ | e | s, c'⟩ <;>
        rw [hepisode] at hcourse <;> subst hcourse <;> dsimp only <;> rw [hepisode] <;> dsimp only
      · exact .unended (Nat.lt_succ_self n) before hepisode
      · exact .stopped (Nat.lt_succ_self n) before hepisode
      · refine .reported (by rw [List.length_append, length_eq]; rfl) ?_
        intro k s' hs'
        rcases Nat.lt_or_ge k ss.length with hk | hk
        · rw [List.getElem?_append_left hk] at hs'
          exact played k s' hs'
        · -- the last summary is that of the episode that was added
          rw [List.getElem?_append_right hk, List.getElem?_singleton] at hs'
          split at hs'
          · next hlast =>
            obtain rfl := Option.some.inj hs'
            obtain rfl : k = n := by omega
            exact hepisode
          · cases hs'

/-- A report shows with what each of its episodes was played, and it ends with what would come
next. -/
lemma RunsTo.shows {n : Nat} {report : Report α} {final : Course ρ σ φ α}
    (h : t.RunsTo c n (some (.ok report), final)) :
    (∀ k (s : Summary α), report.summaries[k]? = some s → s.Shows (k + 1) (t.courseAt c k)) ∧
      report.profile = (t.courseAt c n).profile ∧ report.policy = (t.courseAt c n).policy := by
  cases h with
  | reported _ played =>
    refine ⟨fun k s hs => ?_, rfl, rfl⟩
    obtain ⟨stop, hyields⟩ := yields_of_episode_ok (played k s hs)
    exact hyields.shows

theorem runsTo_run (hprofile : c.profile.check = .ok ()) (hpolicy : c.policy.check = .ok ()) :
    t.RunsTo c t.settings.episodes (t.run c) :=
  runsTo_limited hprofile hpolicy t.settings.episodes

/-! ## Runs without an end -/

variable {left n : Nat}

lemma episodes_fst_of_rest (hepisode : t.episode number c = (some (.ok s), c'))
    (hrest : (t.episodes left (number + 1) c').1 = none) :
    (t.episodes (left + 1) number c).1 = none := by
  rcases hepisodes : t.episodes left (number + 1) c' with ⟨result, last⟩
  rw [hepisodes] at hrest
  obtain rfl : result = none := hrest
  rw [episodes, hepisode]
  dsimp only
  rw [hepisodes]

lemma run_fst_of_episodes (hprofile : c.profile.check = .ok ()) (hpolicy : c.policy.check = .ok ())
    (hnone : (t.episodes t.settings.episodes 1 c).1 = none) : (t.run c).1 = none := by
  rcases hepisodes : t.episodes t.settings.episodes 1 c with ⟨result, last⟩
  rw [hepisodes] at hnone
  obtain rfl : result = none := hnone
  rw [run, hprofile, hpolicy]
  dsimp only
  rw [hepisodes]

/-! ## Runs that are followed further -/

/-- The same trainer, who follows the pages of a session further. -/
def withHorizon (t : Trainer) (horizon : Nat) : Trainer :=
  { t with agent := t.agent.withHorizon horizon }

lemma episode_withHorizon (h : (t.episode number c).1 ≠ none) (hn : t.agent.horizon ≤ n) :
    (t.withHorizon n).episode number c = t.episode number c := by
  have hended : (t.agent.runEpisode (t.games number) c.profile c.policy c.random c.world).1 ≠
      none := by
    intro hnone
    refine h ?_
    rw [episode]
    rcases hrun : t.agent.runEpisode (t.games number) c.profile c.policy c.random c.world with
      ⟨result, random, world⟩
    rw [hrun] at hnone
    obtain rfl : result = none := hnone
    rfl
  have hrun : (t.withHorizon n).agent.runEpisode ((t.withHorizon n).games number) c.profile c.policy
      c.random c.world =
        t.agent.runEpisode (t.games number) c.profile c.policy c.random c.world :=
    Agent.runEpisode_withHorizon hended hn
  rw [episode, episode, hrun]
  rfl

lemma episodes_withHorizon (h : (t.episodes left number c).1 ≠ none)
    (hn : t.agent.horizon ≤ n) :
    (t.withHorizon n).episodes left number c = t.episodes left number c := by
  induction left generalizing number c with
  | zero => rfl
  | succ left ih =>
    rcases hepisode : t.episode number c with ⟨result, c'⟩
    have hended : (t.episode number c).1 ≠ none := by
      rw [episodes, hepisode] at h
      rw [hepisode]
      rintro rfl
      exact h rfl
    rw [episodes, episodes, episode_withHorizon hended hn, hepisode]
    rcases result with _ | e | s
    · rfl
    · rfl
    · dsimp only
      rw [ih fun hrest => h (episodes_fst_of_rest hepisode hrest)]

/-- A run that comes to something comes to the same however much further pages are followed. -/
lemma run_withHorizon (h : (t.run c).1 ≠ none) (hn : t.agent.horizon ≤ n) :
    (t.withHorizon n).run c = t.run c := by
  rw [run, run]
  split
  · rfl
  · rfl
  · next hprofile hpolicy =>
    have hsame : (t.withHorizon n).episodes (t.withHorizon n).settings.episodes 1 c =
        t.episodes t.settings.episodes 1 c :=
      episodes_withHorizon (fun hnone => h (run_fst_of_episodes hprofile hpolicy hnone)) hn
    rw [hsame]

end Trainer

end Punter
