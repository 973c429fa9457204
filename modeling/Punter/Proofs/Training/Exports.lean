/-
# What a run leaves in its files

A run writes one file for each episode that succeeds with experiences, as far as the storage lets
it, and no other (`Trainer.Saves`).  Since these files have different places, what was written for
one episode is still there when the run is over, whatever became of the episodes and the exports
after it.

An error for which a run stops may hold a file that could not be moved into place.  So the files are
looked at as they are when the result of the run has been let go of (`Trainer.filesLeft`).

This is shown of all storages in which replacing a file is all or nothing; file trees are of this
kind.
-/
import Mathlib
import Punter.Proofs.Files.Kept
import Punter.Proofs.Training.Courses

namespace Punter.Trainer

variable {σ ρ φ α : Type} [Scalar α] [Service σ α] [RandomSource ρ α] [Storage φ]

/-! ## One episode -/

/-- The episode after the first `k` ones succeeds with the experiences `es`, and there is at least
one of them. -/
def Gathers (t : Trainer) (c : Course ρ σ φ α) (k : ℕ) (es : List (Experience α)) : Prop :=
  es ≠ [] ∧ ∃ o random world,
    t.agent.runEpisode (t.games (k + 1)) (t.courseAt c k).profile (t.courseAt c k).policy
      (t.courseAt c k).random (t.courseAt c k).world = (some (.ok o), random, world) ∧
    o.experiences = es

/-- The path to which an export of the episode after the first `k` ones goes. -/
def exportPath (t : Trainer) (k : ℕ) : String := Path.ofEpisode t.settings.outputDir (k + 1)

/-- What an episode does to the files, when its error has been let go of if it has one, and the path
that its summary shows. -/
inductive Saves (t : Trainer) (c : Course ρ σ φ α) (k : ℕ) (files : φ) : Option String → φ → Prop
  /-- There is nothing to export. -/
  | nothing : Saves t c k files none files
  /-- The export fails. -/
  | lost {es : List (Experience α)} {e : WriteError} {files' : φ} (gathers : t.Gathers c k es)
      (replace : Storage.replace (t.exportPath k) (Experience.lines es) files =
        (.error e, files')) : Saves t c k files none (Storage.release e files')
  /-- The experiences are exported. -/
  | saved {es : List (Experience α)} {files' : φ} (gathers : t.Gathers c k es)
      (replace : Storage.replace (t.exportPath k) (Experience.lines es) files =
        (.ok (), files')) : Saves t c k files (some (t.exportPath k)) files'

variable {t : Trainer} {c c' : Course ρ σ φ α} {k m : ℕ} {stop : Option (TrainingError α)}
  {s : Summary α} {yielded : Option (Option (TrainingError α) × Summary α)}

omit [Service σ α] [RandomSource ρ α] in
lemma exportEpisode_of_ne_nil (t : Trainer) {es : List (Experience α)} (h : es ≠ []) (files : φ) :
    t.exportEpisode (k + 1) es files =
      ((Storage.replace (t.exportPath k) (Experience.lines es) files).1.map
          fun _ => some (t.exportPath k),
        (Storage.replace (t.exportPath k) (Experience.lines es) files).2) := by
  have hne : es.isEmpty = false := by simpa using h
  simp only [exportEpisode, hne, Experience.save, exportPath, Bool.false_eq_true, if_false]
  rcases Storage.replace (Path.ofEpisode t.settings.outputDir (k + 1)) (Experience.lines es) files
    with ⟨e | u, files'⟩ <;> rfl

/-- The files after an error that has been let go of, if the run does not stop for it. -/
def released (t : Trainer) (stop : Option (TrainingError α)) (files : φ) : φ :=
  match stop with
  | some e => if t.settings.abortOnError then e.release files else files
  | none => files

lemma Yields.saves (h : t.Yields (k + 1) (t.courseAt c k) (some (stop, s)) c') :
    t.Saves c k (t.courseAt c k).files s.exportPath (t.released stop c'.files) := by
  cases h with
  | @failed e random world run =>
    have hreleased : t.released (some (.episodeFailed (k + 1) e : TrainingError α))
        (t.courseAt c k).files = (t.courseAt c k).files := by
      simp only [released]
      split <;> rfl
    rw [hreleased]
    exact .nothing
  | @unexported o random world e files run save =>
    have hreleased : t.released (some (.exportFailed (k + 1) e : TrainingError α))
        (t.filesAfter (.exportFailed (k + 1) e : TrainingError α) files) =
          Storage.release e files := by
      simp only [released, filesAfter]
      split <;> rfl
    rw [hreleased]
    by_cases hnil : o.experiences = []
    · simp [exportEpisode, hnil] at save
    · rw [exportEpisode_of_ne_nil t hnil] at save
      rcases hreplace : Storage.replace (t.exportPath k) (Experience.lines o.experiences)
        (t.courseAt c k).files with ⟨e' | u, files'⟩ <;> rw [hreplace] at save
      · obtain ⟨herror, rfl⟩ := Prod.mk.inj save
        obtain rfl := Except.error.inj herror
        exact .lost ⟨hnil, _, _, _, run, rfl⟩ hreplace
      · cases save
  | @exported o random world path files run save =>
    show t.Saves c k _ path files
    by_cases hnil : o.experiences = []
    · rw [exportEpisode, hnil] at save
      obtain ⟨hpath, rfl⟩ := Prod.mk.inj save
      obtain rfl := Except.ok.inj hpath
      exact .nothing
    · rw [exportEpisode_of_ne_nil t hnil] at save
      rcases hreplace : Storage.replace (t.exportPath k) (Experience.lines o.experiences)
        (t.courseAt c k).files with ⟨e' | u, files'⟩ <;> rw [hreplace] at save
      · cases save
      · obtain ⟨hpath, rfl⟩ := Prod.mk.inj save
        obtain rfl := Except.ok.inj hpath
        exact .saved ⟨hnil, _, _, _, run, rfl⟩ hreplace

/-- An episode after which a run goes on. -/
lemma saves_of_episode_ok
    (h : t.episode (k + 1) (t.courseAt c k) = (some (.ok s), t.courseAt c (k + 1))) :
    t.Saves c k (t.courseAt c k).files s.exportPath (t.courseAt c (k + 1)).files := by
  obtain ⟨stop, hyields⟩ := yields_of_episode_ok h
  have hsaves := hyields.saves
  cases stop with
  | none => exact hsaves
  | some e =>
    have hcontinues : t.settings.abortOnError = false := by
      rw [episode_of_yields hyields] at h
      by_contra habort
      simp [settle, habort] at h
    simpa only [released, hcontinues, Bool.false_eq_true, if_false] using hsaves

/-- The episode that ends a run. -/
lemma saves_of_episode_error {e : TrainingError α}
    (h : t.episode (k + 1) (t.courseAt c k) = (some (.error e), t.courseAt c (k + 1))) :
    ∃ path, t.Saves c k (t.courseAt c k).files path (e.release (t.courseAt c (k + 1)).files) := by
  obtain ⟨s, hyields, habort⟩ := yields_of_episode_error h
  have hsaves := hyields.saves
  simp only [released, habort, if_true] at hsaves
  exact ⟨_, hsaves⟩

lemma files_of_episode_none
    (h : t.episode (k + 1) (t.courseAt c k) = (none, t.courseAt c (k + 1))) :
    (t.courseAt c (k + 1)).files = (t.courseAt c k).files := by
  obtain ⟨yielded, hyields, hresult⟩ := yields_of_episode h
  obtain rfl : yielded = none := Option.map_eq_none_iff.mp hresult.symm
  generalize t.courseAt c (k + 1) = next at hyields
  cases hyields with
  | unended run => rfl

/-! ## One episode after another -/

/-- The files after exports to the paths of their episodes, whether or not these succeed. -/
def written (t : Trainer) (files : φ) (exports : List (ℕ × List (Experience α))) : φ :=
  exports.foldl (fun files x =>
    match Storage.replace (t.exportPath x.1) (Experience.lines x.2) files with
    | (.ok (), files) => files
    | (.error e, files) => Storage.release e files) files

/-- The files `files k` before the episode after the first `k` ones, and at last after `m` of them. -/
structure Leaves (t : Trainer) (c : Course ρ σ φ α) (m : ℕ) (files : ℕ → φ) : Prop where
  start : files 0 = c.files
  saves : ∀ k < m, ∃ path, t.Saves c k (files k) path (files (k + 1))

variable {files : ℕ → φ}

lemma Leaves.of_le (h : t.Leaves c m files) (hk : k ≤ m) : t.Leaves c k files :=
  ⟨h.start, fun i hi => h.saves i (hi.trans_le hk)⟩

/-- The files are what exports of some of the episodes have left. -/
lemma Leaves.exists_written (h : t.Leaves c m files) :
    ∃ exports, files m = t.written c.files exports ∧
      (∀ x ∈ exports, x.1 < m ∧ t.Gathers c x.1 x.2) ∧
      exports.Pairwise fun x y => x.1 < y.1 := by
  induction m with
  | zero => exact ⟨[], h.start, by simp, .nil⟩
  | succ k ih =>
    obtain ⟨exports, hfiles, hexports, hsorted⟩ := ih (h.of_le (Nat.le_succ k))
    have hearlier : ∀ x ∈ exports, x.1 < k + 1 ∧ t.Gathers c x.1 x.2 := fun x hx =>
      ⟨Nat.lt_succ_of_lt (hexports x hx).1, (hexports x hx).2⟩
    -- an export that is made comes after those before it
    have another : ∀ {es : List (Experience α)}, t.Gathers c k es →
        files (k + 1) = t.written (files k) [(k, es)] →
        ∃ exports, files (k + 1) = t.written c.files exports ∧
          (∀ x ∈ exports, x.1 < k + 1 ∧ t.Gathers c x.1 x.2) ∧
          exports.Pairwise fun x y => x.1 < y.1 := by
      intro es gathers hnext
      refine ⟨exports ++ [(k, es)], ?_, ?_, ?_⟩
      · rw [hnext, hfiles, written, written, written, List.foldl_append]
      · intro x hx
        rcases List.mem_append.mp hx with hx | hx
        · exact hearlier x hx
        · rw [List.mem_singleton.mp hx]
          exact ⟨Nat.lt_succ_self k, gathers⟩
      · refine List.pairwise_append.mpr ⟨hsorted, List.pairwise_singleton _ _, ?_⟩
        intro x hx y hy
        rw [List.mem_singleton.mp hy]
        exact (hexports x hx).1
    obtain ⟨path, hsaves⟩ := h.saves k (Nat.lt_succ_self k)
    generalize files (k + 1) = last at hsaves another ⊢
    cases hsaves with
    | nothing => exact ⟨exports, hfiles, hearlier, hsorted⟩
    | lost gathers replace =>
      refine another gathers ?_
      simp only [written, List.foldl_cons, List.foldl_nil, replace]
    | saved gathers replace =>
      refine another gathers ?_
      simp only [written, List.foldl_cons, List.foldl_nil, replace]

section Atomic

variable {here : φ → Place} {content? : φ → Place → Option String}
  (atomic : Storage.Atomic here content?) {before after : φ} {path : Option String} {q : Place}

include atomic

lemma Saves.here_eq (h : t.Saves c k before path after) : here after = here before := by
  cases h with
  | nothing => rfl
  | lost gathers replace => exact (atomic.here_release _ _).trans (atomic.here_replace replace)
  | saved gathers replace => exact atomic.here_replace replace

lemma Leaves.here_eq (h : t.Leaves c m files) : here (files m) = here c.files := by
  induction m with
  | zero => rw [h.start]
  | succ m ih =>
    obtain ⟨path, hsaves⟩ := h.saves m (Nat.lt_succ_self m)
    exact (hsaves.here_eq atomic).trans (ih (h.of_le (Nat.le_succ m)))

/-- An episode changes the file of its own export at most. -/
lemma Saves.content?_eq (h : t.Saves c k before path after)
    (hq : q ≠ Path.components (here before) (t.exportPath k)) :
    content? after q = content? before q := by
  cases h with
  | nothing => rfl
  | lost gathers replace => exact atomic.undone replace q
  | saved gathers replace => rw [atomic.done replace, if_neg hq]

/-- What differs from the beginning is an export that was written, and is there. -/
lemma Leaves.exists_of_content?_ne (h : t.Leaves c m files)
    (hq : content? (files m) q ≠ content? c.files q) :
    ∃ i < m, q = Path.components (here c.files) (t.exportPath i) ∧
      ∃ es, t.Gathers c i es ∧ content? (files m) q = some (Experience.lines es) := by
  induction m with
  | zero => exact absurd (congrArg (content? · q) h.start) hq
  | succ k ih =>
    have hk := h.of_le (Nat.le_succ k)
    have earlier (hsame : content? (files (k + 1)) q = content? (files k) q) :
        ∃ i < k + 1, q = Path.components (here c.files) (t.exportPath i) ∧
          ∃ es, t.Gathers c i es ∧ content? (files (k + 1)) q = some (Experience.lines es) := by
      rw [hsame] at hq ⊢
      obtain ⟨i, hi, hrest⟩ := ih hk hq
      exact ⟨i, Nat.lt_succ_of_lt hi, hrest⟩
    obtain ⟨path, hsaves⟩ := h.saves k (Nat.lt_succ_self k)
    generalize files (k + 1) = last at hsaves earlier ⊢
    cases hsaves with
    | nothing => exact earlier rfl
    | lost gathers replace => exact earlier (atomic.undone replace q)
    | @saved es _ gathers replace =>
      have hdone := atomic.done replace q
      rw [hk.here_eq atomic] at hdone
      by_cases hq : q = Path.components (here c.files) (t.exportPath k)
      · exact ⟨k, Nat.lt_succ_self k, hq, es, gathers, by rw [hdone, if_pos hq]⟩
      · exact earlier (by rw [hdone, if_neg hq])

/-- An export that was written is there from then on. -/
lemma Leaves.content?_of_saved (h : t.Leaves c m files) {es : List (Experience α)}
    (replace : Storage.replace (t.exportPath k) (Experience.lines es) (files k) =
      (.ok (), files (k + 1))) (hm : k + 1 ≤ m) :
    content? (files m) (Path.components (here c.files) (t.exportPath k)) =
      some (Experience.lines es) := by
  induction m, hm using Nat.le_induction with
  | base =>
    have hk := h.of_le (Nat.le_succ k)
    rw [atomic.done replace, hk.here_eq atomic, if_pos rfl]
  | succ m hm ih =>
    have hm' := h.of_le (Nat.le_succ m)
    obtain ⟨path, hsaves⟩ := h.saves m (Nat.lt_succ_self m)
    rw [hsaves.content?_eq atomic, ih hm']
    rw [hm'.here_eq atomic]
    intro heq
    have hnumber := Path.components_ofEpisode_inj heq
    omega

end Atomic

/-! ## Runs -/

/-- The files when the result of a run has been let go of. -/
def filesLeft (result : Option (Except (TrainingError α) (Report α)) × Course ρ σ φ α) : φ :=
  match result.1 with
  | some (.error e) => e.release result.2.files
  | _ => result.2.files

/-- A run of which `m` episodes were played keeps its exports. -/
structure KeepsExports (here : φ → Place) (content? : φ → Place → Option String) (t : Trainer)
    (c : Course ρ σ φ α) (m : ℕ)
    (result : Option (Except (TrainingError α) (Report α)) × Course ρ σ φ α) : Prop where
  /-- A path in a summary is that of its own episode, and leads to the experiences of this. -/
  shown : ∀ report, result.1 = some (.ok report) → ∀ k (s : Summary α) (path : String),
    report.summaries[k]? = some s → s.exportPath = some path →
      s.episode = k + 1 ∧ path = Path.ofEpisode t.settings.outputDir s.episode ∧
      ∃ es, t.Gathers c k es ∧ content? result.2.files (Path.components (here c.files) path) =
        some (Experience.lines es)
  /-- A file that is not what it was is the export of an episode. -/
  changed : ∀ q, content? (filesLeft result) q ≠ content? c.files q →
    ∃ k < m,
      q = Path.components (here c.files) (Path.ofEpisode t.settings.outputDir (k + 1)) ∧
      ∃ es, t.Gathers c k es ∧ content? (filesLeft result) q = some (Experience.lines es)
  /-- Nothing was done to the files but that episodes were exported, each of them at most once. -/
  written : ∃ exports, filesLeft result = t.written c.files exports ∧
    (∀ x ∈ exports, x.1 < m ∧ t.Gathers c x.1 x.2) ∧ exports.Pairwise fun x y => x.1 < y.1
  /-- The file that the error of the run may hold is the only one that is there besides. -/
  held : ∀ q, content? (filesLeft result) q = content? result.2.files q ∨
    ∃ e, result.1 = some (.error e) ∧ e.held? = some q

/-- What the episodes of a run do to the files, up to the last one that was played. -/
lemma RunsTo.exists_leaves {n : ℕ}
    {result : Option (Except (TrainingError α) (Report α)) × Course ρ σ φ α}
    (h : t.RunsTo c n result) :
    ∃ m ≤ n, result.2 = t.courseAt c m ∧ ∃ files, t.Leaves c m files ∧
      files m = filesLeft result ∧
      ∀ report, result.1 = some (.ok report) → ∀ k (s : Summary α),
        report.summaries[k]? = some s → k + 1 ≤ m ∧ s.episode = k + 1 ∧
          t.Saves c k (files k) s.exportPath (files (k + 1)) := by
  -- up to where a run goes on nothing has to be let go of
  have before {k : ℕ} (goesOn : t.GoesOn c k) : ∀ i < k, ∃ path,
      t.Saves c i (t.courseAt c i).files path (t.courseAt c (i + 1)).files := by
    intro i hi
    obtain ⟨s, hs⟩ := goesOn i hi
    exact ⟨_, saves_of_episode_ok hs⟩
  cases h with
  | @reported ss length_eq played =>
    refine ⟨n, le_rfl, rfl, fun k => (t.courseAt c k).files, ⟨rfl, before fun i hi => ?_⟩, rfl, ?_⟩
    · exact ⟨_, played i _ (List.getElem?_eq_getElem (length_eq ▸ hi))⟩
    · rintro _ ⟨⟩ k s hs
      have hplayed := played k s hs
      obtain ⟨stop, hyields⟩ := yields_of_episode_ok hplayed
      exact ⟨length_eq ▸ (List.getElem?_eq_some_iff.mp hs).1, hyields.shows.episode,
        saves_of_episode_ok hplayed⟩
  | @stopped k e lt goesOn failed =>
    refine ⟨k + 1, lt, rfl, fun i => if i ≤ k then (t.courseAt c i).files
      else e.release (t.courseAt c (k + 1)).files, ⟨rfl, fun i hi => ?_⟩, ?_, by simp⟩
    · rcases Nat.lt_succ_iff_lt_or_eq.mp hi with hi | rfl
      · simp only [hi.le, Nat.succ_le_of_lt hi, if_true]
        exact before goesOn i hi
      · simpa using saves_of_episode_error failed
    · simp [filesLeft]
  | @unended k lt goesOn unended =>
    refine ⟨k + 1, lt, rfl, fun i => (t.courseAt c i).files, ⟨rfl, fun i hi => ?_⟩, rfl, by simp⟩
    rcases Nat.lt_succ_iff_lt_or_eq.mp hi with hi | rfl
    · exact before goesOn i hi
    · rw [files_of_episode_none unended]
      exact ⟨none, .nothing⟩

section Atomic

variable {here : φ → Place} {content? : φ → Place → Option String}
  (atomic : Storage.Atomic here content?)
  {result : Option (Except (TrainingError α) (Report α)) × Course ρ σ φ α}

include atomic

omit [Scalar α] [Service σ α] [RandomSource ρ α] in
/-- Letting go of a result removes the file that its error holds, and nothing else. -/
lemma content?_filesLeft (q : Place) : content? (filesLeft result) q = content? result.2.files q ∨
    ∃ e, result.1 = some (.error e) ∧ e.held? = some q := by
  rcases result with ⟨_ | e | report, final⟩
  · exact .inl rfl
  · by_cases hq : e.held? = some q
    · exact .inr ⟨e, rfl, hq⟩
    · exact .inl ((e.content?_release atomic final.files q).trans (if_neg hq))
  · exact .inl rfl

lemma RunsTo.exists_keepsExports {n : ℕ} (h : t.RunsTo c n result) :
    ∃ m ≤ n, result.2 = t.courseAt c m ∧ t.KeepsExports here content? c m result := by
  obtain ⟨m, hm, hcourse, files, hleaves, hleft, hreported⟩ := h.exists_leaves
  refine ⟨m, hm, hcourse, ⟨?_, ?_, ?_, content?_filesLeft atomic⟩⟩
  · intro report hreport k s path hs hpath
    obtain ⟨hk, hnumber, hsaves⟩ := hreported report hreport k s hs
    have hfiles : result.2.files = files m := by
      rw [hleft, filesLeft, hreport]
    rw [hpath] at hsaves
    generalize hnext : files (k + 1) = next at hsaves
    cases hsaves with
    | saved gathers replace =>
      refine ⟨hnumber, by rw [hnumber, exportPath], _, gathers, ?_⟩
      rw [hfiles]
      exact hleaves.content?_of_saved atomic (hnext ▸ replace) hk
  · rw [← hleft]
    exact fun q hq => hleaves.exists_of_content?_ne atomic hq
  · rw [← hleft]
    exact hleaves.exists_written

/-- A run on a storage in which replacing a file is all or nothing keeps its exports. -/
theorem exists_keepsExports (t : Trainer) (c : Course ρ σ φ α) :
    ∃ m ≤ t.settings.episodes, (t.run c).2 = t.courseAt c m ∧
      t.KeepsExports here content? c m (t.run c) := by
  -- a run that cannot begin plays no episode
  have unplayed {e : TrainingError α} (hrun : t.run c = (some (.error e), c))
      (hleft : e.release c.files = c.files) :
      ∃ m ≤ t.settings.episodes, (t.run c).2 = t.courseAt c m ∧
        t.KeepsExports here content? c m (t.run c) := by
    have hleft : filesLeft (t.run c) = c.files := by
      rw [hrun]
      exact hleft
    refine ⟨0, Nat.zero_le _, by rw [hrun]; rfl, ⟨?_, ?_, ?_, content?_filesLeft atomic⟩⟩
    · rw [hrun]
      rintro _ ⟨⟩
    · rw [hleft]
      exact fun q hq => absurd rfl hq
    · rw [hleft]
      exact ⟨[], rfl, by simp, .nil⟩
  rcases hprofile : c.profile.check with f | ⟨⟨⟩⟩
  · exact unplayed (e := .badProfile f) (by simp only [run, hprofile]) rfl
  rcases hpolicy : c.policy.check with f | ⟨⟨⟩⟩
  · exact unplayed (e := .badPolicy f) (by simp only [run, hprofile, hpolicy]) rfl
  exact RunsTo.exists_keepsExports atomic (runsTo_run hprofile hpolicy)

end Atomic

/-- **No export takes the place of another.**  In a directory exports of different episodes have
different paths, which lead to different places, also where their numbers have more digits than the
names are padded to, and none of them is that of the report.  So, whatever the service answers,
whatever is in the files at first and whichever episodes and exports fail: when a run is over, every
path in a summary is that of its own episode, and the file there has just the experiences of this
episode; any file that has changed is such an export; and nothing was done to the files but that the
experiences of episodes that succeeded with some were exported, once each and in their order.  The
one file that is there besides, for as long as the error of the run is held, is the one that could
not be moved into place. -/
theorem run_keepsExports (t : Trainer) (c : Course ρ σ FileTree α) :
    (∀ (here : Place) (dir : String) (j k : ℕ), j ≠ k →
      Path.ofEpisode dir j ≠ Path.ofEpisode dir k ∧
      Path.components here (Path.ofEpisode dir j) ≠
        Path.components here (Path.ofEpisode dir k)) ∧
    (∀ (here : Place) (dir : String) (k : ℕ),
      Path.ofEpisode dir k ≠ Path.join dir "summary.json" ∧
      Path.components here (Path.ofEpisode dir k) ≠
        Path.components here (Path.join dir "summary.json")) ∧
    ∃ m ≤ t.settings.episodes, (t.run c).2 = t.courseAt c m ∧
      t.KeepsExports FileTree.here FileTree.content? c m (t.run c) := by
  refine ⟨fun here dir j k hne => ?_, fun here dir k => ?_, exists_keepsExports FileTree.atomic t c⟩
  · have hplaces : Path.components here (Path.ofEpisode dir j) ≠
        Path.components here (Path.ofEpisode dir k) :=
      fun h => hne (Path.components_ofEpisode_inj h)
    exact ⟨fun h => hplaces (congrArg (Path.components here) h), hplaces⟩
  · have hplaces := Path.components_ofEpisode_ne here dir k
    exact ⟨fun h => hplaces (congrArg (Path.components here) h), hplaces⟩

end Punter.Trainer
