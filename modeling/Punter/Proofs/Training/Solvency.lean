/-
# Runs that cannot fail

A run on a simulated service with generous settings, in which nothing prevents exports, completes
and exports every episode.  An episode that begins with a playable profile and a source of numbers
from the interval from 0 to 1, on a service that holds solvent sessions and with files that can be
written, leaves all of this as it found it (`Course.Sheltered`).  So the errors for which a run
might stop do not come about in its first episode, and not in any later one.

Nor does an episode go on for ever, as long as the sessions have identifiers of their own: each
episode opens one of them at most (`Course.Numbered`), and has no more experiences to fetch than it
has made steps.
-/
import Mathlib
import Punter.Proofs.Episode.Recorded
import Punter.Proofs.Episode.Solvency
import Punter.Proofs.Files.Exports
import Punter.Proofs.Simulation.Retention
import Punter.Proofs.Training.Stopping

namespace Punter

open RandomSource (InUnit)
open Simulation (Names NoLuck Settings State)

/-! ## Runs that end -/

section Ends

variable {γ ρ φ α : Type} [Scalar α] [Chance γ α] [RandomSource ρ α] [Storage φ]

/-- The service has opened at most `k` sessions, and it fails no page on purpose. -/
structure Course.Numbered (names : Names) (k : ℕ) (c : Course ρ (State γ α) φ α) : Prop where
  reachable : c.world.service.Reachable
  names_eq : c.world.service.names = names
  opened_le : c.world.service.opened ≤ k
  unqueued : c.world.service.failures.of .page = []

namespace Trainer

variable {t : Trainer} {names : Names} {number k n : ℕ} {c c' : Course ρ (State γ α) φ α}
  {yielded : Option (Option (TrainingError α) × Summary α)}

lemma Yields.numbered (h : t.Yields number c yielded c') (hc : c.Numbered names k) :
    c'.Numbered names (k + 1) := by
  have hopened := t.agent.reachable_runEpisode (t.games number) c.profile c.policy c.random c.world
    hc.reachable
  have hreaches := t.agent.reaches_runEpisode (t.games number) c.profile c.policy c.random c.world
  have numbered : ∀ {result : Option (Except ServiceError (EpisodeOutcome α))} {random : ρ}
      {world : World (State γ α) α},
      t.agent.runEpisode (t.games number) c.profile c.policy c.random c.world =
        (result, random, world) →
      ∀ (profile : Profile α) (policy : Policy α) (files : φ),
        (⟨profile, policy, random, world, files⟩ : Course ρ (State γ α) φ α).Numbered names
          (k + 1) := by
    intro result random world run profile policy files
    rw [run] at hopened hreaches
    obtain ⟨hreachable, hnames, hle⟩ := hopened
    exact ⟨hreachable, hnames.trans hc.names_eq, hle.trans (Nat.succ_le_succ hc.opened_le),
      hreaches.unqueued hc.unqueued⟩
  cases h with
  | unended run => exact numbered run _ _ _
  | failed run => exact numbered run _ _ _
  | unexported run save => exact numbered run _ _ _
  | exported run save => exact numbered run _ _ _

/-- An episode ends when its session has an identifier of its own. -/
lemma Yields.ne_none (h : t.Yields number c yielded c') (hc : c.Numbered names k)
    (distinct : names.Distinct (k + 1)) (hsteps : t.agent.maxSteps < UInt32.size)
    (hfar : t.agent.maxSteps < t.agent.horizon) : yielded ≠ none := by
  have hended := t.agent.runEpisode_ne_none (t.games number) c.profile c.policy c.random c.world
    hc.reachable (hc.names_eq ▸ distinct.mono (Nat.succ_le_succ hc.opened_le)) hc.unqueued hsteps
    hfar
  cases h with
  | unended run => exact absurd (congrArg Prod.fst run) hended
  | failed | unexported | exported => exact Option.some_ne_none _

lemma RunsTo.ne_none {result : Option (Except (TrainingError α) (Report α))}
    {final : Course ρ (State γ α) φ α} (h : t.RunsTo c n (result, final))
    (hc : c.Numbered names 0) (distinct : names.Distinct n)
    (hsteps : t.agent.maxSteps < UInt32.size) (hfar : t.agent.maxSteps < t.agent.horizon) :
    result ≠ none := by
  cases h with
  | reported => exact Option.some_ne_none _
  | stopped => exact Option.some_ne_none _
  | @unended k lt before unended =>
    obtain ⟨yielded, hyields, hresult⟩ := yields_of_episode unended
    have hnumbered : (t.courseAt c k).Numbered names k :=
      courseAt_induction (P := fun k => Course.Numbered names k) hc (fun hc h => h.numbered hc) k
    exact absurd (Option.map_eq_none_iff.mp hresult.symm)
      (hyields.ne_none hnumbered (distinct.mono lt) hsteps hfar)

end Trainer

end Ends

/-! ## Runs that complete their episodes -/

variable {γ ρ φ : Type} [Chance γ ℚ] [RandomSource ρ ℚ] [Storage φ]

/-- An episode was completed: its session ended or it made all its steps, and nothing failed. -/
structure Summary.Completed {α : Type} (s : Summary α) : Prop where
  clean : s.Clean
  termination : s.termination = some .done ∨ s.termination = some .stepCap

/-- Nothing can go wrong in the next episode of a run. -/
structure Course.Sheltered (settings : Settings ℚ) (dir : String)
    (c : Course ρ (State γ ℚ) φ ℚ) : Prop where
  solvent : c.world.service.Solvent settings
  playable : c.profile.Playable
  inUnit : InUnit c.random
  writable : Writable dir c.files

namespace Trainer

variable {t : Trainer} {settings : Settings ℚ} {number : ℕ} {c c' : Course ρ (State γ ℚ) φ ℚ}
  {yielded : Option (Option (TrainingError ℚ) × Summary ℚ)}

/-- Where files can be written, the experiences of every episode can be exported. -/
lemma exists_exportEpisode {files : φ} (h : Writable t.settings.outputDir files) (number : ℕ)
    (es : List (Experience ℚ)) :
    ∃ path files', t.exportEpisode number es files = (.ok path, files') ∧
      Writable t.settings.outputDir files' := by
  unfold exportEpisode
  split
  · exact ⟨none, files, rfl, h⟩
  · obtain ⟨files', hreplace, h'⟩ := h.exists_replace number (Experience.lines es)
    refine ⟨some (Path.ofEpisode t.settings.outputDir number), files', ?_, h'⟩
    simp only [Experience.save, hreplace]

lemma Yields.completed (h : t.Yields number c yielded c') (generous : settings.Generous)
    (hc : c.Sheltered settings t.settings.outputDir) :
    (∀ stop s, yielded = some (stop, s) → stop = none ∧ s.Completed) ∧
      c'.Sheltered settings t.settings.outputDir := by
  obtain ⟨result, r₁, w₁, hrun, hw₁, hr₁, hend⟩ := t.agent.exists_runEpisode (t.games number)
    c.policy hc.solvent generous hc.playable hc.inUnit
  cases h with
  | unended run =>
    cases hrun.symm.trans run
    exact ⟨by simp, hw₁, hc.playable, hr₁, hc.writable⟩
  | failed run =>
    cases hrun.symm.trans run
    rcases hend with hnone | ⟨o, ho, -⟩
    · cases hnone
    · cases ho
  | @unexported o _ _ _ _ run save =>
    obtain ⟨path, files, hsave, -⟩ := exists_exportEpisode hc.writable number o.experiences
    cases hsave.symm.trans save
  | @exported o _ _ _ _ run save =>
    cases hrun.symm.trans run
    obtain ⟨path, files, hsave, hfiles⟩ := exists_exportEpisode hc.writable number o.experiences
    cases hsave.symm.trans save
    refine ⟨?_, hw₁, hc.playable.adapt _ _, hr₁, hfiles⟩
    rintro stop s ⟨⟩
    rcases hend with hnone | ⟨o', ho, hend⟩
    · cases hnone
    · cases ho
      exact ⟨rfl, ⟨rfl, rfl⟩, hend.imp (congrArg some) (congrArg some)⟩

lemma sheltered_courseAt (generous : settings.Generous)
    (hc : c.Sheltered settings t.settings.outputDir) (k : ℕ) :
    (t.courseAt c k).Sheltered settings t.settings.outputDir :=
  courseAt_induction (P := fun _ => Course.Sheltered settings t.settings.outputDir) hc
    (fun hc h => (h.completed generous hc).2) k

/-- **Solvency.**  A run on a fresh simulated service whose wallets hold the highest stake for every
spin, and which neither rejects actions that do not fit nor stakes above the announced maximum, comes
to nothing but a report of all its episodes, none of which failed and all of which could be exported:
each went on until its session ended or all its steps were made.  This is so whatever the spins come
to, from every profile and policy that are accepted, for every number of episodes, and whether or not
a failure would have ended the run.  And if the sessions have identifiers of their own, and episodes
make fewer than `2 ^ 32` steps, then the run does come to its report: no more pages are to be fetched
than steps were made. -/
theorem run_solvent (t : Trainer) (c : Course ρ (State γ ℚ) φ ℚ) (settings : Settings ℚ)
    (names : Names) (chances : γ) (fresh : c.world.service = .new settings names chances)
    (lenient : settings.rejectInvalid = false) (unlimited : settings.enforceMaxBet = false)
    (covered : 100 * (max 1 settings.spinsPerSession : ℕ) ≤ settings.startingBalance)
    (hprofile : c.profile.check = .ok ()) (hpolicy : c.policy.check = .ok ())
    (draws : InUnit c.random) (writable : Writable t.settings.outputDir c.files) :
    (∀ result final, t.run c = (some result, final) → ∃ report, result = .ok report ∧
      report.summaries.length = t.settings.episodes ∧ ∀ s ∈ report.summaries, s.Completed) ∧
    (names.Distinct t.settings.episodes → t.agent.maxSteps < UInt32.size →
      t.agent.maxSteps < t.agent.horizon → ∃ report final, t.run c = (some (.ok report), final) ∧
        report.summaries.length = t.settings.episodes ∧ ∀ s ∈ report.summaries, s.Completed) := by
  have generous : settings.Generous := ⟨lenient, unlimited, covered⟩
  have hc : c.Sheltered settings t.settings.outputDir :=
    ⟨fresh ▸ State.solvent_new settings names chances, (Profile.check_eq_ok_iff _).mp hprofile,
      draws, writable⟩
  have hruns := runsTo_run (t := t) hprofile hpolicy
  have hreported : ∀ result final, t.run c = (some result, final) → ∃ report,
      result = .ok report ∧ report.summaries.length = t.settings.episodes ∧
        ∀ s ∈ report.summaries, s.Completed := by
    intro result final hrun
    rw [hrun] at hruns
    cases hruns with
    | reported length_eq played =>
      refine ⟨_, rfl, length_eq, fun s hs => ?_⟩
      obtain ⟨k, hk⟩ := List.getElem?_of_mem hs
      obtain ⟨stop, hyields⟩ := yields_of_episode_ok (played k s hk)
      have hcompleted := (hyields.completed generous (sheltered_courseAt generous hc k)).1
      exact (hcompleted stop s rfl).2
    | @stopped k e lt before failed =>
      obtain ⟨s, hyields, -⟩ := yields_of_episode_error failed
      have hcompleted := (hyields.completed generous (sheltered_courseAt generous hc k)).1
      cases (hcompleted (some e) s rfl).1
  refine ⟨hreported, fun distinct hsteps hfar => ?_⟩
  have hnumbered : c.Numbered names 0 :=
    ⟨⟨settings, names, chances, [], fresh⟩, by rw [fresh]; rfl, by rw [fresh]; exact le_rfl,
      by rw [fresh]; rfl⟩
  rcases hrun : t.run c with ⟨result, final⟩
  have hended := (hrun ▸ hruns).ne_none hnumbered distinct hsteps hfar
  obtain ⟨result, rfl⟩ := Option.ne_none_iff_exists'.mp hended
  obtain ⟨report, rfl, hreport⟩ := hreported result final hrun
  exact ⟨report, final, rfl, hreport⟩

/-- Three episodes that begin with the highest stakes, on a service on which no spin wins.  In the
first one and in the last one exploring makes a bet once more than is needed, which leaves no step
for the last spin. -/
theorem run_solvent_three :
    let t : Trainer :=
      ⟨⟨⟨.standard, .instant⟩, { EpisodeSettings.standard with maxSteps := 4 }, 5⟩,
        ⟨3, "out", 2, true⟩, fun _ => .nil⟩
    let settings : Settings ℚ :=
      { Settings.standard with spinsPerSession := 2, startingBalance := 200, retained := 1 }
    let service : State NoLuck ℚ := .new settings .counting .noLuck
    let profile : Profile ℚ := { Profile.standard with minBet := 100, maxBet := 100 }
    let c : Course (Script ℚ) (State NoLuck ℚ) FileTree ℚ :=
      ⟨profile, .standard, .ofList [1 / 2, 1 / 10, 1 / 5, 3 / 5, 1 / 2, 2 / 5, 1 / 10, 0],
        .start service, .empty []⟩
    ∃ report final, t.run c = (some (.ok report), final) ∧ (∀ s ∈ report.summaries, s.Completed) ∧
      report.summaries.map (fun s => (s.termination, s.minBet)) =
        [(some .stepCap, 100), (some .done, 100), (some .stepCap, 175 / 2)] ∧
      final.files.files.map (·.1) = [["out", "episode_0001.jsonl"],
        ["out", "episode_0002.jsonl"], ["out", "episode_0003.jsonl"]] := by
  intro t settings service profile c
  obtain ⟨report, final, hrun, -, hcompleted⟩ := (run_solvent t c settings .counting .noLuck rfl
    rfl rfl (by decide +kernel) (by decide +kernel) (by decide +kernel)
    (RandomSource.inUnit_ofList _)
    (FileTree.writable_empty [] _ (by decide +kernel) (by decide +kernel))).2
    (Names.distinct_counting (by decide)) (by decide) (by decide)
  have hsummaries : ((t.run c).1.bind Except.toOption).map
      (·.summaries.map fun s => (s.termination, s.minBet)) =
        some [(some .stepCap, 100), (some .done, 100), (some .stepCap, 175 / 2)] := by
    decide +kernel
  have hfiles : (t.run c).2.files.files.map (·.1) = [["out", "episode_0001.jsonl"],
      ["out", "episode_0002.jsonl"], ["out", "episode_0003.jsonl"]] := by decide +kernel
  rw [hrun] at hsummaries hfiles
  exact ⟨report, final, hrun, hcompleted, Option.some.inj hsummaries, hfiles⟩

end Trainer

end Punter
