/-
# Runs that stop at failures

Two runs are compared that differ in one thing: one of them stops at the first episode that fails or
cannot be exported, the other one goes on.  Up to that episode they are one run, because both modes
take an episode to the same course (`courseAt_aborting`); the mode only decides what is done with
the error.  The summaries of the run that goes on tell where the other one stops, and with which
error (`Summary.Blames`).
-/
import Mathlib
import Punter.Proofs.Episode.Protocol
import Punter.Proofs.Training.Courses
import Punter.Random.Source
import Punter.Service.Scripted

namespace Punter

variable {σ ρ φ α : Type}

/-! ## What summaries tell of failures -/

namespace Summary

/-- A summary tells of no failure. -/
def Clean (s : Summary α) : Prop := s.error = none ∧ s.exportError = none

/-- The error for which a run may stop after the episode of a summary. -/
inductive Blames [Scalar α] (number : Nat) (s : Summary α) : TrainingError α → Prop
  | episode {e : ServiceError} (error : s.error = some e.message) :
      Blames number s (.episodeFailed number e)
  | save {e : WriteError} (error : s.error = none)
      (exportError : s.exportError =
        some (causes (TrainingError.chain (.exportFailed number e : TrainingError α)))) :
      Blames number s (.exportFailed number e)

lemma Blames.not_clean [Scalar α] {number : Nat} {s : Summary α} {e : TrainingError α}
    (h : s.Blames number e) : ¬ s.Clean := by
  rintro ⟨herror, hexport⟩
  cases h with
  | episode error => rw [herror] at error; cases error
  | save error exportError => rw [hexport] at exportError; cases exportError

/-- Where some summary tells of a failure, one of them is the first to do so. -/
lemma exists_first_not_clean {ss : List (Summary α)} (h : ¬ ∀ s ∈ ss, s.Clean) :
    ∃ k s, ss[k]? = some s ∧ ¬ s.Clean ∧ ∀ s' ∈ ss.take k, s'.Clean := by
  induction ss with
  | nil => simp at h
  | cons s ss ih =>
    by_cases hs : s.Clean
    · have hrest : ¬ ∀ s ∈ ss, s.Clean := fun hall => h (List.forall_mem_cons.mpr ⟨hs, hall⟩)
      obtain ⟨k, s', hs', hnot, hbefore⟩ := ih hrest
      refine ⟨k + 1, s', hs', hnot, ?_⟩
      rw [List.take_succ_cons]
      exact List.forall_mem_cons.mpr ⟨hs, hbefore⟩
    · exact ⟨0, s, rfl, hs, by simp⟩

end Summary

variable [Scalar α] [Service σ α] [RandomSource ρ α] [Storage φ]

/-- The log of an episode goes on from that of before. -/
lemma Agent.history_runEpisode (a : Agent) (fresh : GameId) (profile : Profile α)
    (policy : Policy α) (r : ρ) (w : World σ α) :
    w.history <+: (a.runEpisode fresh profile policy r w).2.2.history := by
  obtain ⟨_, ⟨trace, hhistory, -⟩, -⟩ := a.asks_runEpisode fresh profile policy r w
  exact ⟨trace, hhistory.symm⟩

/-- The course of a run when its error has been let go of. -/
def Course.letGo (e : TrainingError α) (c : Course ρ σ φ α) : Course ρ σ φ α :=
  { c with files := e.release c.files }

namespace Trainer

/-- The same trainer, for which the first failure ends a run or does not. -/
def aborting (t : Trainer) (abort : Bool) : Trainer :=
  { t with settings := { t.settings with abortOnError := abort } }

variable {t : Trainer} {number n k : Nat} {c c' : Course ρ σ φ α}
  {yielded : Option (Option (TrainingError α) × Summary α)} {s : Summary α}

/-! ## One episode in both modes -/

lemma Yields.history (h : t.Yields number c yielded c') :
    c.world.history <+: c'.world.history := by
  have hrun := t.agent.history_runEpisode (t.games number) c.profile c.policy c.random c.world
  cases h with
  | unended run => rwa [run] at hrun
  | failed run => rwa [run] at hrun
  | unexported run save => rwa [run] at hrun
  | exported run save => rwa [run] at hrun

/-- What an episode comes to in both modes.  If it comes to anything, it is summarised in a run that
goes on; the same episode is summarised in the same way by a run that stops at failures, or it ends
this run, with an error that the other run has let go of. -/
lemma episode_aborting (t : Trainer) (number : Nat) (c : Course ρ σ φ α) :
    ((∃ c', (t.aborting false).episode number c = (none, c') ∧
      (t.aborting true).episode number c = (none, c'))) ∨
    ∃ s c', (t.aborting false).episode number c = (some (.ok s), c') ∧
      (s.Clean ∧ (t.aborting true).episode number c = (some (.ok s), c') ∨
        ∃ e held, s.Blames number e ∧
          (t.aborting true).episode number c = (some (.error e), held) ∧ held.letGo e = c') := by
  obtain ⟨yielded, c', hyields⟩ := (t.aborting false).exists_yields number c
  have hfalse := episode_of_yields hyields
  cases hyields with
  | unended run =>
    exact .inl ⟨_, hfalse, episode_of_yields (t := t.aborting true) (.unended run)⟩
  | failed run =>
    exact .inr ⟨_, _, hfalse, .inr ⟨_, _, .episode rfl,
      episode_of_yields (t := t.aborting true) (.failed run), rfl⟩⟩
  | unexported run save =>
    exact .inr ⟨_, _, hfalse, .inr ⟨_, _, .save rfl rfl,
      episode_of_yields (t := t.aborting true) (.unexported run save), rfl⟩⟩
  | exported run save =>
    exact .inr ⟨_, _, hfalse, .inl ⟨⟨rfl, rfl⟩,
      episode_of_yields (t := t.aborting true) (.exported run save)⟩⟩

/-! ## Whole runs in both modes -/

lemma history_courseAt (t : Trainer) (c : Course ρ σ φ α) {m n : Nat} (h : m ≤ n) :
    (t.courseAt c m).world.history <+: (t.courseAt c n).world.history := by
  induction n, h using Nat.le_induction with
  | base => exact List.prefix_refl _
  | succ n _ ih =>
    obtain ⟨yielded, hyields⟩ := t.exists_yields_courseAt c n
    exact ih.trans hyields.history

/-- A run that goes on after failures reports the episodes up to one that goes on for ever. -/
lemma exists_report (hprofile : c.profile.check = .ok ()) (hpolicy : c.policy.check = .ok ())
    (t : Trainer) :
    ∃ n ≤ t.settings.episodes, ∃ report,
      ((t.aborting false).limited n).run c = (some (.ok report), (t.aborting false).courseAt c n) ∧
      (n = t.settings.episodes ∨ n < t.settings.episodes ∧
        (t.aborting false).RunsTo c t.settings.episodes
          (none, (t.aborting false).courseAt c (n + 1)) ∧
        (t.aborting false).episode (n + 1) ((t.aborting false).courseAt c n) =
          (none, (t.aborting false).courseAt c (n + 1))) := by
  have unstopped : ∀ {k : Nat} {e : TrainingError α},
      (t.aborting false).episode (k + 1) ((t.aborting false).courseAt c k) ≠
        (some (.error e), (t.aborting false).courseAt c (k + 1)) := by
    intro k e failed
    obtain ⟨s, -, habort⟩ := yields_of_episode_error failed
    cases habort
  have hruns := runsTo_run (t := t.aborting false) hprofile hpolicy
  generalize hrun : (t.aborting false).run c = result at hruns
  cases hruns with
  | reported length_eq played => exact ⟨t.settings.episodes, le_rfl, _, hrun, .inl rfl⟩
  | stopped lt before failed => exact (unstopped failed).elim
  | @unended k lt before unended =>
    have hpart := runsTo_limited (t := t.aborting false) hprofile hpolicy k
    generalize hlimited : ((t.aborting false).limited k).run c = part at hpart
    cases hpart with
    | reported length_eq played =>
      exact ⟨k, lt.le, _, hlimited, .inr ⟨lt, .unended lt before unended, unended⟩⟩
    | stopped lt before failed => exact (unstopped failed).elim
    | @unended j ltj beforej unendedj =>
      have hle := before.le unendedj (by simp)
      omega

section Reported

variable {report : Report α} {final : Course ρ σ φ α}
  (h : (t.aborting false).RunsTo c n (some (.ok report), final))

include h

/-- Up to a failure of which the report tells, both modes are one run. -/
lemma RunsTo.courseAt_aborting (hk : k ≤ n) (hclean : ∀ s ∈ report.summaries.take k, s.Clean) :
    (∀ i < k, ∀ s, report.summaries[i]? = some s →
      (t.aborting true).episode (i + 1) ((t.aborting true).courseAt c i) =
        (some (.ok s), (t.aborting true).courseAt c (i + 1))) ∧
      (t.aborting true).courseAt c k = (t.aborting false).courseAt c k := by
  induction k with
  | zero => exact ⟨fun i hi => absurd hi (Nat.not_lt_zero i), rfl⟩
  | succ k ih =>
    have hlt : k < report.summaries.length := h.length_eq ▸ hk
    obtain ⟨hepisodes, hcourse⟩ := ih (Nat.le_of_succ_le hk) fun s hs =>
      hclean s (List.take_subset_take_left _ (Nat.le_succ k) hs)
    have hepisode : (t.aborting true).episode (k + 1) ((t.aborting true).courseAt c k) =
        (some (.ok report.summaries[k]), (t.aborting false).courseAt c (k + 1)) := by
      have hplayed := h.played (List.getElem?_eq_getElem hlt)
      have hmem : report.summaries[k] ∈ report.summaries.take (k + 1) :=
        List.mem_take_iff_getElem.mpr ⟨k, by omega, rfl⟩
      rw [hcourse]
      rcases t.episode_aborting (k + 1) ((t.aborting false).courseAt c k) with
        ⟨c', hfalse, -⟩ | ⟨s, c', hfalse, htrue⟩ <;> rw [hfalse] at hplayed
      · cases (Prod.mk.inj hplayed).1
      · obtain ⟨hs, rfl⟩ := Prod.mk.inj hplayed
        obtain rfl := Except.ok.inj (Option.some.inj hs)
        rcases htrue with ⟨-, htrue⟩ | ⟨e, held, hblames, -⟩
        · exact htrue
        · exact (hblames.not_clean (hclean _ hmem)).elim
    have hnext : (t.aborting true).courseAt c (k + 1) = (t.aborting false).courseAt c (k + 1) := by
      rw [courseAt, hepisode]
    refine ⟨fun i hi s hs => ?_, hnext⟩
    rcases Nat.lt_succ_iff_lt_or_eq.mp hi with hi | rfl
    · exact hepisodes i hi s hs
    · obtain rfl := Option.some.inj ((List.getElem?_eq_getElem hlt).symm.trans hs)
      exact hnext ▸ hepisode

/-- A run that stops at failures comes to the report of the other run, if this tells of none. -/
lemma RunsTo.agrees (hclean : ∀ s ∈ report.summaries, s.Clean) :
    (t.aborting true).RunsTo c n (some (.ok report), final) := by
  obtain ⟨hepisodes, hcourse⟩ :=
    h.courseAt_aborting le_rfl fun s hs => hclean s (List.mem_of_mem_take hs)
  cases h with
  | reported length_eq played =>
    rw [← hcourse]
    exact .reported length_eq fun k s hs =>
      hepisodes k (length_eq ▸ (List.getElem?_eq_some_iff.mp hs).1) s hs

/-- Both modes come to an episode that goes on for ever, if no failure comes before it. -/
lemma RunsTo.unended_aborting (hclean : ∀ s ∈ report.summaries, s.Clean)
    (unended : (t.aborting false).episode (n + 1) ((t.aborting false).courseAt c n) =
      (none, (t.aborting false).courseAt c (n + 1))) {m : Nat} (hm : n < m) :
    (t.aborting true).RunsTo c m (none, (t.aborting false).courseAt c (n + 1)) := by
  obtain ⟨hepisodes, hcourse⟩ :=
    h.courseAt_aborting le_rfl fun s hs => hclean s (List.mem_of_mem_take hs)
  have hunended : (t.aborting true).episode (n + 1) ((t.aborting true).courseAt c n) =
      (none, (t.aborting false).courseAt c (n + 1)) := by
    rw [hcourse]
    rcases t.episode_aborting (n + 1) ((t.aborting false).courseAt c n) with
      ⟨c', hfalse, htrue⟩ | ⟨s, c', hfalse, -⟩ <;> rw [hfalse] at unended
    · rw [htrue, (Prod.mk.inj unended).2]
    · cases (Prod.mk.inj unended).1
  have hnext : (t.aborting true).courseAt c (n + 1) = (t.aborting false).courseAt c (n + 1) := by
    rw [courseAt, hunended]
  rw [← hnext]
  refine .unended hm (fun i hi => ?_) (hnext ▸ hunended)
  rw [← h.length_eq] at hi
  exact ⟨_, hepisodes i (h.length_eq ▸ hi) _ (List.getElem?_eq_getElem hi)⟩

/-- It stops at the first failure of which the report of the other run tells. -/
lemma RunsTo.stops (hs : report.summaries[k]? = some s) (hfails : ¬ s.Clean)
    (hbefore : ∀ s' ∈ report.summaries.take k, s'.Clean) :
    ∃ e held, s.Blames (k + 1) e ∧ held.letGo e = (t.aborting false).courseAt c (k + 1) ∧
      ∀ m, k < m → (t.aborting true).RunsTo c m (some (.error e), held) := by
  have hlt : k < report.summaries.length := (List.getElem?_eq_some_iff.mp hs).1
  obtain ⟨hepisodes, hcourse⟩ := h.courseAt_aborting (h.length_eq ▸ hlt.le) hbefore
  have goesOn : (t.aborting true).GoesOn c k := fun i hi =>
    ⟨_, hepisodes i hi _ (List.getElem?_eq_getElem (hi.trans hlt))⟩
  have hplayed := h.played hs
  rcases t.episode_aborting (k + 1) ((t.aborting false).courseAt c k) with
    ⟨c', hfalse, -⟩ | ⟨s', c', hfalse, htrue⟩ <;> rw [hfalse] at hplayed
  · cases (Prod.mk.inj hplayed).1
  · obtain ⟨hs', rfl⟩ := Prod.mk.inj hplayed
    obtain rfl := Except.ok.inj (Option.some.inj hs')
    rcases htrue with ⟨hclean, -⟩ | ⟨e, held, hblames, hstop, hletGo⟩
    · exact (hfails hclean).elim
    · rw [← hcourse] at hstop
      obtain rfl : (t.aborting true).courseAt c (k + 1) = held := by
        rw [courseAt, hstop]
      exact ⟨e, _, hblames, hletGo, fun m hm => .stopped hm goesOn hstop⟩

end Reported

end Trainer

end Punter
