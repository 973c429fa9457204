/-
# Bounds that training keeps

Whatever rewards a service gives, a run plays every episode with a profile and a policy that would
have been accepted at its beginning, and so it ends.  Only the stakes of the profile move, and the
probability of exploring only falls.
-/
import Mathlib
import Punter.Proofs.Policy.Decay
import Punter.Proofs.Profile.Adaptation
import Punter.Proofs.Training.Courses
import Punter.Random.Source
import Punter.Service.Scripted

namespace Punter

variable {σ ρ φ : Type} [Service σ ℚ] [RandomSource ρ ℚ] [Storage φ]

/-- With what a run goes on is as good as with what it began. -/
structure Course.Keeps (first c : Course ρ σ φ ℚ) : Prop where
  profile_check : c.profile.check = .ok ()
  policy_check : c.policy.check = .ok ()
  playable : c.profile.Playable
  usable : c.policy.Usable
  sameButStakes : first.profile.SameButStakes c.profile
  decayRate : c.policy.decayRate = first.policy.decayRate

namespace Trainer

variable {t : Trainer} {number : ℕ} {first c c' : Course ρ σ φ ℚ}
  {yielded : Option (Option (TrainingError ℚ) × Summary ℚ)}

omit [Service σ ℚ] [RandomSource ρ ℚ] [Storage φ] in
lemma keeps_of_playable (hprofile : c.profile.Playable) (hpolicy : c.policy.Usable)
    (same : first.profile.SameButStakes c.profile)
    (rate : c.policy.decayRate = first.policy.decayRate) : first.Keeps c :=
  ⟨(Profile.check_eq_ok_iff _).mpr hprofile, (Policy.check_eq_ok_iff _).mpr hpolicy, hprofile,
    hpolicy, same, rate⟩

lemma Yields.keeps (h : t.Yields number c yielded c') (hc : first.Keeps c) : first.Keeps c' := by
  rcases h.learns with ⟨hprofile, hpolicy⟩ | ⟨rewards, hprofile, hpolicy⟩
  · refine keeps_of_playable ?_ ?_ ?_ ?_ <;> simp only [hprofile, hpolicy]
    exacts [hc.playable, hc.usable, hc.sameButStakes, hc.decayRate]
  · refine keeps_of_playable ?_ ?_ ?_ ?_ <;> simp only [hprofile, hpolicy]
    exacts [hc.playable.adapt rewards _, hc.usable.decay,
      hc.sameButStakes.trans (Profile.sameButStakes_adapt _ rewards _), hc.decayRate]

lemma Yields.epsilon_le (h : t.Yields number c yielded c') (hc : c.policy.Usable) :
    c'.policy.epsilon ≤ c.policy.epsilon := by
  rcases h.learns with ⟨-, hpolicy⟩ | ⟨rewards, -, hpolicy⟩ <;> rw [hpolicy]
  exact hc.epsilon_decay_le

lemma keeps_courseAt (hprofile : c.profile.check = .ok ()) (hpolicy : c.policy.check = .ok ())
    (k : ℕ) : c.Keeps (t.courseAt c k) := by
  rw [Profile.check_eq_ok_iff] at hprofile
  rw [Policy.check_eq_ok_iff] at hpolicy
  exact courseAt_induction (P := fun _ => c.Keeps)
    (keeps_of_playable hprofile hpolicy (.refl _) rfl) (fun hc h => h.keeps hc) k

lemma epsilon_courseAt_succ_le (hprofile : c.profile.check = .ok ())
    (hpolicy : c.policy.check = .ok ()) (k : ℕ) :
    (t.courseAt c (k + 1)).policy.epsilon ≤ (t.courseAt c k).policy.epsilon := by
  obtain ⟨yielded, hyields⟩ := t.exists_yields_courseAt c k
  exact hyields.epsilon_le (keeps_courseAt hprofile hpolicy k).usable

/-- **Bounds.**  From a profile and a policy that are accepted, every course of a run has ones that
are accepted as well, whatever the service does and whether or not failures end the run: the
smallest stake stays between the floor and the largest stake, which stays below the ceiling,
nothing but the stakes changes in the profile, and nothing but the probability of exploring, which
never rises, and the count of episodes in the policy.  The run follows these courses, also where it
does not come to an end; its report shows them, and ends with the last one. -/
theorem run_keeps_bounds (t : Trainer) (c : Course ρ σ φ ℚ)
    (hprofile : c.profile.check = .ok ()) (hpolicy : c.policy.check = .ok ()) :
    (∀ k, c.Keeps (t.courseAt c k)) ∧
      (Antitone fun k => (t.courseAt c k).policy.epsilon) ∧
      t.RunsTo c t.settings.episodes (t.run c) ∧
      ∀ report final, t.run c = (some (.ok report), final) →
        (∀ k (s : Summary ℚ), report.summaries[k]? = some s → s.Shows (k + 1) (t.courseAt c k)) ∧
        report.profile = (t.courseAt c t.settings.episodes).profile ∧
        report.policy = (t.courseAt c t.settings.episodes).policy := by
  have hruns := runsTo_run (t := t) hprofile hpolicy
  refine ⟨keeps_courseAt hprofile hpolicy,
    antitone_nat_of_succ_le (epsilon_courseAt_succ_le hprofile hpolicy), hruns, ?_⟩
  intro report final hrun
  exact (hrun ▸ hruns).shows

/-- Two episodes, the first with a great loss and the second with a great win, from the widest
stakes that there are. -/
theorem run_keeps_bounds_two :
    let t : Trainer :=
      ⟨⟨⟨.standard, .instant⟩, .standard, 10⟩, ⟨2, "out", 1, true⟩, fun _ => .nil⟩
    let before : Observation ℚ := .initial .initialized
    let ended : Observation ℚ := .initial .completed
    let paid (reward : ℚ) : Experience ℚ := ⟨.nil, .nil, .null, .null, reward, .null, true, none⟩
    let service : Scripted ℚ :=
      ⟨[.ok ⟨⟨1⟩, .initialized⟩, .ok ⟨⟨2⟩, .initialized⟩], [.ok before, .ok before],
        [.ok ended, .ok ended], [.ok [paid (-1000)], .ok [paid 1000]]⟩
    let profile : Profile ℚ := { Profile.standard with minBet := 1 / 2, maxBet := 100 }
    let c : Course (Script ℚ) (Scripted ℚ) FileTree ℚ :=
      ⟨profile, .standard, .ofList [1 / 2], .start service, .empty []⟩
    c.profile.check = .ok () ∧ c.policy.check = .ok () ∧ (∀ k, c.Keeps (t.courseAt c k)) ∧
      ∃ report final, t.run c = (some (.ok report), final) ∧
        report.summaries.map (fun s => (s.epsilon, s.minBet, s.maxBet)) =
          [(1 / 5, 1 / 2, 100), (19 / 100, 1 / 2, 85)] ∧
        report.profile.check = .ok () ∧
        (report.profile.minBet, report.profile.maxBet) = (29 / 50, 391 / 4) := by
  intro t before ended paid service profile c
  have hprofile : c.profile.check = .ok () := by decide +kernel
  have hpolicy : c.policy.check = .ok () := by decide +kernel
  obtain ⟨hkeeps, -, -, hreport⟩ := run_keeps_bounds t c hprofile hpolicy
  have hsummaries : ((t.run c).1.bind Except.toOption).map
      (·.summaries.map fun s => (s.epsilon, s.minBet, s.maxBet)) =
        some [(1 / 5, 1 / 2, 100), (19 / 100, 1 / 2, 85)] := by decide +kernel
  have hstakes : ((t.run c).1.bind Except.toOption).map
      (fun r => (r.profile.minBet, r.profile.maxBet)) = some (29 / 50, 391 / 4) := by
    decide +kernel
  rcases hrun : t.run c with ⟨_ | e | report, final⟩ <;> rw [hrun] at hsummaries hstakes
  · cases hstakes
  · cases hstakes
  · refine ⟨hprofile, hpolicy, hkeeps, report, final, rfl, Option.some.inj hsummaries, ?_,
      Option.some.inj hstakes⟩
    rw [(hreport report final hrun).2.1]
    exact (hkeeps 2).profile_check

end Trainer

end Punter
