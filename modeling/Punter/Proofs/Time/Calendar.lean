/-
# The day with a number

Every number of days leads to a day of the calendar that has this many days before it
(`Date.ofDays_spec`).  The year is found by a guess that is at most one off, since four hundred
years have a fixed number of days; the month by taking off the months before it.
-/
import Mathlib
import Punter.Time.Calendar

namespace Punter.Date

/-! ## Years -/

/-- The number of days of a year. -/
def yearLength (year : ℤ) : ℕ := if isLeap year then 366 else 365

lemma isLeap_iff {year : ℤ} :
    isLeap year = true ↔ year % 4 = 0 ∧ (year % 100 ≠ 0 ∨ year % 400 = 0) := by
  simp [isLeap]

lemma daysBeforeYear_succ (year : ℤ) :
    daysBeforeYear (year + 1) = daysBeforeYear year + yearLength year := by
  simp only [daysBeforeYear, yearLength]
  split_ifs with h
  · rw [isLeap_iff] at h
    omega
  · rw [isLeap_iff] at h
    omega

/-- The guess is at most one year off. -/
lemma guess_bounds (days : ℤ) :
    let guess := days * 400 / 146097 + 1
    daysBeforeYear (guess - 1) ≤ days ∧ days < daysBeforeYear (guess + 2) := by
  intro guess
  simp only [guess, daysBeforeYear]
  omega

/-- A day falls into its year. -/
lemma yearOf_bounds (days : ℤ) :
    daysBeforeYear (yearOf days) ≤ days ∧ days < daysBeforeYear (yearOf days + 1) := by
  obtain ⟨hlower, hupper⟩ := guess_bounds days
  unfold yearOf
  dsimp only
  split_ifs with hnext hprev
  · exact ⟨hnext, by rwa [add_assoc]⟩
  · exact ⟨hlower, by simpa using hprev⟩
  · exact ⟨not_lt.mp hprev, not_le.mp hnext⟩

/-! ## Months -/

lemma daysBeforeMonth_succ (year : ℤ) {month : ℕ} (h : 1 ≤ month) :
    daysBeforeMonth year (month + 1) = daysBeforeMonth year month + monthLength year month := by
  obtain ⟨n, rfl⟩ : ∃ n, month = n + 1 := ⟨month - 1, by omega⟩
  simp [daysBeforeMonth, List.range_succ]

lemma daysBeforeMonth_thirteen (year : ℤ) : daysBeforeMonth year 13 = yearLength year := by
  unfold yearLength
  split_ifs with h <;> simp [daysBeforeMonth, List.range_succ, monthLength, h]

/-- A day of a year falls into the month that is found.  The induction is on the months that are
left, and the days before the first of them are taken into account. -/
lemma monthOf_spec {year : ℤ} (n : ℕ) {month : ℕ} (rest : ℕ) (hmonth : 1 ≤ month)
    (hrest : daysBeforeMonth year month + rest < daysBeforeMonth year (month + n + 1)) :
    ∃ m d, monthOf year n month rest = ⟨year, m, d + 1⟩ ∧ month ≤ m ∧ m ≤ month + n ∧
      d < monthLength year m ∧ daysBeforeMonth year m + d = daysBeforeMonth year month + rest := by
  induction n generalizing month rest with
  | zero =>
    rw [Nat.add_zero, daysBeforeMonth_succ year hmonth] at hrest
    exact ⟨month, rest, rfl, le_rfl, le_rfl, by omega, rfl⟩
  | succ n ih =>
    rw [monthOf]
    split_ifs with hlt
    · exact ⟨month, rest, rfl, le_rfl, by omega, hlt, rfl⟩
    · have hsucc := daysBeforeMonth_succ year hmonth
      have hindex : month + (n + 1) + 1 = month + 1 + n + 1 := by omega
      rw [hindex] at hrest
      have hrest' : daysBeforeMonth year (month + 1) + (rest - monthLength year month) <
          daysBeforeMonth year (month + 1 + n + 1) := by omega
      have hmonth' : 1 ≤ month + 1 := by omega
      obtain ⟨m, d, heq, hle, hm, hd, hdays⟩ := ih _ hmonth' hrest'
      exact ⟨m, d, heq, by omega, by omega, hd, by omega⟩

/-! ## Days -/

/-- **Every number of days leads to a day with this many days before it.** -/
theorem ofDays_spec (days : ℤ) : (ofDays days).isValid = true ∧ (ofDays days).toDays = days := by
  obtain ⟨hlower, hupper⟩ := yearOf_bounds days
  rw [daysBeforeYear_succ] at hupper
  have hfirst : daysBeforeMonth (yearOf days) 1 = 0 := rfl
  have hrest : daysBeforeMonth (yearOf days) 1 + (days - daysBeforeYear (yearOf days)).toNat <
      daysBeforeMonth (yearOf days) (1 + 11 + 1) := by
    rw [daysBeforeMonth_thirteen, hfirst]
    omega
  obtain ⟨m, d, heq, hle, hm, hd, hdays⟩ := monthOf_spec 11 _ le_rfl hrest
  rw [ofDays, heq]
  refine ⟨?_, ?_⟩
  · simp [isValid]
    omega
  · simp only [toDays]
    omega

end Punter.Date
