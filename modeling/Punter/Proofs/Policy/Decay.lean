/-
# Decayed policies

A policy that may be used may still be used after it has decayed, and it never explores more than
before: the probability of exploring falls to a part of itself and is then cut off at the floor,
which it was not below.

Cutting off now and decaying later comes to the same as cutting off later, because what is at the
floor does not rise again.  So many decays at once have a closed form: this is
`iterate_decay_closed`.  The count of the decays has 64 bits, and is right as long as it fits.
-/
import Mathlib
import Punter.Proofs.Number.Exact
import Punter.Policy

namespace Punter

namespace Number

/-- Counting on, as long as the count fits. -/
lemma iterate_next64 {c n : ℕ} (h : c + n < UInt64.size) : next64^[n] c = c + n := by
  induction n with
  | zero => rfl
  | succ n ih =>
    rw [Function.iterate_succ_apply', ih (by omega), next64_of_lt (by omega), Nat.add_assoc]

/-- Counting on is the addition of words, whether the count fits or not. -/
lemma ofNat_iterate_next64 (c n : ℕ) :
    UInt64.ofNat (next64^[n] c) = UInt64.ofNat c + UInt64.ofNat n := by
  induction n with
  | zero => exact (UInt64.add_zero _).symm
  | succ n ih =>
    have hnext : ∀ m, UInt64.ofNat (next64 m) = UInt64.ofNat m + 1 := by
      intro m
      rw [next64, UInt64.ofNat_mod_size, UInt64.ofNat_add]
      rfl
    rw [Function.iterate_succ_apply', hnext, ih, UInt64.add_assoc, UInt64.ofNat_add]
    rfl

end Number

namespace Policy

@[simp] lemma floor_eq : (floor : ℚ) = 1 / 20 := by norm_num [floor]

/-- What a policy has to satisfy to be used. -/
structure Usable (p : Policy ℚ) : Prop where
  floor_le : 1 / 20 ≤ p.epsilon
  epsilon_le : p.epsilon ≤ 1
  rate_pos : 0 < p.decayRate
  rate_le : p.decayRate ≤ 1

/-- With exact numbers, the policies that are accepted are those that may be used. -/
lemma check_eq_ok_iff (p : Policy ℚ) : p.check = .ok () ↔ p.Usable := by
  have hflaw : p.flaw? = none ↔ p.Usable := by
    simp only [flaw?, floor_eq, Scalar.zero_eq, Scalar.one_eq]
    constructor
    · intro h
      split_ifs at h with hepsilon hrate
      rw [Bool.not_eq_true', Bool.not_eq_false, Scalar.within_iff] at hepsilon
      exact ⟨hepsilon.1, hepsilon.2, hrate.1, hrate.2⟩
    · intro h
      have hwithin : Scalar.within (1 / 20) 1 p.epsilon = true :=
        (Scalar.within_iff _ _ _).mpr ⟨h.floor_le, h.epsilon_le⟩
      rw [hwithin, if_neg (by simp), if_neg (not_not.mpr ⟨h.rate_pos, h.rate_le⟩)]
  rw [← hflaw, check]
  cases p.flaw? <;> simp

lemma epsilon_decay (p : Policy ℚ) : p.decay.epsilon = max (1 / 20) (p.epsilon * p.decayRate) := by
  rw [decay, Scalar.atLeast_eq, floor_eq]

variable {p : Policy ℚ}

lemma Usable.epsilon_decay_le (hp : p.Usable) : p.decay.epsilon ≤ p.epsilon := by
  rw [epsilon_decay]
  exact max_le hp.floor_le (mul_le_of_le_one_right (by linarith [hp.floor_le]) hp.rate_le)

lemma Usable.decay (hp : p.Usable) : p.decay.Usable where
  floor_le := by
    rw [epsilon_decay]
    exact le_max_left _ _
  epsilon_le := hp.epsilon_decay_le.trans hp.epsilon_le
  rate_pos := hp.rate_pos
  rate_le := hp.rate_le

/-! ## Many episodes -/

lemma Usable.iterate_decay (hp : p.Usable) (n : ℕ) : (Policy.decay^[n] p).Usable := by
  induction n with
  | zero => exact hp
  | succ n ih =>
    rw [Function.iterate_succ_apply']
    exact ih.decay

/-- The floor that is cut off at in between makes no difference in the end: a part of the floor lies
below the floor. -/
lemma Usable.max_max_mul (hp : p.Usable) (x : ℚ) :
    max (1 / 20) (max (1 / 20) x * p.decayRate) = max (1 / 20) (x * p.decayRate) := by
  have hpart : 1 / 20 * p.decayRate ≤ 1 / 20 := mul_le_of_le_one_right (by norm_num) hp.rate_le
  rw [max_mul_of_nonneg _ _ hp.rate_pos.le, ← max_assoc, max_eq_left hpart]

lemma Usable.iterate_decay_eq (hp : p.Usable) (n : ℕ) :
    Policy.decay^[n] p =
      ⟨max (1 / 20) (p.epsilon * p.decayRate ^ n), Number.next64^[n] p.episodes,
        p.decayRate⟩ := by
  induction n with
  | zero => rw [pow_zero, mul_one, max_eq_right hp.floor_le, Function.iterate_zero_apply,
      Function.iterate_zero_apply]
  | succ n ih =>
    rw [Function.iterate_succ_apply', ih, Policy.decay, Scalar.atLeast_eq, floor_eq,
      hp.max_max_mul, mul_assoc, ← pow_succ, Function.iterate_succ_apply']

lemma Usable.antitone_epsilon (hp : p.Usable) : Antitone fun n => (Policy.decay^[n] p).epsilon := by
  refine antitone_nat_of_succ_le fun n => ?_
  rw [Function.iterate_succ_apply']
  exact (hp.iterate_decay n).epsilon_decay_le

/-- **Decay.**  After any number of decays the probability of exploring is the one at the beginning
times a power of the rate, cut off at the floor; every decay was counted, as long as the count fits
into 64 bits, the rate is still the same, and the policy is still accepted.  So the probability never
rises, stays at the floor once it is there, and it does not matter in how many goes the decays are
made. -/
theorem iterate_decay_closed (hp : p.check = .ok ()) :
    (∀ n, (decay^[n] p).epsilon = max (1 / 20) (p.epsilon * p.decayRate ^ n) ∧
      (decay^[n] p).decayRate = p.decayRate ∧ (decay^[n] p).check = .ok () ∧
      (p.episodes + n < UInt64.size → decay^[n] p =
        ⟨max (1 / 20) (p.epsilon * p.decayRate ^ n), p.episodes + n, p.decayRate⟩)) ∧
      Antitone (fun n => (decay^[n] p).epsilon) ∧
      (∀ n m, n ≤ m → (decay^[n] p).epsilon = 1 / 20 → (decay^[m] p).epsilon = 1 / 20) ∧
      ∀ n m, decay^[m] (decay^[n] p) = decay^[n + m] p := by
  rw [check_eq_ok_iff] at hp
  refine ⟨fun n => ⟨by rw [hp.iterate_decay_eq], by rw [hp.iterate_decay_eq], ?_, fun hn => ?_⟩,
    hp.antitone_epsilon, fun n m hnm hn => ?_, fun n m => ?_⟩
  · rw [check_eq_ok_iff]
    exact hp.iterate_decay n
  · rw [hp.iterate_decay_eq, Number.iterate_next64 hn]
  · have hle : (decay^[m] p).epsilon ≤ (decay^[n] p).epsilon := hp.antitone_epsilon hnm
    exact le_antisymm (hle.trans hn.le) (hp.iterate_decay m).floor_le
  · rw [Nat.add_comm, Function.iterate_add_apply]

/-- A probability that meets the floor exactly, after two decays, and is cut off from then on. -/
theorem iterate_decay_closed_five :
    let p : Policy ℚ := ⟨1 / 5, 7, 1 / 2⟩
    p.check = .ok () ∧ decay^[2] p = ⟨1 / 20, 9, 1 / 2⟩ ∧ decay^[3] (decay^[2] p) = decay^[5] p ∧
      decay^[5] p = ⟨1 / 20, 12, 1 / 2⟩ ∧ (decay^[5] p).check = .ok () := by
  intro p
  have hp : p.check = .ok () := by decide +kernel
  obtain ⟨hclosed, -, -, hsum⟩ := iterate_decay_closed hp
  refine ⟨hp, ?_, hsum 2 3, ?_, (hclosed 5).2.2.1⟩
  · rw [(hclosed 2).2.2.2 (by decide)]
    norm_num [p]
  · rw [(hclosed 5).2.2.2 (by decide)]
    norm_num [p]

end Policy

end Punter
