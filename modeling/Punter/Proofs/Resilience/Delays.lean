/-
# The course of the delays

As long as the power of two fits into 32 bits, a delay is the base times this power, cut off at the
cap; from then on it is the cap.  So delays never fall, and never exceed the cap.

The product without any bound, cut off at the cap, is a shorter delay where it stays below the cap
although the power has become too large: with a base of zero, and with a base that is small against
the cap.  `Backoff.delay_eq_min_iff` says that the two differ nowhere else.
-/
import Mathlib
import Punter.Resilience.Backoff

namespace Punter

namespace Duration

/-- Shorter than `2 ^ 64` seconds, as all durations are. -/
def InRange (d : Duration) : Prop := d.nanos < UInt64.size * nanosPerSecond

instance (d : Duration) : Decidable d.InRange := inferInstanceAs (Decidable (_ < _))

lemma min_eq (a b : Duration) : Duration.min a b = ⟨Min.min a.nanos b.nanos⟩ := by
  unfold Duration.min
  split
  · next h => rw [min_eq_right h.le]
  · next h => rw [min_eq_left (not_lt.mp h)]

end Duration

namespace Backoff

variable {b : Backoff} {k : ℕ}

/-- The product is not a duration, or the power is too large. -/
lemma delay_of_none (h : k < 32 → b.base.scale? (2 ^ k) = none) : b.delay k = b.cap := by
  have hproduct : (if k < 32 then b.base.scale? (2 ^ k) else none) = none := by
    split
    · next hk => exact h hk
    · rfl
  rw [delay, hproduct, Option.getD_none, Duration.min_eq, min_self]

lemma delay_of_le (hk : 32 ≤ k) : b.delay k = b.cap :=
  delay_of_none fun h => absurd h (not_lt.mpr hk)

lemma delay_of_some {d : Duration} (hk : k < 32) (h : b.base.scale? (2 ^ k) = some d) :
    b.delay k = Duration.min d b.cap := by
  rw [delay, if_pos hk, h, Option.getD_some]

/-- A product that is not a duration is longer than the cap, which is one. -/
lemma delay_of_lt (hcap : b.cap.InRange) (hk : k < 32) :
    b.delay k = ⟨min (b.base.nanos * 2 ^ k) b.cap.nanos⟩ := by
  by_cases hproduct : b.base.nanos * 2 ^ k < UInt64.size * Duration.nanosPerSecond
  · rw [delay_of_some hk (if_pos hproduct), Duration.min_eq]
  · have hle : b.cap.nanos ≤ b.base.nanos * 2 ^ k := hcap.le.trans (not_lt.mp hproduct)
    rw [delay_of_none fun _ => if_neg hproduct, min_eq_right hle]

lemma delay_le_cap (b : Backoff) (k : ℕ) : (b.delay k).nanos ≤ b.cap.nanos := by
  rw [delay, Duration.min_eq]
  exact min_le_right _ _

/-- Delays never fall: up to the cap each doubles the one before, and the cap is the longest. -/
lemma monotone_delay (b : Backoff) : Monotone fun k => (b.delay k).nanos := by
  intro j k hjk
  dsimp only
  by_cases hk : k < 32 ∧ b.base.nanos * 2 ^ k < UInt64.size * Duration.nanosPerSecond
  · have hle : b.base.nanos * 2 ^ j ≤ b.base.nanos * 2 ^ k :=
      Nat.mul_le_mul_left _ (Nat.pow_le_pow_right two_pos hjk)
    rw [delay_of_some (hjk.trans_lt hk.1) (if_pos (hle.trans_lt hk.2)),
      delay_of_some hk.1 (if_pos hk.2), Duration.min_eq, Duration.min_eq]
    exact min_le_min_right _ hle
  · have hcap : b.delay k = b.cap := delay_of_none fun h => if_neg fun h' => hk ⟨h, h'⟩
    rw [hcap]
    exact b.delay_le_cap j

/-- **Delays.**  The delay after an attempt is the base doubled as often as attempts came before,
or the cap if that is shorter, for all attempts up to the 32nd; for a later attempt it is the cap,
and so it is the shorter one of the two only if the product has reached the cap. -/
theorem delay_eq_min_iff (b : Backoff) (hcap : b.cap.InRange) (attempt : ℕ) :
    (b.delay attempt = ⟨min (b.base.nanos * 2 ^ attempt) b.cap.nanos⟩ ↔
        attempt < 32 ∨ b.cap.nanos ≤ b.base.nanos * 2 ^ attempt) ∧
      (32 ≤ attempt → b.delay attempt = b.cap) := by
  refine ⟨?_, delay_of_le⟩
  rcases lt_or_ge attempt 32 with h | h
  · exact ⟨fun _ => .inl h, fun _ => delay_of_lt hcap h⟩
  · rw [delay_of_le h]
    constructor
    · intro heq
      have hnanos : b.cap.nanos = min (b.base.nanos * 2 ^ attempt) b.cap.nanos :=
        congrArg Duration.nanos heq
      exact .inr (min_eq_right_iff.mp hnanos.symm)
    · rintro (hlt | hle)
      · exact absurd hlt (not_lt.mpr h)
      · rw [min_eq_right hle]

/-- A millisecond doubled 32 times is still shorter than a cap of some months. -/
theorem delay_eq_min_iff_months :
    let b : Backoff := ⟨40, .ofMillis 1, .ofSeconds 10000000⟩
    b.cap.InRange ∧ b.delay 31 = .ofMillis 2147483648 ∧ b.delay 32 = .ofSeconds 10000000 ∧
      b.delay 32 ≠ ⟨min (b.base.nanos * 2 ^ 32) b.cap.nanos⟩ := by
  intro b
  have hcap : b.cap.InRange := by decide
  obtain ⟨hiff, hlate⟩ := delay_eq_min_iff b hcap 32
  refine ⟨hcap, ?_, hlate le_rfl, fun h => ?_⟩
  · rw [(delay_eq_min_iff b hcap 31).1.mpr (.inl (by decide))]
    norm_num [b, Duration.ofMillis, Duration.ofSeconds, Duration.nanosPerMilli,
      Duration.nanosPerSecond]
  · exact absurd (hiff.mp h) (by decide)

/-- Delays without a base, which might be expected to be no delays at all, come to the cap. -/
theorem delay_of_zero_base_ne_min :
    ¬ ∀ (b : Backoff) (attempt : ℕ), b.maxRetries < UInt32.size → b.base.InRange →
      b.cap.InRange → attempt < UInt32.size →
      b.delay attempt = ⟨min (b.base.nanos * 2 ^ attempt) b.cap.nanos⟩ := by
  intro h
  have hzero := h ⟨40, .zero, .ofMillis 5000⟩ 32 (by decide) (by decide) (by decide) (by decide)
  exact absurd hzero (by decide)

end Backoff

end Punter
