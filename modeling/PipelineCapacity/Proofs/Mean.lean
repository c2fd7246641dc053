import PipelineCapacity.Proofs.Exact

/-!
Mean and greatest of some amounts, in exact arithmetic. The mean is between the
bounds of the amounts, and the mean of two lists, one after the other, weighs the
mean of each by its length.
-/

set_option autoImplicit false

namespace PipelineCapacity

def mean (samples : List ℚ) : ℚ := samples.sum / samples.length

variable {samples first second : List ℚ} {bound : ℚ}

theorem le_mean (present : samples ≠ []) (atLeast : ∀ sample ∈ samples, bound ≤ sample) :
    bound ≤ mean samples := by
  have total := List.card_nsmul_le_sum samples bound atLeast
  rw [nsmul_eq_mul, mul_comm] at total
  rw [mean, le_div_iff₀ (Nat.cast_pos.mpr (List.length_pos_of_ne_nil present))]
  exact total

theorem mean_le (present : samples ≠ []) (atMost : ∀ sample ∈ samples, sample ≤ bound) :
    mean samples ≤ bound := by
  have total := List.sum_le_card_nsmul samples bound atMost
  rw [nsmul_eq_mul, mul_comm] at total
  rw [mean, div_le_iff₀ (Nat.cast_pos.mpr (List.length_pos_of_ne_nil present))]
  exact total

theorem exists_lt_of_mean_lt (present : samples ≠ []) (low : mean samples < bound) :
    ∃ sample ∈ samples, sample < bound := by
  by_contra none
  have atLeast : ∀ sample ∈ samples, bound ≤ sample := by
    intro sample member
    by_contra less
    exact none ⟨sample, member, not_le.mp less⟩
  exact absurd (le_mean present atLeast) (not_le.mpr low)

theorem exists_gt_of_lt_mean (present : samples ≠ []) (high : bound < mean samples) :
    ∃ sample ∈ samples, bound < sample := by
  by_contra none
  have atMost : ∀ sample ∈ samples, sample ≤ bound := by
    intro sample member
    by_contra more
    exact none ⟨sample, member, not_le.mp more⟩
  exact absurd (mean_le present atMost) (not_le.mpr high)

theorem mean_mul_length (samples : List ℚ) : mean samples * samples.length = samples.sum := by
  unfold mean
  cases samples with
  | nil => simp
  | cons sample rest => exact div_mul_cancel₀ _ (Nat.cast_ne_zero.mpr (Nat.succ_ne_zero _))

theorem mean_perm (perm : first.Perm second) : mean first = mean second := by
  rw [mean, mean, perm.sum_eq, perm.length_eq]

theorem mean_append (first second : List ℚ) :
    mean (first ++ second) =
      (first.length * mean first + second.length * mean second) /
        (first.length + second.length) := by
  rw [mean, List.sum_append, List.length_append, Nat.cast_add, mul_comm _ (mean first),
    mul_comm _ (mean second), mean_mul_length, mean_mul_length]

namespace Quantity

/-- The first amount is comparable, so there is a greatest one from then on. -/
theorem peak_cons (amount : ℚ) (rest : List ℚ) :
    peak (amount :: rest) = rest.foldl Max.max amount := by
  have comparable : isComparable amount = true := beq_self_eq_true amount
  unfold peak
  rw [List.foldl_cons]
  dsimp only
  rw [if_pos comparable, List.foldl_hom some]
  · rfl
  · intro greatest other
    exact congrArg some (max_rat greatest other)

theorem max?_eq_peak (present : samples ≠ []) : samples.max? = some (peak samples) := by
  cases samples with
  | nil => exact absurd rfl present
  | cons sample rest => rw [List.max?_cons', peak_cons]

theorem meanAndPeak_rat (present : samples ≠ []) :
    meanAndPeak samples = some (mean samples, peak samples) := by
  cases samples with
  | nil => exact absurd rfl present
  | cons sample rest =>
      unfold meanAndPeak mean
      dsimp only
      rw [zero_rat, ofNat_rat, ← List.sum_eq_foldl]

end Quantity

end PipelineCapacity
