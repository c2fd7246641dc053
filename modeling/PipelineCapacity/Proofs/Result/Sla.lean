import Mathlib.Data.List.Forall2
import PipelineCapacity.Proofs.Exact
import PipelineCapacity.Proofs.Failure
import PipelineCapacity.Result

/-!
Agreements checked against series, in exact arithmetic: when a check gives a
verdict, and how lower latencies, a looser agreement and further hours move it.
-/

set_option autoImplicit false

namespace PipelineCapacity.Sla

/-- In any arithmetic, both thresholds pass their checks and there is an hour. -/
theorem evaluate_eq_ok_iff_checks {α : Type} [Quantity α] {sla : Sla α}
    {series : ResultSeries α} {result : SlaResult α} :
    sla.evaluate series = .ok result ↔
      (requireNonNegative "latency_sla_limit" sla.latencyLimit = .ok () ∧
        requireNonNegative "latency_sla_percent" sla.requiredPercent = .ok () ∧
        series.rows ≠ []) ∧
      result = ⟨decide (sla.requiredPercent ≤ sla.percentWithin series),
        sla.percentWithin series⟩ := by
  constructor
  · intro accepted
    obtain ⟨_, limit, accepted⟩ := bind_eq_ok_iff.mp accepted
    obtain ⟨_, percent, accepted⟩ := bind_eq_ok_iff.mp accepted
    split at accepted
    · cases accepted
    · rename_i present
      cases accepted
      exact ⟨⟨refuse_eq_ok_iff.mp limit, refuse_eq_ok_iff.mp percent,
        fun vacant => present (List.isEmpty_iff.mpr vacant)⟩, rfl⟩
  · rintro ⟨⟨limit, percent, present⟩, rfl⟩
    refine bind_eq_ok_iff.mpr ⟨(), refuse_eq_ok_iff.mpr limit, ?_⟩
    refine bind_eq_ok_iff.mpr ⟨(), refuse_eq_ok_iff.mpr percent, ?_⟩
    rw [if_neg fun vacant => present (List.isEmpty_iff.mp vacant)]
    rfl

theorem evaluate_eq_ok_iff {sla : Sla ℚ} {series : ResultSeries ℚ} {result : SlaResult ℚ} :
    sla.evaluate series = .ok result ↔
      (0 ≤ sla.latencyLimit ∧ 0 ≤ sla.requiredPercent ∧ series.rows ≠ []) ∧
        result = ⟨decide (sla.requiredPercent ≤ sla.percentWithin series),
          sla.percentWithin series⟩ := by
  rw [evaluate_eq_ok_iff_checks, requireNonNegative_rat, requireNonNegative_rat]

theorem percentWithin_rat (sla : Sla ℚ) (series : ResultSeries ℚ) :
    sla.percentWithin series = 100 * (sla.countWithin series : ℚ) / (series.length : ℚ) := by
  unfold percentWithin
  rw [Quantity.ofNat_rat, Quantity.ofNat_rat, Quantity.ofNat_rat, Nat.cast_ofNat]

variable {faster slower : ResultSeries ℚ}

theorem countWithin_le (sla : Sla ℚ)
    (ordered : List.Forall₂ (fun quick slow => quick.latencyFifo ≤ slow.latencyFifo)
      faster.rows slower.rows) :
    sla.countWithin slower ≤ sla.countWithin faster := by
  unfold countWithin
  generalize faster.rows = quickRows, slower.rows = slowRows at ordered
  induction ordered with
  | nil => exact Nat.le_refl _
  | @cons quick slow _ _ less _ ih =>
      rw [List.countP_cons, List.countP_cons]
      by_cases within : slow.latencyFifo < sla.latencyLimit
      · have earlier := less.trans_lt within
        simp only [within, earlier, decide_true, if_true]
        omega
      · simp only [within, decide_false, Bool.false_eq_true, if_false]
        omega

theorem percentWithin_le (sla : Sla ℚ)
    (ordered : List.Forall₂ (fun quick slow => quick.latencyFifo ≤ slow.latencyFifo)
      faster.rows slower.rows) :
    sla.percentWithin slower ≤ sla.percentWithin faster := by
  have counts : (sla.countWithin slower : ℚ) ≤ sla.countWithin faster :=
    Nat.cast_le.mpr (sla.countWithin_le ordered)
  have lengths : slower.length = faster.length := ordered.length_eq.symm
  rw [percentWithin_rat, percentWithin_rat, lengths]
  gcongr

theorem exists_evaluate_iff {sla : Sla ℚ} {series : ResultSeries ℚ} :
    (∃ result, sla.evaluate series = .ok result) ↔
      0 ≤ sla.latencyLimit ∧ 0 ≤ sla.requiredPercent ∧ series.rows ≠ [] := by
  simp only [evaluate_eq_ok_iff, exists_and_left, exists_eq, and_true]

/-- Lower latencies are judged under the same agreements, and no worse. -/
theorem evaluate_no_worse (sla : Sla ℚ)
    (ordered : List.Forall₂ (fun quick slow => quick.latencyFifo ≤ slow.latencyFifo)
      faster.rows slower.rows) :
    ((∃ result, sla.evaluate faster = .ok result) ↔
      ∃ result, sla.evaluate slower = .ok result) ∧
    ∀ quick slow, sla.evaluate faster = .ok quick → sla.evaluate slower = .ok slow →
      slow.percentWithin ≤ quick.percentWithin ∧ (slow.met = true → quick.met = true) := by
  have vacant : faster.rows = [] ↔ slower.rows = [] := by
    rw [← List.length_eq_zero_iff, ordered.length_eq, List.length_eq_zero_iff]
  constructor
  · rw [exists_evaluate_iff, exists_evaluate_iff, ne_eq, ne_eq, vacant]
  · intro quick slow quickVerdict slowVerdict
    have percents := sla.percentWithin_le ordered
    obtain ⟨_, rfl⟩ := evaluate_eq_ok_iff.mp quickVerdict
    obtain ⟨_, rfl⟩ := evaluate_eq_ok_iff.mp slowVerdict
    refine ⟨percents, fun met => decide_eq_true ?_⟩
    exact (of_decide_eq_true met).trans percents

section Threshold

variable {sla looser : Sla ℚ} {series : ResultSeries ℚ}

theorem countWithin_le_length (sla : Sla ℚ) (series : ResultSeries ℚ) :
    sla.countWithin series ≤ series.length := List.countP_le_length

/-- The percentage is compared with its bound as the hours are with theirs. -/
theorem le_percentWithin_iff (present : series.rows ≠ []) (percent : ℚ) :
    percent ≤ sla.percentWithin series ↔
      percent * (series.length : ℚ) ≤ 100 * (sla.countWithin series : ℚ) := by
  have hours : (0 : ℚ) < series.length :=
    Nat.cast_pos.mpr (List.length_pos_of_ne_nil present)
  rw [percentWithin_rat, le_div_iff₀ hours]

theorem percentWithin_nonneg (sla : Sla ℚ) (series : ResultSeries ℚ) :
    0 ≤ sla.percentWithin series := by
  rw [percentWithin_rat]
  positivity

theorem percentWithin_le_hundred (sla : Sla ℚ) (series : ResultSeries ℚ) :
    sla.percentWithin series ≤ 100 := by
  have counts : (sla.countWithin series : ℚ) ≤ series.length :=
    Nat.cast_le.mpr (sla.countWithin_le_length series)
  rw [percentWithin_rat]
  apply div_le_of_le_mul₀ (Nat.cast_nonneg _) (by norm_num)
  exact mul_le_mul_of_nonneg_left counts (by norm_num)

theorem countWithin_le_of_limit_le (higher : sla.latencyLimit ≤ looser.latencyLimit)
    (series : ResultSeries ℚ) : sla.countWithin series ≤ looser.countWithin series := by
  apply List.countP_mono_left
  intro row _ within
  exact decide_eq_true ((of_decide_eq_true within).trans_le higher)

theorem percentWithin_le_of_limit_le (higher : sla.latencyLimit ≤ looser.latencyLimit)
    (series : ResultSeries ℚ) : sla.percentWithin series ≤ looser.percentWithin series := by
  have counts : (sla.countWithin series : ℚ) ≤ looser.countWithin series :=
    Nat.cast_le.mpr (countWithin_le_of_limit_le higher series)
  rw [percentWithin_rat, percentWithin_rat]
  gcongr

/-- The order of the hours is of no concern. -/
theorem percentWithin_perm {rows : List (ResultRow ℚ)} (perm : rows.Perm series.rows) :
    sla.percentWithin ⟨rows⟩ = sla.percentWithin series := by
  have counts : sla.countWithin ⟨rows⟩ = sla.countWithin series := perm.countP_eq _
  have hours : (⟨rows⟩ : ResultSeries ℚ).length = series.length := perm.length_eq
  rw [percentWithin_rat, percentWithin_rat, counts, hours]

section Append

variable {row : ResultRow ℚ}

theorem length_concat (series : ResultSeries ℚ) (row : ResultRow ℚ) :
    (⟨series.rows ++ [row]⟩ : ResultSeries ℚ).length = series.length + 1 :=
  List.length_append

theorem countWithin_concat_of_lt (within : row.latencyFifo < sla.latencyLimit) :
    sla.countWithin ⟨series.rows ++ [row]⟩ = sla.countWithin series + 1 := by
  unfold countWithin
  rw [List.countP_append, List.countP_singleton, if_pos (decide_eq_true within)]

theorem countWithin_concat_of_not_lt (outside : ¬row.latencyFifo < sla.latencyLimit) :
    sla.countWithin ⟨series.rows ++ [row]⟩ = sla.countWithin series := by
  unfold countWithin
  rw [List.countP_append, List.countP_singleton, if_neg (by simpa using outside), Nat.add_zero]

variable (present : series.rows ≠ [])

include present

theorem percentWithin_le_concat (within : row.latencyFifo < sla.latencyLimit) :
    sla.percentWithin series ≤ sla.percentWithin ⟨series.rows ++ [row]⟩ := by
  have hours : (0 : ℚ) < series.length :=
    Nat.cast_pos.mpr (List.length_pos_of_ne_nil present)
  have counts : (sla.countWithin series : ℚ) ≤ series.length :=
    Nat.cast_le.mpr (sla.countWithin_le_length series)
  rw [percentWithin_rat, percentWithin_rat, countWithin_concat_of_lt within, length_concat]
  push_cast
  rw [div_le_div_iff₀ hours (by linarith)]
  linarith

theorem percentWithin_concat_le (outside : ¬row.latencyFifo < sla.latencyLimit) :
    sla.percentWithin ⟨series.rows ++ [row]⟩ ≤ sla.percentWithin series := by
  have hours : (0 : ℚ) < series.length :=
    Nat.cast_pos.mpr (List.length_pos_of_ne_nil present)
  rw [percentWithin_rat, percentWithin_rat, countWithin_concat_of_not_lt outside, length_concat]
  push_cast
  gcongr
  linarith

end Append

/-- An agreement that a check accepts is met exactly if enough of the hours stay
below its limit. A higher limit or a lower percentage is met as well, the order
of the hours is of no concern, and a further hour moves the percentage towards
what that hour is. -/
theorem evaluate_is_threshold (limit : 0 ≤ sla.latencyLimit) (percent : 0 ≤ sla.requiredPercent)
    (present : series.rows ≠ []) :
    ∃ result, sla.evaluate series = .ok result ∧
      (result.met = true ↔
        sla.requiredPercent * (series.rows.length : ℚ) ≤
          100 * ((series.rows.filter fun row => row.latencyFifo < sla.latencyLimit).length : ℚ)) ∧
      (0 ≤ result.percentWithin ∧ result.percentWithin ≤ 100) ∧
      (∀ looser : Sla ℚ, sla.latencyLimit ≤ looser.latencyLimit →
        0 ≤ looser.requiredPercent → looser.requiredPercent ≤ sla.requiredPercent →
        ∃ other, looser.evaluate series = .ok other ∧ (result.met = true → other.met = true)) ∧
      (∀ rows, rows.Perm series.rows → sla.evaluate ⟨rows⟩ = .ok result) ∧
      ∀ row, ∃ longer, sla.evaluate ⟨series.rows ++ [row]⟩ = .ok longer ∧
        (row.latencyFifo < sla.latencyLimit → result.percentWithin ≤ longer.percentWithin) ∧
        (¬row.latencyFifo < sla.latencyLimit → longer.percentWithin ≤ result.percentWithin) := by
  have verdict (sla : Sla ℚ) (series : ResultSeries ℚ) (limit : 0 ≤ sla.latencyLimit)
      (percent : 0 ≤ sla.requiredPercent) (present : series.rows ≠ []) :
      sla.evaluate series = .ok ⟨decide (sla.requiredPercent ≤ sla.percentWithin series),
        sla.percentWithin series⟩ :=
    evaluate_eq_ok_iff.mpr ⟨⟨limit, percent, present⟩, rfl⟩
  have counted : (series.rows.filter fun row => row.latencyFifo < sla.latencyLimit).length =
      sla.countWithin series := List.countP_eq_length_filter.symm
  refine ⟨_, verdict sla series limit percent present, ?_,
    ⟨sla.percentWithin_nonneg series, sla.percentWithin_le_hundred series⟩, ?_, ?_, ?_⟩
  · rw [counted, decide_eq_true_iff]
    exact le_percentWithin_iff present _
  · intro looser higher nonneg lower
    refine ⟨_, verdict looser series (limit.trans higher) nonneg present, fun met => ?_⟩
    have reached : sla.requiredPercent ≤ sla.percentWithin series := of_decide_eq_true met
    apply decide_eq_true
    calc
      looser.requiredPercent ≤ sla.requiredPercent := lower
      _ ≤ sla.percentWithin series := reached
      _ ≤ looser.percentWithin series := percentWithin_le_of_limit_le higher series
  · intro rows perm
    have kept : rows ≠ [] := fun vacant => present (List.nil_perm.mp (vacant ▸ perm))
    rw [verdict sla ⟨rows⟩ limit percent kept, percentWithin_perm perm]
  · intro row
    have longer : series.rows ++ [row] ≠ [] := List.append_ne_nil_of_right_ne_nil _ nofun
    exact ⟨_, verdict sla ⟨series.rows ++ [row]⟩ limit percent longer,
      percentWithin_le_concat present, percentWithin_concat_le present⟩

/-- Four hours below 100 seconds and one of exactly 100. -/
def lateOnce : ResultSeries ℚ :=
  ⟨[10, 99, 100, 70, 0].map fun latency =>
    .ofMetrics ⟨2025, 1, 1, .wed, 0⟩ 1 ⟨1, latency, latency, 0, 1, 1⟩⟩

/-- The percentage may be reached just so, the limit may not. -/
theorem evaluate_is_threshold_lateOnce :
    (0 ≤ (⟨100, 80⟩ : Sla ℚ).latencyLimit ∧ 0 ≤ (⟨100, 80⟩ : Sla ℚ).requiredPercent ∧
      lateOnce.rows ≠ []) ∧
    ∃ result, (⟨100, 80⟩ : Sla ℚ).evaluate lateOnce = .ok result ∧ result.met = true ∧
      (⟨100, 80⟩ : Sla ℚ).evaluate ⟨lateOnce.rows.reverse⟩ = .ok result := by
  have limit : 0 ≤ (⟨100, 80⟩ : Sla ℚ).latencyLimit := by decide
  have percent : 0 ≤ (⟨100, 80⟩ : Sla ℚ).requiredPercent := by decide
  have present : lateOnce.rows ≠ [] := nofun
  obtain ⟨result, judged, met, _, _, perm, _⟩ := evaluate_is_threshold limit percent present
  refine ⟨⟨limit, percent, present⟩, result, judged, met.mpr ?_,
    perm _ (List.reverse_perm lateOnce.rows)⟩
  decide +kernel

end Threshold

end PipelineCapacity.Sla
