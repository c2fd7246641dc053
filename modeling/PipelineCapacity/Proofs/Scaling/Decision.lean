import PipelineCapacity.Proofs.Scaling.Window
import PipelineCapacity.Scaling.Hysteresis

/-!
What one observation can do to a scaler, in any arithmetic. It records the
throughput and then takes exactly one of three courses; every other statement
about observations is read off these. No observation touches the rule or the
capacities of the windows, so a reset always leads back to the new scaler.
-/

set_option autoImplicit false

namespace PipelineCapacity.Scaler

variable {α : Type} [Quantity α] {scaler : Scaler α} {throughput unitCapacity : α}

theorem observe_up (wanted : (scaler.record throughput).wantsUp unitCapacity = true) :
    scaler.observe throughput unitCapacity =
      (.up, { scaler.record throughput with
        units := Nat.min (scaler.units + 1) maxUnits, since := 0 }) :=
  if_pos wanted

theorem observe_down (calm : (scaler.record throughput).wantsUp unitCapacity = false)
    (wanted : (scaler.record throughput).wantsDown unitCapacity = true) :
    scaler.observe throughput unitCapacity =
      (.down, { scaler.record throughput with units := scaler.units - 1, since := 0 }) := by
  unfold observe
  dsimp only
  rw [calm, if_neg Bool.false_ne_true, wanted, if_pos rfl]
  rfl

theorem observe_maintain (calm : (scaler.record throughput).wantsUp unitCapacity = false)
    (busy : (scaler.record throughput).wantsDown unitCapacity = false) :
    scaler.observe throughput unitCapacity = (.maintain, scaler.record throughput) := by
  unfold observe
  dsimp only
  rw [calm, if_neg Bool.false_ne_true, busy, if_neg Bool.false_ne_true]

theorem observe_cases (scaler : Scaler α) (throughput unitCapacity : α) :
    ((scaler.record throughput).wantsUp unitCapacity = true ∧
      scaler.observe throughput unitCapacity =
        (.up, { scaler.record throughput with
          units := Nat.min (scaler.units + 1) maxUnits, since := 0 })) ∨
    ((scaler.record throughput).wantsUp unitCapacity = false ∧
      (scaler.record throughput).wantsDown unitCapacity = true ∧
      scaler.observe throughput unitCapacity =
        (.down, { scaler.record throughput with units := scaler.units - 1, since := 0 })) ∨
    ((scaler.record throughput).wantsUp unitCapacity = false ∧
      (scaler.record throughput).wantsDown unitCapacity = false ∧
      scaler.observe throughput unitCapacity = (.maintain, scaler.record throughput)) := by
  cases rising : (scaler.record throughput).wantsUp unitCapacity with
  | true => exact .inl ⟨rfl, observe_up rising⟩
  | false =>
      cases falling : (scaler.record throughput).wantsDown unitCapacity with
      | true => exact .inr (.inl ⟨rfl, rfl, observe_down rising falling⟩)
      | false => exact .inr (.inr ⟨rfl, rfl, observe_maintain rising falling⟩)

/-- Only the count of units and the count of steps depend on the answer. -/
theorem observe_recorded (scaler : Scaler α) (throughput unitCapacity : α) :
    (scaler.observe throughput unitCapacity).2 = { scaler.record throughput with
      units := (scaler.observe throughput unitCapacity).2.units
      since := (scaler.observe throughput unitCapacity).2.since } := by
  rcases observe_cases scaler throughput unitCapacity with
    ⟨_, course⟩ | ⟨_, _, course⟩ | ⟨_, _, course⟩
  · rw [course]
  · rw [course]
  · rw [course]

theorem observe_waiting (up : scaler.since + 1 < scaler.rule.upDelay)
    (down : scaler.since + 1 < scaler.rule.downDelay) :
    scaler.observe throughput unitCapacity = (.maintain, scaler.record throughput) := by
  have earlyUp : ¬(scaler.record throughput).since ≥ (scaler.record throughput).rule.upDelay :=
    Nat.not_le.mpr up
  have earlyDown :
      ¬(scaler.record throughput).since ≥ (scaler.record throughput).rule.downDelay :=
    Nat.not_le.mpr down
  apply observe_maintain
  · unfold wantsUp
    rw [decide_eq_false earlyUp, Bool.false_and]
  · unfold wantsDown
    rw [decide_eq_false earlyDown, Bool.false_and, Bool.false_and]

theorem one_lt_units_of_wantsDown (wanted : scaler.wantsDown unitCapacity = true) :
    1 < scaler.units := by
  unfold wantsDown at wanted
  rw [Bool.and_eq_true] at wanted
  exact of_decide_eq_true wanted.2

theorem observe_units_pos (positive : 1 ≤ scaler.units) :
    1 ≤ (scaler.observe throughput unitCapacity).2.units := by
  obtain ⟨_, course⟩ | ⟨_, wanted, course⟩ | ⟨_, _, course⟩ :=
    observe_cases scaler throughput unitCapacity
  · rw [course]
    exact Nat.le_min.mpr ⟨Nat.le_add_left 1 _, by decide⟩
  · have several : 1 < (scaler.record throughput).units := one_lt_units_of_wantsDown wanted
    rw [course]
    exact Nat.le_sub_of_add_le several
  · rw [course]
    exact positive

theorem observe_units_le (bounded : scaler.units ≤ maxUnits) :
    (scaler.observe throughput unitCapacity).2.units ≤ maxUnits := by
  obtain ⟨_, course⟩ | ⟨_, _, course⟩ | ⟨_, _, course⟩ :=
    observe_cases scaler throughput unitCapacity
  · rw [course]
    exact Nat.min_le_right _ _
  · rw [course]
    exact (Nat.sub_le _ _).trans bounded
  · rw [course]
    exact bounded

/-- The scaler obeys a rule: its windows have the capacities of the delays. -/
structure Fits (scaler : Scaler α) (rule : ScalingRule α) : Prop where
  rule_eq : scaler.rule = rule
  upCapacity : scaler.upWindow.capacity = Nat.max rule.upDelay 1
  downCapacity : scaler.downWindow.capacity = Nat.max rule.downDelay 1

theorem fits_ofRule (rule : ScalingRule α) : (ofRule rule).Fits rule := ⟨rfl, rfl, rfl⟩

theorem Fits.observe {rule : ScalingRule α} (fits : scaler.Fits rule)
    (throughput unitCapacity : α) :
    (scaler.observe throughput unitCapacity).2.Fits rule := by
  have upCapacity := (Window.push_capacity scaler.upWindow throughput).trans fits.upCapacity
  have downCapacity :=
    (Window.push_capacity scaler.downWindow throughput).trans fits.downCapacity
  rw [observe_recorded]
  exact ⟨fits.rule_eq, upCapacity, downCapacity⟩

/-- A reset forgets everything but the rule. -/
theorem Fits.reset_eq {rule : ScalingRule α} (fits : scaler.Fits rule) :
    scaler.reset = ofRule rule := by
  unfold reset ofRule Window.clear Window.ofCapacity
  rw [fits.rule_eq, fits.upCapacity, fits.downCapacity]

end PipelineCapacity.Scaler
