import PipelineCapacity.Config
import PipelineCapacity.Proofs.Forecast.Positions
import PipelineCapacity.Proofs.Result.Summary
import PipelineCapacity.Proofs.Run.Job

/-!
Executing valid configurations. What is checked before a run is enough for the
forecast, the pipeline, the volumes and the summary. It is not enough for the
agreement: its thresholds only have to be finite then, and a negative one is
refused after the last hour.
-/

set_option autoImplicit false

namespace PipelineCapacity

open Quantity (isFinite zero)

variable {α : Type} [Quantity α]

namespace Sla

/-- Why an agreement is refused when it is checked: a negative threshold, the
limit before the percentage. -/
inductive Negative (sla : Sla α) : InvalidParameter α → Prop
  | limit (negative : sla.latencyLimit < zero) :
      Negative sla (.notNonNegative "latency_sla_limit" sla.latencyLimit)
  | percent (fine : ¬sla.latencyLimit < zero) (negative : sla.requiredPercent < zero) :
      Negative sla (.notNonNegative "latency_sla_percent" sla.requiredPercent)

variable {sla : Sla α} {series : ResultSeries α}

theorem evaluate_of_not_neg (limit : isFinite sla.latencyLimit = true)
    (percent : isFinite sla.requiredPercent = true) (limitSign : ¬sla.latencyLimit < zero)
    (percentSign : ¬sla.requiredPercent < zero) (present : series.rows ≠ []) :
    ∃ result, sla.evaluate series = .ok result := by
  refine ⟨_, evaluate_eq_ok_iff_checks.mpr ⟨⟨?_, ?_, present⟩, rfl⟩⟩
  · exact requireNonNegative_eq_ok_iff.mpr ⟨limit, limitSign⟩
  · exact requireNonNegative_eq_ok_iff.mpr ⟨percent, percentSign⟩

theorem Negative.evaluate {cause : InvalidParameter α} (negative : sla.Negative cause)
    (limit : isFinite sla.latencyLimit = true) :
    sla.evaluate series = .error (.invalidParameter cause) := by
  cases negative with
  | limit negative =>
      refine bind_eq_error_iff.mpr (.inl ?_)
      rw [requireNonNegative_of_not fun fine => fine.2 negative]
      rfl
  | percent fine negative =>
      refine bind_eq_error_iff.mpr (.inr ⟨(), ?_, bind_eq_error_iff.mpr (.inl ?_)⟩)
      · exact refuse_eq_ok_iff.mpr (requireNonNegative_eq_ok_iff.mpr ⟨limit, fine⟩)
      · rw [requireNonNegative_of_not fun fine => fine.2 negative]
        rfl

/-- Both thresholds not negative, or refused for one of them. -/
theorem not_neg_or_negative (sla : Sla α) :
    (¬sla.latencyLimit < zero ∧ ¬sla.requiredPercent < zero) ∨ ∃ cause, sla.Negative cause := by
  by_cases limit : sla.latencyLimit < zero
  · exact .inr ⟨_, .limit limit⟩
  · by_cases percent : sla.requiredPercent < zero
    · exact .inr ⟨_, .percent limit percent⟩
    · exact .inl ⟨limit, percent⟩

end Sla

namespace Config

theorem validate_eq_ok_iff {config : Config α} :
    config.validate = .ok () ↔
      config.first ≤ config.last ∧ config.traffic.validate = .ok () ∧
        config.model.validate = .ok () ∧ isFinite config.sla.latencyLimit = true ∧
        isFinite config.sla.requiredPercent = true := by
  have thresholds : (!isFinite config.sla.latencyLimit ||
      !isFinite config.sla.requiredPercent) = true ↔
        ¬(isFinite config.sla.latencyLimit = true ∧
          isFinite config.sla.requiredPercent = true) := by
    cases isFinite config.sla.latencyLimit <;> cases isFinite config.sla.requiredPercent <;> simp
  unfold validate
  constructor
  · intro valid
    by_cases reversed : config.last < config.first
    · rw [if_pos reversed] at valid
      cases valid
    · rw [if_neg reversed] at valid
      obtain ⟨_, traffic, valid⟩ := bind_eq_ok_iff.mp valid
      obtain ⟨_, model, valid⟩ := bind_eq_ok_iff.mp valid
      refine ⟨reversed, refuse_eq_ok_iff.mp traffic, refuse_eq_ok_iff.mp model, ?_⟩
      by_contra endless
      rw [if_pos (thresholds.mpr endless)] at valid
      cases valid
  · rintro ⟨ordered, traffic, model, finite⟩
    rw [if_neg ordered]
    refine bind_eq_ok_iff.mpr ⟨(), refuse_eq_ok_iff.mpr traffic, ?_⟩
    refine bind_eq_ok_iff.mpr ⟨(), refuse_eq_ok_iff.mpr model, ?_⟩
    exact if_neg fun endless => thresholds.mp endless finite

section Execution

variable [SignRule α] [MonthlyGrowth α] {config : Config α}
  (valid : config.validate = .ok ())
  (monthly : config.traffic.monthly.Filled) (hourly : config.traffic.hourly.Filled)
  (growing : ∀ rate : α, isNonNegative rate = true →
    ¬MonthlyGrowth.monthlyGrowth rate < (zero : α))
  (finite : ∀ forecast, config.traffic.generate config.first config.last = .ok forecast →
    ∀ row ∈ forecast.rows, isFinite row.hourlyVolume = true)

include valid monthly hourly growing finite

/-- The forecast has a row for every hour of the days, and a run takes all of them. -/
theorem generate_of_valid :
    ∃ forecast, config.traffic.generate config.first config.last = .ok forecast ∧
      forecast.length = 24 * {date : Date | config.first ≤ date ∧ date ≤ config.last}.ncard ∧
      ∀ row ∈ forecast.rows, isNonNegative row.hourlyVolume = true := by
  obtain ⟨ordered, traffic, _⟩ := validate_eq_ok_iff.mp valid
  have generated := TrafficModel.generate_eq_ok_iff.mpr ⟨traffic, ordered, rfl⟩
  have signs := Forecast.generate_not_neg growing monthly hourly generated
  refine ⟨_, generated, ?_, fun row member => ?_⟩
  · rw [Forecast.length, List.length_map, Slot.length_timeline, Date.ncard_through]
  · simp [isNonNegative, finite _ generated row member, (signs row member).2.2]

/-- Nothing fails before the summary. -/
theorem execute_of_valid :
    ∃ series : ResultSeries α,
      series.length = 24 * {date : Date | config.first ≤ date ∧ date ≤ config.last}.ncard ∧
      config.execute = Summary.ofResults series config.sla >>= fun summary =>
        .ok { name := config.name, model := config.model, results := series, summary } := by
  obtain ⟨forecast, generated, hours, acceptable⟩ :=
    generate_of_valid valid monthly hourly growing finite
  have created := Pipeline.ofParams_of_valid (validate_eq_ok_iff.mp valid).2.2.1
  have prepared : config.prepare =
      .ok { name := config.name, forecast, pipeline := config.model.fresh, sla := config.sla } :=
    bind_eq_ok_iff.mpr ⟨(), valid, bind_eq_ok_iff.mpr ⟨forecast, generated,
      bind_eq_ok_iff.mpr ⟨_, refuse_eq_ok_iff.mpr created, rfl⟩⟩⟩
  have unstopped : config.model.fresh.Unstopped .idle () (some config.name) forecast :=
    Pipeline.unstopped_idle
  obtain ⟨outcome, ended⟩ := Pipeline.run_of_unstopped acceptable unstopped
  have params := ((Pipeline.Reached.new created).reset.after forecast.volumes).fits.1
  rw [← ended] at params
  refine ⟨⟨config.model.fresh.reset.resultRows forecast.rows⟩, ?_, ?_⟩
  · rw [ResultSeries.length, Pipeline.length_resultRows]
    exact hours
  · unfold execute
    rw [prepared]
    change Job.outcome _ (config.model.fresh.run .idle () (some config.name) forecast) = _
    unfold Job.outcome
    rw [outcome, params]
    rfl

/-- A valid configuration with finite volumes is executed, and has its outcome,
unless the agreement has a negative threshold. Then it fails for that alone, at
the summary of a run that has gone through every hour. -/
theorem execute_judges_agreement :
    ((∃ outcome, config.execute = .ok outcome) ↔
      ¬config.sla.latencyLimit < zero ∧ ¬config.sla.requiredPercent < zero) ∧
    (∀ outcome, config.execute = .ok outcome →
      outcome.results.length =
          24 * {date : Date | config.first ≤ date ∧ date ≤ config.last}.ncard ∧
        outcome.model = config.model ∧ outcome.name = config.name) ∧
    ∀ failure, config.execute = .error failure ↔
      ∃ cause, config.sla.Negative cause ∧ failure = .invalidParameter cause := by
  obtain ⟨series, hours, executed⟩ := execute_of_valid valid monthly hourly growing finite
  obtain ⟨ordered, _, _, limit, percent⟩ := validate_eq_ok_iff.mp valid
  have present : series.rows ≠ [] := by
    intro vacant
    have numbers := Date.dayNumber_le_iff.mpr ordered
    rw [ResultSeries.length, vacant, List.length_nil, Date.ncard_through, Date.daysThrough] at hours
    omega
  have refused {cause : InvalidParameter α} (negative : config.sla.Negative cause) :
      config.execute = .error (.invalidParameter cause) := by
    rw [executed, Summary.ofResults_of_refused (negative.evaluate limit)]
    rfl
  have judged (limitSign : ¬config.sla.latencyLimit < zero)
      (percentSign : ¬config.sla.requiredPercent < zero) :
      ∃ outcome, config.execute = .ok outcome := by
    obtain ⟨result, verdict⟩ :=
      Sla.evaluate_of_not_neg limit percent limitSign percentSign present
    obtain ⟨summary, summed⟩ := Summary.ofResults_of_evaluate present verdict
    rw [executed, summed]
    exact ⟨_, rfl⟩
  refine ⟨⟨?_, fun signs => judged signs.1 signs.2⟩, ?_, fun failure => ⟨?_, ?_⟩⟩
  · rintro ⟨outcome, done⟩
    rcases config.sla.not_neg_or_negative with signs | ⟨cause, negative⟩
    · exact signs
    · rw [refused negative] at done
      cases done
  · intro outcome done
    rw [executed] at done
    obtain ⟨summary, _, same⟩ := bind_eq_ok_iff.mp done
    cases same
    exact ⟨hours, rfl, rfl⟩
  · intro failed
    rcases config.sla.not_neg_or_negative with ⟨limitSign, percentSign⟩ | ⟨cause, negative⟩
    · obtain ⟨outcome, done⟩ := judged limitSign percentSign
      rw [done] at failed
      cases failed
    · rw [refused negative] at failed
      exact ⟨cause, negative, (Except.error.inj failed).symm⟩
  · rintro ⟨cause, negative, rfl⟩
    exact refused negative

end Execution

/-- One day without growth, one unit that keeps up, and an agreement. -/
def oneDay (sla : Sla ℚ) : Config ℚ :=
  { name := "strict"
    first := Forecast.leapDay
    last := Forecast.leapDay
    traffic := .plain "orders" 100 1
    model := .simple { maxRate := 100, unitCost := 1, baseLatency := 5, policy := .fifo }
    sla }

section OneDay

/-- Agrees with the twelfth root at the rate one. -/
local instance : MonthlyGrowth ℚ := ⟨fun rate => rate⟩

theorem growing_rat (rate : ℚ) (positive : isNonNegative rate = true) :
    ¬MonthlyGrowth.monthlyGrowth rate < (zero : ℚ) := by
  rw [Quantity.zero_rat, not_lt]
  exact (isNonNegative_rat rate).mp positive

theorem oneDay_valid (sla : Sla ℚ) : (oneDay sla).validate = .ok () := by
  have ordered : Forecast.leapDay ≤ Forecast.leapDay := by decide
  have model : (oneDay sla).model.validate = .ok () := by
    refine SimpleParams.validate_eq_ok_iff.mpr ?_
    norm_num
  exact validate_eq_ok_iff.mpr ⟨ordered, rfl, model, rfl, rfl⟩

/-- Under the usual agreement the day has its outcome. -/
theorem execute_judges_agreement_oneDay :
    (oneDay .usual).validate = .ok () ∧
      ∃ outcome, (oneDay .usual).execute = .ok outcome ∧ outcome.results.length = 24 ∧
        outcome.name = "strict" := by
  obtain ⟨executed, outcomes, _⟩ := execute_judges_agreement (oneDay_valid .usual) .empty .empty
    growing_rat fun _ _ _ _ => rfl
  have days : {date : Date | Forecast.leapDay ≤ date ∧ date ≤ Forecast.leapDay}.ncard = 1 := by
    rw [Date.ncard_through]
    decide
  obtain ⟨outcome, done⟩ := executed.mpr (by decide +kernel)
  obtain ⟨hours, _, name⟩ := outcomes outcome done
  refine ⟨oneDay_valid .usual, outcome, done, ?_, name⟩
  rw [hours]
  exact congrArg (24 * ·) days

/-- A limit of minus one passes the checks before the run. -/
theorem oneDay_refused_after_run :
    (oneDay ⟨-1, 99⟩).validate = .ok () ∧
      (oneDay ⟨-1, 99⟩).execute =
        .error (.invalidParameter (.notNonNegative "latency_sla_limit" (-1))) := by
  obtain ⟨series, _, executed⟩ := execute_of_valid (oneDay_valid ⟨-1, 99⟩) .empty .empty
    growing_rat fun _ _ _ _ => rfl
  have negative : (oneDay ⟨-1, 99⟩).sla.Negative _ := .limit (by decide +kernel)
  refine ⟨oneDay_valid _, ?_⟩
  rw [executed, Summary.ofResults_of_refused (negative.evaluate rfl)]
  rfl

end OneDay

end Config

end PipelineCapacity
