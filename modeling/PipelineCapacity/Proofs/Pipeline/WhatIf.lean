import PipelineCapacity.Proofs.Pipeline.Conservation
import PipelineCapacity.Proofs.Result.Sla
import PipelineCapacity.Proofs.Run.Course

/-!
Two runs of the fixed pipeline side by side, in exact arithmetic. The hourly
throughputs of the two cannot be compared: the slower one works on after the
faster one is done. Backlog and age can. A higher rate under a lighter load keeps
both lower at every hour, hence the latencies, hence the agreements met.
-/

set_option autoImplicit false

namespace PipelineCapacity

/-- One queue holds no more than another, and nothing older. -/
structure Queue.Within (light heavy : Queue ℚ) : Prop where
  backlog_nonneg : 0 ≤ heavy.backlog
  backlog_le : light.backlog ≤ heavy.backlog
  age_nonneg : 0 ≤ heavy.oldestAge
  age_le : light.oldestAge ≤ heavy.oldestAge

theorem Queue.Within.advance {light heavy : Queue ℚ} (within : light.Within heavy)
    {less more : Load ℚ} (incoming : less.incoming ≤ more.incoming)
    (capacity : more.capacity ≤ less.capacity) (duration : less.duration ≤ more.duration)
    (forward : 0 ≤ more.duration) :
    (light.advance less).2.Within (heavy.advance more).2 := by
  have backlog_le : (light.advance less).2.backlog ≤ (heavy.advance more).2.backlog := by
    rw [advance_backlog, advance_backlog]
    apply max_le_max_right
    have waiting := within.backlog_le
    linarith
  have backlog_nonneg := advance_backlog_nonneg heavy more
  have older : 0 ≤ heavy.oldestAge + more.duration := add_nonneg within.age_nonneg forward
  refine ⟨backlog_nonneg, backlog_le, ?_, ?_⟩
  · rw [advance_oldestAge]
    split
    · exact le_refl 0
    · exact older
  · rw [advance_oldestAge, advance_oldestAge]
    by_cases drained : (light.advance less).2.backlog = 0
    · rw [if_pos drained]
      split
      · exact le_refl 0
      · exact older
    · -- A backlog under the lighter load is one under the heavier load.
      have waiting : (heavy.advance more).2.backlog ≠ 0 := by
        intro emptied
        have nonneg := advance_backlog_nonneg light less
        rw [emptied] at backlog_le
        exact drained (le_antisymm backlog_le nonneg)
      rw [if_neg drained, if_neg waiting]
      exact add_le_add within.age_le duration

structure ResultRow.NoWorse (first second : ResultRow ℚ) : Prop where
  backlog_le : first.backlog ≤ second.backlog
  latencyFifo_le : first.latencyFifo ≤ second.latencyFifo
  latencyLifo_le : first.latencyLifo ≤ second.latencyLifo

namespace FixedModel

/-- One pipeline is at least as fast as another and has no more to do. -/
structure Ahead (quick slow : FixedModel ℚ) : Prop where
  latency_eq : quick.params.baseLatency = slow.params.baseLatency
  rate_pos : 0 < slow.params.maxRate
  rate_le : slow.params.maxRate ≤ quick.params.maxRate
  within : quick.queue.Within slow.queue

variable {quick slow : FixedModel ℚ}

theorem ahead_reset (latency : quick.params.baseLatency = slow.params.baseLatency)
    (rate_pos : 0 < slow.params.maxRate) (faster : slow.params.maxRate ≤ quick.params.maxRate) :
    quick.reset.Ahead slow.reset :=
  ⟨latency, rate_pos, faster, ⟨le_refl 0, le_refl 0, le_refl 0, le_refl 0⟩⟩

theorem Ahead.step (ahead : quick.Ahead slow) {less more : ℚ} (lighter : less ≤ more) :
    (quick.step less).2.Ahead (slow.step more).2 :=
  { latency_eq := ahead.latency_eq
    rate_pos := ahead.rate_pos
    rate_le := ahead.rate_le
    within := ahead.within.advance lighter ahead.rate_le (le_refl _) (Nat.cast_nonneg _) }

theorem Ahead.row (ahead : quick.Ahead slow) {less more : ℚ} (lighter : less ≤ more)
    (quickSlot slowSlot : Slot) :
    (ResultRow.ofMetrics quickSlot less (quick.step less).1).NoWorse
      (.ofMetrics slowSlot more (slow.step more).1) := by
  have after := (ahead.step lighter).within
  refine ⟨after.backlog_le, ?_, ?_⟩
  · change quick.params.baseLatency + quick.queue.backlog / quick.params.maxRate ≤
      slow.params.baseLatency + slow.queue.backlog / slow.params.maxRate
    rw [ahead.latency_eq]
    exact add_le_add_right (div_le_div₀ ahead.within.backlog_nonneg ahead.within.backlog_le
      ahead.rate_pos ahead.rate_le) _
  · change quick.params.baseLatency + (quick.step less).2.queue.oldestAge ≤
      slow.params.baseLatency + (slow.step more).2.queue.oldestAge
    rw [ahead.latency_eq]
    exact add_le_add_right after.age_le _

theorem Ahead.rows (ahead : quick.Ahead slow) {light heavy : List (ForecastRow ℚ)}
    (lighter : List.Forall₂ (fun less more => less.hourlyVolume ≤ more.hourlyVolume)
      light heavy) :
    List.Forall₂ ResultRow.NoWorse ((Pipeline.fixed quick).resultRows light)
      ((Pipeline.fixed slow).resultRows heavy) := by
  induction lighter generalizing quick slow with
  | nil => exact .nil
  | @cons less more _ _ below _ ih =>
      exact .cons (ahead.row below less.slot more.slot) (ih (ahead.step below))

theorem Ahead.after (ahead : quick.Ahead slow) (volumes : List ℚ) :
    ((Pipeline.fixed quick).after volumes).queue.backlog ≤
      ((Pipeline.fixed slow).after volumes).queue.backlog := by
  induction volumes generalizing quick slow with
  | nil => exact ahead.within.backlog_le
  | cons volume rest ih => exact ih (ahead.step (le_refl volume))

theorem Ahead.throughput (ahead : quick.Ahead slow)
    (waiting : quick.queue.backlog = slow.queue.backlog) {volumes : List ℚ}
    (nonneg : ∀ volume ∈ volumes, 0 ≤ volume) :
    (((Pipeline.fixed slow).reports volumes).map (·.throughput)).sum ≤
      (((Pipeline.fixed quick).reports volumes).map (·.throughput)).sum := by
  have left := ahead.after volumes
  have quickBalance := (Pipeline.fixed quick).reports_balance nonneg
  have slowBalance := (Pipeline.fixed slow).reports_balance nonneg
  change _ = quick.queue.backlog + (volumes.map fun volume => volume).sum at quickBalance
  change _ = slow.queue.backlog + (volumes.map fun volume => volume).sum at slowBalance
  -- What is not waiting has been served.
  linarith

theorem nonneg_of_lighter {light heavy : List (ForecastRow ℚ)}
    (lighter : List.Forall₂ (fun less more => less.hourlyVolume ≤ more.hourlyVolume)
      light heavy)
    (nonneg : ∀ row ∈ light, 0 ≤ row.hourlyVolume) : ∀ row ∈ heavy, 0 ≤ row.hourlyVolume := by
  induction lighter with
  | nil =>
      intro row absent
      cases absent
  | cons below _ ih =>
      obtain ⟨first, others⟩ := List.forall_mem_cons.mp nonneg
      exact List.forall_mem_cons.mpr ⟨first.trans below, ih others⟩

/-- A fixed pipeline with at least the rate of another, under volumes that are
never higher, has at every hour no more waiting and no higher latency. It meets
every agreement the other meets, and under the same volumes it has served as much
at every hour. -/
theorem faster_no_worse
    (latency : quick.params.baseLatency = slow.params.baseLatency)
    (rate_pos : 0 < slow.params.maxRate) (faster : slow.params.maxRate ≤ quick.params.maxRate)
    {light heavy : Forecast ℚ} (nonneg : ∀ row ∈ light.rows, 0 ≤ row.hourlyVolume)
    (lighter : List.Forall₂ (fun less more => less.hourlyVolume ≤ more.hourlyVolume)
      light.rows heavy.rows) (name : Option String) :
    ∃ quickSeries slowSeries,
      ((Pipeline.fixed quick).run .idle () name light).outcome = .ok quickSeries ∧
      ((Pipeline.fixed slow).run .idle () name heavy).outcome = .ok slowSeries ∧
      List.Forall₂ ResultRow.NoWorse quickSeries.rows slowSeries.rows ∧
      (∀ sla : Sla ℚ,
        ((∃ result, sla.evaluate quickSeries = .ok result) ↔
          ∃ result, sla.evaluate slowSeries = .ok result) ∧
        ∀ quickResult slowResult, sla.evaluate quickSeries = .ok quickResult →
          sla.evaluate slowSeries = .ok slowResult →
            slowResult.percentWithin ≤ quickResult.percentWithin ∧
              (slowResult.met = true → quickResult.met = true)) ∧
      (light.volumes = heavy.volumes → ∀ hours,
        ((slowSeries.rows.take hours).map (·.throughput)).sum ≤
          ((quickSeries.rows.take hours).map (·.throughput)).sum) := by
  have ahead := ahead_reset latency rate_pos faster
  have rows := ahead.rows lighter
  have acceptable {forecast : Forecast ℚ} (nonneg : ∀ row ∈ forecast.rows, 0 ≤ row.hourlyVolume) :
      ∀ row ∈ forecast.rows, isNonNegative row.hourlyVolume = true :=
    fun row member => (isNonNegative_rat _).mpr (nonneg row member)
  have heavyNonneg := nonneg_of_lighter lighter nonneg
  refine ⟨_, _, (Pipeline.run_of_unstopped (acceptable nonneg) Pipeline.unstopped_idle).1,
    (Pipeline.run_of_unstopped (acceptable heavyNonneg) Pipeline.unstopped_idle).1, rows,
    fun sla => sla.evaluate_no_worse (rows.imp fun _ _ worse => worse.latencyFifo_le), ?_⟩
  intro same hours
  have volumes : (light.rows.take hours).map (·.hourlyVolume) =
      (heavy.rows.take hours).map (·.hourlyVolume) := by
    rw [List.map_take, List.map_take]
    exact congrArg (List.take hours) same
  dsimp only
  rw [Pipeline.resultRows_take, Pipeline.resultRows_take, Pipeline.resultRows_throughput,
    Pipeline.resultRows_throughput, volumes]
  apply ahead.throughput rfl
  intro volume member
  obtain ⟨row, present, rfl⟩ := List.mem_map.mp member
  exact heavyNonneg row (List.mem_of_mem_take present)

def unit (maxRate : ℚ) : FixedModel ℚ :=
  { params := { AutoscalingParams.patient.base with maxRate }, queue := .empty, totalCost := 0 }

/-- The rush with no idle hour after it. -/
def longRush : Forecast ℚ :=
  ⟨[⟨⟨2025, 1, 1, .wed, 0⟩, 7200, 7200, 7200⟩, ⟨⟨2025, 1, 1, .wed, 1⟩, 1800, 1800, 1800⟩]⟩

/-- Half the rate, and more to do in the second hour. -/
theorem faster_no_worse_halved :
    ((unit 3600).params.baseLatency = (unit 1800).params.baseLatency ∧
      0 < (unit 1800).params.maxRate ∧
      (unit 1800).params.maxRate ≤ (unit 3600).params.maxRate ∧
      (∀ row ∈ Pipeline.rush.rows, 0 ≤ row.hourlyVolume) ∧
      List.Forall₂ (fun less more => less.hourlyVolume ≤ more.hourlyVolume)
        Pipeline.rush.rows longRush.rows) ∧
    ∃ quickSeries slowSeries,
      ((Pipeline.fixed (unit 3600)).run .idle () none Pipeline.rush).outcome =
        .ok quickSeries ∧
      ((Pipeline.fixed (unit 1800)).run .idle () none longRush).outcome = .ok slowSeries ∧
      List.Forall₂ ResultRow.NoWorse quickSeries.rows slowSeries.rows ∧
      quickSeries.rows.map (·.backlog) = [3600, 0] ∧
      slowSeries.rows.map (·.backlog) = [5400, 5400] := by
  have latency : (unit 3600).params.baseLatency = (unit 1800).params.baseLatency := rfl
  have rate_pos : 0 < (unit 1800).params.maxRate := by decide
  have faster : (unit 1800).params.maxRate ≤ (unit 3600).params.maxRate := by decide
  have nonneg : ∀ row ∈ Pipeline.rush.rows, 0 ≤ row.hourlyVolume := by decide
  have lighter : List.Forall₂ (fun less more => less.hourlyVolume ≤ more.hourlyVolume)
      Pipeline.rush.rows longRush.rows := .cons (by decide) (.cons (by decide) .nil)
  obtain ⟨quickSeries, slowSeries, quickRun, slowRun, rows, _⟩ :=
    faster_no_worse latency rate_pos faster nonneg lighter none
  have quickRows :
      ((Pipeline.fixed (unit 3600)).run .idle () none Pipeline.rush).outcome.toOption.map
        (·.rows.map (·.backlog)) = some [3600, 0] := by decide +kernel
  have slowRows :
      ((Pipeline.fixed (unit 1800)).run .idle () none longRush).outcome.toOption.map
        (·.rows.map (·.backlog)) = some [5400, 5400] := by decide +kernel
  rw [quickRun] at quickRows
  rw [slowRun] at slowRows
  exact ⟨⟨latency, rate_pos, faster, nonneg, lighter⟩, quickSeries, slowSeries, quickRun,
    slowRun, rows, Option.some.inj quickRows, Option.some.inj slowRows⟩

end FixedModel

end PipelineCapacity
