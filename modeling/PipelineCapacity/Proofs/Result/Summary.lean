import Mathlib.Data.Set.Finite.Lemmas
import Mathlib.Order.Bounds.Basic
import PipelineCapacity.Proofs.Mean
import PipelineCapacity.Proofs.Result.Sla
import PipelineCapacity.Result

/-!
Summaries against the rows they are taken of. A summary fails only where the
check of its agreement does. In exact arithmetic its figures depend on which rows
there are and how often, not on their order, and those of two series one after
the other follow from the figures of each.
-/

set_option autoImplicit false

namespace PipelineCapacity

open Quantity (isFinite peak zero)

section

variable {α : Type} [Quantity α]

theorem Sla.exists_verdict_iff {sla : Sla α} {series : ResultSeries α} :
    (∃ result, sla.evaluate series = .ok result) ↔
      (isFinite sla.latencyLimit = true ∧ ¬sla.latencyLimit < zero) ∧
        (isFinite sla.requiredPercent = true ∧ ¬sla.requiredPercent < zero) ∧
        series.rows ≠ [] := by
  simp only [evaluate_eq_ok_iff_checks, requireNonNegative_eq_ok_iff, exists_and_left, exists_eq,
    and_true]

namespace Summary

theorem column_of_rows {series : ResultSeries α} (present : series.rows ≠ [])
    (value : ResultRow α → α) : ∃ figures, column series value = .ok figures := by
  unfold column Quantity.meanAndPeak
  obtain ⟨row, rest, split⟩ := List.exists_cons_of_ne_nil present
  rw [split]
  exact ⟨_, rfl⟩

theorem ofResults_of_evaluate {series : ResultSeries α} {sla : Sla α} {result : SlaResult α}
    (present : series.rows ≠ []) (judged : sla.evaluate series = .ok result) :
    ∃ summary, ofResults series sla = .ok summary := by
  obtain ⟨latency, latencyFound⟩ := column_of_rows present (·.latencyFifo)
  obtain ⟨backlog, backlogFound⟩ := column_of_rows present (·.backlog)
  obtain ⟨throughput, throughputFound⟩ := column_of_rows present (·.throughput)
  unfold ofResults
  rw [judged, latencyFound, backlogFound, throughputFound]
  exact ⟨_, rfl⟩

theorem ofResults_of_refused {series : ResultSeries α} {sla : Sla α} {failure : Failure α}
    (refused : sla.evaluate series = .error failure) :
    ofResults series sla = .error failure := bind_eq_error_iff.mpr (.inl refused)

/-- There is no summary of no hours, nor under a threshold that is negative or
not finite, and there is one of everything else. -/
theorem exists_ofResults_error_iff (series : ResultSeries α) (sla : Sla α) :
    (∃ failure, ofResults series sla = .error failure) ↔
      series.rows = [] ∨
        (isFinite sla.latencyLimit = false ∨ sla.latencyLimit < zero) ∨
        (isFinite sla.requiredPercent = false ∨ sla.requiredPercent < zero) := by
  have verdict := @Sla.exists_verdict_iff α _ sla series
  constructor
  · rintro ⟨failure, failed⟩
    by_contra acceptable
    simp only [not_or, Bool.not_eq_false] at acceptable
    obtain ⟨present, limit, percent⟩ := acceptable
    obtain ⟨result, judged⟩ := verdict.mpr ⟨limit, percent, present⟩
    obtain ⟨summary, summed⟩ := ofResults_of_evaluate present judged
    rw [summed] at failed
    cases failed
  · intro unacceptable
    cases judged : sla.evaluate series with
    | error failure => exact ⟨failure, ofResults_of_refused judged⟩
    | ok result =>
        obtain ⟨⟨limit, limitSign⟩, ⟨percent, percentSign⟩, present⟩ :=
          verdict.mp ⟨result, judged⟩
        simp [present, limit, limitSign, percent, percentSign] at unacceptable

end Summary

end

namespace ResultSeries

/-- The values of a column. -/
def values {β : Type} (series : ResultSeries ℚ) (value : ResultRow ℚ → β) : Set β :=
  value '' {row | row ∈ series.rows}

variable {β : Type} {series first second : ResultSeries ℚ} {rows : List (ResultRow ℚ)}

theorem values_perm (perm : rows.Perm series.rows) (value : ResultRow ℚ → β) :
    (⟨rows⟩ : ResultSeries ℚ).values value = series.values value :=
  congrArg (value '' ·) (Set.ext fun _ => perm.mem_iff)

theorem values_append (first second : ResultSeries ℚ) (value : ResultRow ℚ → β) :
    (⟨first.rows ++ second.rows⟩ : ResultSeries ℚ).values value =
      first.values value ∪ second.values value := by
  unfold values
  rw [← Set.image_union]
  exact congrArg (value '' ·) (Set.ext fun _ => List.mem_append)

theorem isGreatest_values [LinearOrder β] {value : ResultRow ℚ → β} {greatest : β}
    (found : (series.rows.map value).max? = some greatest) :
    IsGreatest (series.values value) greatest := by
  obtain ⟨member, above⟩ := List.max?_eq_some_iff.mp found
  obtain ⟨row, inside, same⟩ := List.mem_map.mp member
  refine ⟨⟨row, inside, same⟩, ?_⟩
  rintro _ ⟨other, present, rfl⟩
  exact above _ (List.mem_map_of_mem present)

theorem isGreatest_peak (present : series.rows ≠ []) (value : ResultRow ℚ → ℚ) :
    IsGreatest (series.values value) (peak (series.rows.map value)) :=
  isGreatest_values (Quantity.max?_eq_peak fun vacant => present (List.map_eq_nil_iff.mp vacant))

theorem isGreatest_peakUnits (present : series.rows ≠ []) :
    IsGreatest (series.values (·.units)) (Summary.peakUnits series) := by
  obtain ⟨row, rest, split⟩ := List.exists_cons_of_ne_nil present
  apply isGreatest_values
  unfold Summary.peakUnits
  rw [split, List.map_cons, List.max?_cons']
  rfl

theorem exists_isLeast (present : series.rows ≠ []) (value : ResultRow ℚ → ℚ) :
    ∃ least, IsLeast (series.values value) least := by
  obtain ⟨row, inside, below⟩ := Set.exists_min_image {row | row ∈ series.rows} value
    (List.finite_toSet series.rows) (List.exists_mem_of_ne_nil series.rows present)
  exact ⟨value row, ⟨row, inside, rfl⟩, Set.forall_mem_image.mpr below⟩

end ResultSeries

namespace Summary

variable {series first second : ResultSeries ℚ} {rows : List (ResultRow ℚ)} {sla : Sla ℚ}

/-- The figures of a series under a verdict. -/
def figures (series : ResultSeries ℚ) (verdict : SlaResult ℚ) : Summary ℚ :=
  { hours := series.length
    totalCost := series.totalCost
    totalIncoming := series.totalIncoming
    totalThroughput := series.totalThroughput
    meanLatency := mean (series.rows.map (·.latencyFifo))
    maxLatency := peak (series.rows.map (·.latencyFifo))
    meanBacklog := mean (series.rows.map (·.backlog))
    maxBacklog := peak (series.rows.map (·.backlog))
    meanThroughput := mean (series.rows.map (·.throughput))
    maxThroughput := peak (series.rows.map (·.throughput))
    maxUnits := peakUnits series
    sla := verdict }

theorem column_rat (present : series.rows ≠ []) (value : ResultRow ℚ → ℚ) :
    column series value = .ok (mean (series.rows.map value), peak (series.rows.map value)) := by
  unfold column
  rw [Quantity.meanAndPeak_rat fun vacant => present (List.map_eq_nil_iff.mp vacant)]

theorem ofResults_eq_figures {verdict : SlaResult ℚ}
    (judged : sla.evaluate series = .ok verdict) :
    ofResults series sla = .ok (figures series verdict) := by
  have present : series.rows ≠ [] := (Sla.evaluate_eq_ok_iff.mp judged).1.2.2
  unfold ofResults
  rw [judged, column_rat present, column_rat present, column_rat present]
  rfl

theorem figures_perm (perm : rows.Perm series.rows) (verdict : SlaResult ℚ) :
    figures ⟨rows⟩ verdict = figures series verdict := by
  rcases eq_or_ne series.rows [] with vacant | present
  · rw [vacant, List.perm_nil] at perm
    rw [perm, ← vacant]
  · have kept : rows ≠ [] := fun vacant => present (List.nil_perm.mp (vacant ▸ perm))
    have hours : (⟨rows⟩ : ResultSeries ℚ).length = series.length := perm.length_eq
    have totals (value : ResultRow ℚ → ℚ) :
        Quantity.sum (rows.map value) = Quantity.sum (series.rows.map value) := by
      rw [Quantity.sum_rat, Quantity.sum_rat, (perm.map value).sum_eq]
    have means (value : ResultRow ℚ → ℚ) : mean (rows.map value) = mean (series.rows.map value) :=
      mean_perm (perm.map value)
    have peaks (value : ResultRow ℚ → ℚ) :
        peak (rows.map value) = peak (series.rows.map value) := by
      have greatest := @ResultSeries.isGreatest_peak ⟨rows⟩ kept value
      rw [ResultSeries.values_perm perm] at greatest
      exact greatest.unique (ResultSeries.isGreatest_peak present value)
    have units : peakUnits (⟨rows⟩ : ResultSeries ℚ) = peakUnits series := by
      have greatest := @ResultSeries.isGreatest_peakUnits ⟨rows⟩ kept
      rw [ResultSeries.values_perm perm] at greatest
      exact greatest.unique (ResultSeries.isGreatest_peakUnits present)
    unfold figures ResultSeries.totalCost ResultSeries.totalIncoming ResultSeries.totalThroughput
    simp only [hours, totals, means, peaks, units]

/-- A greatest value that a row attains, and a mean between the least value and
the greatest. -/
structure Column (values : Set ℚ) (mean greatest : ℚ) : Prop where
  isGreatest : IsGreatest values greatest
  exists_least_le : ∃ least, IsLeast values least ∧ least ≤ mean
  le_greatest : mean ≤ greatest

/-- What a summary says of the rows of a series. -/
structure Describes (summary : Summary ℚ) (series : ResultSeries ℚ) : Prop where
  hours : summary.hours = series.rows.length
  cost : summary.totalCost = (series.rows.map (·.cost)).sum
  incoming : summary.totalIncoming = (series.rows.map (·.incoming)).sum
  throughputs : summary.totalThroughput = (series.rows.map (·.throughput)).sum
  latency : Column (series.values (·.latencyFifo)) summary.meanLatency summary.maxLatency
  backlog : Column (series.values (·.backlog)) summary.meanBacklog summary.maxBacklog
  throughput :
    Column (series.values (·.throughput)) summary.meanThroughput summary.maxThroughput
  units : IsGreatest (series.values (·.units)) summary.maxUnits
  mean_mul_hours : summary.meanThroughput * summary.hours = summary.totalThroughput

theorem column_figures (present : series.rows ≠ []) (value : ResultRow ℚ → ℚ) :
    Column (series.values value) (mean (series.rows.map value))
      (peak (series.rows.map value)) := by
  have mapped : series.rows.map value ≠ [] :=
    fun vacant => present (List.map_eq_nil_iff.mp vacant)
  have greatest := ResultSeries.isGreatest_peak present value
  obtain ⟨least, lowest⟩ := ResultSeries.exists_isLeast present value
  refine ⟨greatest, ⟨least, lowest, le_mean mapped ?_⟩, mean_le mapped ?_⟩
  · exact List.forall_mem_map.mpr fun row inside => lowest.2 ⟨row, inside, rfl⟩
  · exact List.forall_mem_map.mpr fun row inside => greatest.2 ⟨row, inside, rfl⟩

theorem describes_figures (present : series.rows ≠ []) (verdict : SlaResult ℚ) :
    (figures series verdict).Describes series where
  hours := rfl
  cost := Quantity.sum_rat _
  incoming := Quantity.sum_rat _
  throughputs := Quantity.sum_rat _
  latency := column_figures present _
  backlog := column_figures present _
  throughput := column_figures present _
  units := ResultSeries.isGreatest_peakUnits present
  mean_mul_hours := by
    have total := mean_mul_length (series.rows.map (·.throughput))
    rw [List.length_map] at total
    exact total.trans (Quantity.sum_rat _).symm

/-- The mean of two figures, each of which counts by its hours. -/
def weighted (first second : Summary ℚ) (figure : Summary ℚ → ℚ) : ℚ :=
  (first.hours * figure first + second.hours * figure second) / (first.hours + second.hours)

/-- The summary of two series, one after the other, by the summaries of both. -/
structure Joins (whole first second : Summary ℚ) : Prop where
  hours : whole.hours = first.hours + second.hours
  totalCost : whole.totalCost = first.totalCost + second.totalCost
  totalIncoming : whole.totalIncoming = first.totalIncoming + second.totalIncoming
  totalThroughput : whole.totalThroughput = first.totalThroughput + second.totalThroughput
  maxLatency : whole.maxLatency = Max.max first.maxLatency second.maxLatency
  maxBacklog : whole.maxBacklog = Max.max first.maxBacklog second.maxBacklog
  maxThroughput : whole.maxThroughput = Max.max first.maxThroughput second.maxThroughput
  maxUnits : whole.maxUnits = Max.max first.maxUnits second.maxUnits
  meanLatency : whole.meanLatency = weighted first second (·.meanLatency)
  meanBacklog : whole.meanBacklog = weighted first second (·.meanBacklog)
  meanThroughput : whole.meanThroughput = weighted first second (·.meanThroughput)

theorem joins_figures (firstPresent : first.rows ≠ []) (secondPresent : second.rows ≠ [])
    (verdict firstVerdict secondVerdict : SlaResult ℚ) :
    (figures ⟨first.rows ++ second.rows⟩ verdict).Joins (figures first firstVerdict)
      (figures second secondVerdict) := by
  have present : first.rows ++ second.rows ≠ [] :=
    List.append_ne_nil_of_left_ne_nil firstPresent _
  have totals (value : ResultRow ℚ → ℚ) :
      Quantity.sum ((first.rows ++ second.rows).map value) =
        Quantity.sum (first.rows.map value) + Quantity.sum (second.rows.map value) := by
    rw [Quantity.sum_rat, Quantity.sum_rat, Quantity.sum_rat, List.map_append, List.sum_append]
  have peaks (value : ResultRow ℚ → ℚ) :
      peak ((first.rows ++ second.rows).map value) =
        Max.max (peak (first.rows.map value)) (peak (second.rows.map value)) := by
    have greatest := @ResultSeries.isGreatest_peak ⟨first.rows ++ second.rows⟩ present value
    rw [ResultSeries.values_append] at greatest
    exact greatest.unique ((ResultSeries.isGreatest_peak firstPresent value).union
      (ResultSeries.isGreatest_peak secondPresent value))
  have units : peakUnits (⟨first.rows ++ second.rows⟩ : ResultSeries ℚ) =
      Max.max (peakUnits first) (peakUnits second) := by
    have greatest := @ResultSeries.isGreatest_peakUnits ⟨first.rows ++ second.rows⟩ present
    rw [ResultSeries.values_append] at greatest
    exact greatest.unique ((ResultSeries.isGreatest_peakUnits firstPresent).union
      (ResultSeries.isGreatest_peakUnits secondPresent))
  have means (value : ResultRow ℚ → ℚ) :
      mean ((first.rows ++ second.rows).map value) =
        (first.rows.length * mean (first.rows.map value) +
            second.rows.length * mean (second.rows.map value)) /
          (first.rows.length + second.rows.length) := by
    rw [List.map_append, mean_append, List.length_map, List.length_map]
  exact
    { hours := List.length_append
      totalCost := totals _
      totalIncoming := totals _
      totalThroughput := totals _
      maxLatency := peaks _
      maxBacklog := peaks _
      maxThroughput := peaks _
      maxUnits := units
      meanLatency := means _
      meanBacklog := means _
      meanThroughput := means _ }

/-- In exact arithmetic the summary of some hours under an accepted agreement
describes their rows, in whatever order they are, and the summary of two series
one after the other joins those of both. In any arithmetic there is no summary
exactly if there are no hours or a threshold is negative or not finite. -/
theorem ofResults_aggregates :
    (∀ (series : ResultSeries ℚ) (sla : Sla ℚ), series.rows ≠ [] → 0 ≤ sla.latencyLimit →
      0 ≤ sla.requiredPercent →
      ∃ summary, ofResults series sla = .ok summary ∧ summary.Describes series ∧
        (∀ rows, rows.Perm series.rows → ofResults ⟨rows⟩ sla = .ok summary) ∧
        ∀ later : ResultSeries ℚ, later.rows ≠ [] →
          ∃ second whole, ofResults later sla = .ok second ∧
            ofResults ⟨series.rows ++ later.rows⟩ sla = .ok whole ∧
            whole.Joins summary second) ∧
    ∀ (α : Type) [Quantity α] (series : ResultSeries α) (sla : Sla α),
      (∃ failure, ofResults series sla = .error failure) ↔
        series.rows = [] ∨
          (isFinite sla.latencyLimit = false ∨ sla.latencyLimit < zero) ∨
          (isFinite sla.requiredPercent = false ∨ sla.requiredPercent < zero) := by
  refine ⟨?_, fun _ _ series sla => exists_ofResults_error_iff series sla⟩
  intro series sla present limit percent
  have judged {rows : List (ResultRow ℚ)} (present : rows ≠ []) :
      sla.evaluate ⟨rows⟩ = .ok _ :=
    Sla.evaluate_eq_ok_iff.mpr ⟨⟨limit, percent, present⟩, rfl⟩
  refine ⟨_, ofResults_eq_figures (judged present), describes_figures present _, ?_, ?_⟩
  · intro rows perm
    have kept : rows ≠ [] := fun vacant => present (List.nil_perm.mp (vacant ▸ perm))
    rw [ofResults_eq_figures (judged kept), figures_perm perm, Sla.percentWithin_perm perm]
  · intro later others
    exact ⟨_, _, ofResults_eq_figures (judged others),
      ofResults_eq_figures (judged (List.append_ne_nil_of_left_ne_nil present _)),
      joins_figures present others _ _ _⟩

/-- Four hours of 150 records each on a unit that serves 100. -/
def backlogged : ResultSeries ℚ :=
  ⟨[(10, 50), (21 / 2, 100), (11, 150), (23 / 2, 200)].map fun (latency, backlog) =>
    .ofMetrics ⟨2025, 1, 1, .wed, 0⟩ 150 ⟨100, latency, latency, backlog, 3, 1⟩⟩

/-- An hour on two units that works the backlog off. -/
def caughtUp : ResultSeries ℚ :=
  ⟨[.ofMetrics ⟨2025, 1, 1, .wed, 4⟩ 0 ⟨200, 11, 10, 0, 6, 2⟩]⟩

/-- The fifth hour brings the mean backlog down by a fifth, whatever the order of
the four before it. -/
theorem ofResults_aggregates_backlogged :
    (backlogged.rows ≠ [] ∧ 0 ≤ (Sla.usual : Sla ℚ).latencyLimit ∧
      0 ≤ (Sla.usual : Sla ℚ).requiredPercent ∧ caughtUp.rows ≠ []) ∧
    ∃ summary second whole, ofResults backlogged .usual = .ok summary ∧
      summary.Describes backlogged ∧
      ofResults ⟨backlogged.rows.reverse⟩ .usual = .ok summary ∧
      ofResults caughtUp .usual = .ok second ∧
      ofResults ⟨backlogged.rows ++ caughtUp.rows⟩ .usual = .ok whole ∧
      whole.Joins summary second ∧
      summary.meanBacklog = 125 ∧ whole.meanBacklog = 100 ∧ whole.maxUnits = 2 := by
  have present : backlogged.rows ≠ [] := nofun
  have later : caughtUp.rows ≠ [] := nofun
  have limit : 0 ≤ (Sla.usual : Sla ℚ).latencyLimit := by decide
  have percent : 0 ≤ (Sla.usual : Sla ℚ).requiredPercent := by decide
  obtain ⟨summary, summed, describes, perm, joins⟩ :=
    ofResults_aggregates.1 backlogged .usual present limit percent
  obtain ⟨second, whole, secondSummed, wholeSummed, joined⟩ := joins caughtUp later
  have mean : (ofResults backlogged .usual).toOption.map (·.meanBacklog) = some 125 := by
    decide +kernel
  have wholeMean : (ofResults ⟨backlogged.rows ++ caughtUp.rows⟩ .usual).toOption.map
      (·.meanBacklog) = some 100 := by decide +kernel
  have units : (ofResults ⟨backlogged.rows ++ caughtUp.rows⟩ .usual).toOption.map
      (·.maxUnits) = some 2 := by decide +kernel
  rw [summed] at mean
  rw [wholeSummed] at wholeMean units
  exact ⟨⟨present, limit, percent, later⟩, summary, second, whole, summed, describes,
    perm _ (List.reverse_perm backlogged.rows), secondSummed, wholeSummed, joined,
    Option.some.inj mean, Option.some.inj wholeMean, Option.some.inj units⟩

end Summary

end PipelineCapacity
