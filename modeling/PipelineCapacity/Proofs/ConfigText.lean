import PipelineCapacity.ConfigText
import PipelineCapacity.Proofs.Codec
import PipelineCapacity.Proofs.Codec.Traffic
import PipelineCapacity.Proofs.Run.Execution
import PipelineCapacity.Proofs.Stored.Result

/-!
Configurations written as texts and read again. Everything a valid configuration
may hold is written as something its reader takes: names with any characters,
dates of the whole calendar, tables with entries that were checked, parameters
of every kind and agreements with any finite threshold.
-/

set_option autoImplicit false

namespace PipelineCapacity.Config

theorem readDate_toDocument (dialect : Dialect) (date : Date) :
    dialect.readDate date.toDocument = .ok date :=
  mapError_eq_ok_iff.mpr date.read_text

variable {dialect : Dialect} {depth : Nat} {config : Config Float}

section Valid

variable (valid : config.validate = .ok ()) (monthly : config.traffic.monthly.Sound)
  (hourly : config.traffic.hourly.Sound)
  (counted : ∀ delay ∈ config.model.delays, delay ≤ maxDelay)

include valid monthly hourly counted

theorem ofDocument_toDocument : ofDocument dialect config.toDocument = .ok config := by
  obtain ⟨_, traffic, model, limit, percent⟩ := validate_eq_ok_iff.mp valid
  have storable : config.model.Storable := ⟨ModelParams.finite_of_valid model, counted⟩
  have finite : ∀ amount ∈ config.sla.amounts, amount.isFinite = true := by
    simp only [Sla.amounts, List.forall_mem_cons]
    exact ⟨limit, percent, List.forall_mem_nil _⟩
  refine Shape.read_own (by simp) fun holds => ?_
  unfold gather Fields.get
  rw [holds.get_done "name" (by simp) (dialect.readText_text config.name),
    holds.get_done "from" (by simp) (readDate_toDocument dialect config.first),
    holds.get_done "to" (by simp) (readDate_toDocument dialect config.last),
    holds.get_done "forecast" (by simp)
      (TrafficModel.ofDocument_toDocument traffic monthly hourly),
    holds.get_done "model" (by simp) (ModelParams.ofDocument_toDocument storable),
    holds.get_done "sla" (by simp) (Sla.ofDocument_toDocument finite)]
  rfl

omit valid in
theorem legible_toDocument : Json.Legible (depth + 4) config.toDocument := by
  have model : Json.Legible (depth + 3) config.model.toDocument :=
    ModelParams.legible_toDocument counted fun _ _ => Json.readsBack_of_isFinite
  refine .record ?_
  simp only [List.forall_mem_cons]
  exact ⟨.text _, .text _, .text _, TrafficModel.legible_toDocument monthly hourly, model,
    Sla.legible_toDocument config.sla, List.forall_mem_nil _⟩

end Valid

/-- A valid configuration is read from the text written for it, in either style.
Its correction tables are those that can be filled, and its delays are counts of
32 binary places. -/
theorem ofJson_toJson (style : Json.Style) (valid : config.validate = .ok ())
    (monthly : config.traffic.monthly.Filled) (hourly : config.traffic.hourly.Filled)
    (counted : ∀ delay ∈ config.model.delays, delay ≤ maxDelay) :
    ofJson (config.toJson style) = .ok config := by
  have decoded : Json.decode (ofDocument .json) (config.toJson style) = .ok config :=
    Json.decode_write (legible_toDocument monthly.sound hourly.sound counted)
      (ofDocument_toDocument valid monthly.sound hourly.sound counted) style
  apply bind_eq_ok_iff.mpr
  exact ⟨config, mapError_eq_ok_iff.mpr decoded, validated_eq_ok_iff.mpr ⟨valid, rfl⟩⟩

/-- From the first day of the calendar to the last, under an agreement that no
run can be held to. -/
def wholeCalendar : Config Float :=
  { name := "from \"-262143\"\tto \\ +262142\x00"
    first := .calendarStart
    last := .calendarEnd
    traffic := Codec.oddlyNamed
    model := Codec.tuned
    sla := { latencyLimit := -1.5, requiredPercent := 99.9 } }

theorem ofJson_toJson_wholeCalendar :
    ofJson (wholeCalendar.toJson .pretty) = .ok wholeCalendar := by
  have february : MonthlyCorrections.empty.insert ⟨2, 0.9⟩ = .ok wholeCalendar.traffic.monthly :=
    rfl
  have nights : HourlyCorrections.empty.insert ⟨.sat, 23, 1.75⟩ =
      .ok wholeCalendar.traffic.hourly := rfl
  apply ofJson_toJson .pretty rfl (.insert .empty february) (.insert .empty nights)
  decide +kernel

end PipelineCapacity.Config
