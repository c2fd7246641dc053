import PipelineCapacity.Codec
import PipelineCapacity.Proofs.Stored.Forecast

/-!
Traffic models encoded and decoded again. A valid model whose tables were filled
comes back whole. Whatever a text decodes to has passed every check, that of the
model and those of the entries of its tables, and of the entries that the text
lists for one key the table holds the last.
-/

set_option autoImplicit false

namespace PipelineCapacity

namespace TrafficModel

section Listed

variable (dialect : Dialect)

/-- The monthly entries that a document of a model lists, in their order. -/
def listedMonths : Document → Reading (List (MonthFactor Float)) :=
  shape.read dialect fun fields =>
    fields.getOr (.allowed []) 3 "monthly_corrections"
      (dialect.readList (MonthFactor.ofDocument dialect))

/-- The hourly entries that a document of a model lists, in their order. -/
def listedHours : Document → Reading (List (HourFactor Float)) :=
  shape.read dialect fun fields =>
    fields.getOr (.allowed []) 4 "hourly_corrections"
      (dialect.readList (HourFactor.ofDocument dialect))

end Listed

variable {dialect : Dialect} {document : Document} {model : TrafficModel Float}

/-- The tables of a model that was read are made of the entries of its document. -/
theorem ofDocument_listed (found : ofDocument dialect document = .ok model) :
    ∃ months hours, listedMonths dialect document = .ok months ∧
      listedHours dialect document = .ok hours ∧
      MonthlyCorrections.ofList months = .ok model.monthly ∧
      HourlyCorrections.ofList hours = .ok model.hourly := by
  obtain ⟨fields, gathered, reads⟩ := Shape.exists_fields_of_read found
  obtain ⟨_, hourly, others, hourlyFound, rfl⟩ := Gathered.seq_eq_done_iff.mp gathered
  obtain ⟨_, monthly, plain, monthlyFound, rfl⟩ := Gathered.seq_eq_done_iff.mp others
  obtain ⟨_, _, based, _, rfl⟩ := Gathered.seq_eq_done_iff.mp plain
  obtain ⟨_, _, named, _, rfl⟩ := Gathered.seq_eq_done_iff.mp based
  obtain ⟨_, _, rfl⟩ := Gathered.map_eq_done_iff.mp named
  have monthlySteps (document : Document) (table : MonthlyCorrections Float)
      (read : MonthlyCorrections.ofDocument dialect document = .ok table) :
      ∃ months, dialect.readList (MonthFactor.ofDocument dialect) document = .ok months ∧
        MonthlyCorrections.ofList months = .ok table := by
    obtain ⟨months, listed, made⟩ := bind_eq_ok_iff.mp read
    exact ⟨months, listed, mapError_eq_ok_iff.mp made⟩
  have hourlySteps (document : Document) (table : HourlyCorrections Float)
      (read : HourlyCorrections.ofDocument dialect document = .ok table) :
      ∃ hours, dialect.readList (HourFactor.ofDocument dialect) document = .ok hours ∧
        HourlyCorrections.ofList hours = .ok table := by
    obtain ⟨hours, listed, made⟩ := bind_eq_ok_iff.mp read
    exact ⟨hours, listed, mapError_eq_ok_iff.mp made⟩
  obtain ⟨months, monthsListed, monthsMake⟩ :=
    Fields.getOr_first_step monthlySteps (rfl : MonthlyCorrections.ofList [] = .ok .empty)
      monthlyFound
  obtain ⟨hours, hoursListed, hoursMake⟩ :=
    Fields.getOr_first_step hourlySteps (rfl : HourlyCorrections.ofList [] = .ok .empty)
      hourlyFound
  exact ⟨months, hours, reads monthsListed, reads hoursListed, monthsMake, hoursMake⟩

end TrafficModel

namespace Codec

open Json

variable {model : TrafficModel Float}

theorem decodeTraffic_encodeTraffic (style : Style) (valid : model.validate = .ok ())
    (monthly : model.monthly.Sound) (hourly : model.hourly.Sound) :
    decodeTraffic (encodeTraffic style model) = .ok model := by
  have decoded : decode (TrafficModel.ofDocument .json) (encodeTraffic style model) = .ok model :=
    decode_write (TrafficModel.legible_toDocument monthly hourly)
      (TrafficModel.ofDocument_toDocument valid monthly hourly) style
  apply bind_eq_ok_iff.mpr
  refine ⟨model, mapError_eq_ok_iff.mpr decoded, ?_⟩
  exact bind_eq_ok_iff.mpr ⟨(), refuse_eq_ok_iff.mpr valid, rfl⟩

theorem exists_document_of_decodeTraffic {text : String}
    (decoded : decodeTraffic text = .ok model) :
    model.validate = .ok () ∧
      ∃ document, read? text.toList = some document ∧
        TrafficModel.ofDocument .json document = .ok model := by
  obtain ⟨_, found, checked⟩ := bind_eq_ok_iff.mp decoded
  obtain ⟨_, valid, same⟩ := bind_eq_ok_iff.mp checked
  cases same
  exact ⟨refuse_eq_ok_iff.mp valid, decode_eq_ok (mapError_eq_ok_iff.mp found)⟩

/-- A valid model, whatever its name, comes back from its text in either style.
Whatever a text decodes to is valid; its months are months, its hours hours and
its factors finite and positive; of the entries of one key that the text lists
the last one holds; and it comes back from its own text. -/
theorem decodeTraffic_round_trip :
    (∀ (style : Style) (model : TrafficModel Float), model.validate = .ok () →
      model.monthly.Filled → model.hourly.Filled →
        decodeTraffic (encodeTraffic style model) = .ok model) ∧
    ∀ (text : String) (model : TrafficModel Float), decodeTraffic text = .ok model →
      model.validate = .ok () ∧
      (∀ entry ∈ model.monthly.toList,
        (1 ≤ entry.month ∧ entry.month ≤ 12) ∧ isPositive entry.factor = true) ∧
      (∀ entry ∈ model.hourly.toList, entry.hour ≤ 23 ∧ isPositive entry.factor = true) ∧
      (∃ document months hours, read? text.toList = some document ∧
        TrafficModel.listedMonths .json document = .ok months ∧
        TrafficModel.listedHours .json document = .ok hours ∧
        (∀ month, model.monthly.factors.find? month =
          latest? (months.map MonthFactor.pair) month) ∧
        ∀ hour, model.hourly.factors.find? hour = latest? (hours.map HourFactor.pair) hour) ∧
      ∀ style : Style, decodeTraffic (encodeTraffic style model) = .ok model := by
  constructor
  · intro style model valid monthly hourly
    exact decodeTraffic_encodeTraffic style valid monthly.sound hourly.sound
  · intro text model decoded
    obtain ⟨valid, document, read, found⟩ := exists_document_of_decodeTraffic decoded
    obtain ⟨months, hours, monthsListed, hoursListed, monthsMake, hoursMake⟩ :=
      TrafficModel.ofDocument_listed found
    have monthly : model.monthly.Sound := (MonthlyCorrections.Filled.ofList monthsMake).sound
    have hourly : model.hourly.Sound := (HourlyCorrections.Filled.ofList hoursMake).sound
    refine ⟨valid, monthly.admissible, hourly.admissible, ?_, fun style => ?_⟩
    · exact ⟨document, months, hours, read, monthsListed, hoursListed,
        MonthlyCorrections.find?_of_ofList monthsMake, HourlyCorrections.find?_of_ofList hoursMake⟩
    · exact decodeTraffic_encodeTraffic style valid monthly hourly

deriving instance DecidableEq for Table, MonthlyCorrections, HourlyCorrections, TrafficModel

/-- A model with a name that has to be escaped throughout, February slower and
the nights of Saturday busier. -/
def oddlyNamed : TrafficModel Float :=
  { name := "\"a\\b\"\n\t\x01 é"
    baseVolume := 300.5
    yearlyGrowth := 1.05
    monthly := ⟨⟨[(2, 0.9)]⟩⟩
    hourly := ⟨⟨[(⟨.sat, 23⟩, 1.75)]⟩⟩ }

/-- Lists February three times, every record as the list of its fields. -/
def februaryThrice : String := "[\"orders\", 300, 1, [[2, 4], [2, 3], [2, 0.5]]]"

def slowFebruary : TrafficModel Float :=
  { TrafficModel.plain "orders" 300 1 with monthly := ⟨⟨[(2, 0.5)]⟩⟩ }

theorem decodeTraffic_round_trip_slowFebruary :
    decodeTraffic (encodeTraffic .pretty oddlyNamed) = .ok oddlyNamed ∧
      decodeTraffic februaryThrice = .ok slowFebruary ∧
      (∃ document months, read? februaryThrice.toList = some document ∧
        TrafficModel.listedMonths .json document = .ok months ∧
        latest? (months.map MonthFactor.pair) 2 = some 0.5) ∧
      decodeTraffic (encodeTraffic .compact slowFebruary) = .ok slowFebruary := by
  have valid : oddlyNamed.validate = .ok () := rfl
  have february : MonthlyCorrections.empty.insert ⟨2, 0.9⟩ = .ok oddlyNamed.monthly := rfl
  have nights : HourlyCorrections.empty.insert ⟨.sat, 23, 1.75⟩ = .ok oddlyNamed.hourly := rfl
  have decoded : decodeTraffic februaryThrice = .ok slowFebruary :=
    toOption_eq_some_iff.mp (by decide +kernel)
  obtain ⟨_, _, _, ⟨document, months, _, read, listed, _, last, _⟩, again⟩ :=
    decodeTraffic_round_trip.2 _ _ decoded
  refine ⟨?_, decoded, ⟨document, months, read, listed, (last 2).symm⟩, again .compact⟩
  exact decodeTraffic_round_trip.1 .pretty oddlyNamed valid (.insert .empty february)
    (.insert .empty nights)

end Codec

end PipelineCapacity
