import PipelineCapacity.Document.Record
import PipelineCapacity.Forecast.Traffic

/-!
Documents of calendar data, traffic models and forecasts. Correction tables and
forecasts are lists of their entries; reading one builds the table or forecast
anew, with all its checks.
-/

set_option autoImplicit false

namespace PipelineCapacity

open Document

def Date.toDocument (date : Date) : Document := .text date.text

namespace Weekday

def toDocument (weekday : Weekday) : Document := .text weekday.abbreviation

/-- Exact abbreviations only. -/
def ofDocument (dialect : Dialect) : Document → Reading Weekday :=
  dialect.readVariant all abbreviation

end Weekday

namespace Slot

def toDocument (slot : Slot) : Document :=
  .record
    [("year", .integer slot.year), ("month", ofNat slot.month), ("day", ofNat slot.day),
      ("day_of_week", slot.weekday.toDocument), ("hour", ofNat slot.hour)]

def shape : Shape := ⟨"TimeIndex", 5⟩

def gather (dialect : Dialect) (fields : Fields) : Gathered Slot :=
  Slot.mk <$> fields.get 0 "year" dialect.readYear
    <*> fields.get 1 "month" dialect.readCount
    <*> fields.get 2 "day" dialect.readCount
    <*> fields.get 3 "day_of_week" (Weekday.ofDocument dialect)
    <*> fields.get 4 "hour" dialect.readCount

def ofDocument (dialect : Dialect) : Document → Reading Slot :=
  shape.read dialect (gather dialect)

end Slot

namespace MonthFactor

def toDocument (entry : MonthFactor Float) : Document :=
  .record [("month", ofNat entry.month), ("factor", ofFloat entry.factor)]

def shape : Shape := ⟨"MonthlyFactor", 2⟩

def gather (dialect : Dialect) (fields : Fields) : Gathered (MonthFactor Float) :=
  MonthFactor.mk <$> fields.get 0 "month" dialect.readCount
    <*> fields.get 1 "factor" dialect.readReal

def ofDocument (dialect : Dialect) : Document → Reading (MonthFactor Float) :=
  shape.read dialect (gather dialect)

end MonthFactor

namespace HourFactor

def toDocument (entry : HourFactor Float) : Document :=
  .record
    [("day_of_week", entry.weekday.toDocument), ("hour", ofNat entry.hour),
      ("factor", ofFloat entry.factor)]

def shape : Shape := ⟨"HourlyFactor", 3⟩

def gather (dialect : Dialect) (fields : Fields) : Gathered (HourFactor Float) :=
  HourFactor.mk <$> fields.get 0 "day_of_week" (Weekday.ofDocument dialect)
    <*> fields.get 1 "hour" dialect.readCount
    <*> fields.get 2 "factor" dialect.readReal

def ofDocument (dialect : Dialect) : Document → Reading (HourFactor Float) :=
  shape.read dialect (gather dialect)

end HourFactor

namespace MonthlyCorrections

def toDocument (table : MonthlyCorrections Float) : Document :=
  .list (table.toList.map MonthFactor.toDocument)

def ofDocument (dialect : Dialect) (document : Document) :
    Reading (MonthlyCorrections Float) := do
  let entries ← dialect.readList (MonthFactor.ofDocument dialect) document
  (ofList entries).mapError .refused

end MonthlyCorrections

namespace HourlyCorrections

def toDocument (table : HourlyCorrections Float) : Document :=
  .list (table.toList.map HourFactor.toDocument)

def ofDocument (dialect : Dialect) (document : Document) :
    Reading (HourlyCorrections Float) := do
  let entries ← dialect.readList (HourFactor.ofDocument dialect) document
  (ofList entries).mapError .refused

end HourlyCorrections

namespace TrafficModel

def toDocument (model : TrafficModel Float) : Document :=
  .record
    [("model_name", .text model.name), ("base_volume", ofFloat model.baseVolume),
      ("yearly_growth_rate", ofFloat model.yearlyGrowth),
      ("monthly_corrections", model.monthly.toDocument),
      ("hourly_corrections", model.hourly.toDocument)]

def shape : Shape := ⟨"ForecastParams", 5⟩

def gather (dialect : Dialect) (fields : Fields) : Gathered (TrafficModel Float) :=
  TrafficModel.mk <$> fields.get 0 "model_name" dialect.readText
    <*> fields.get 1 "base_volume" dialect.readReal
    <*> fields.get 2 "yearly_growth_rate" dialect.readReal
    <*> fields.getOr (.allowed .empty) 3 "monthly_corrections"
      (MonthlyCorrections.ofDocument dialect)
    <*> fields.getOr (.allowed .empty) 4 "hourly_corrections"
      (HourlyCorrections.ofDocument dialect)

def ofDocument (dialect : Dialect) : Document → Reading (TrafficModel Float) :=
  shape.read dialect (gather dialect)

end TrafficModel

namespace ForecastRow

def toDocument (row : ForecastRow Float) : Document :=
  .record
    [("index", row.slot.toDocument), ("base_volume", ofFloat row.baseVolume),
      ("monthly_adjusted_volume", ofFloat row.monthlyVolume),
      ("hourly_adjusted_volume", ofFloat row.hourlyVolume)]

def shape : Shape := ⟨"ForecastRow", 4⟩

def gather (dialect : Dialect) (fields : Fields) : Gathered (ForecastRow Float) :=
  ForecastRow.mk <$> fields.get 0 "index" (Slot.ofDocument dialect)
    <*> fields.get 1 "base_volume" dialect.readReal
    <*> fields.get 2 "monthly_adjusted_volume" dialect.readReal
    <*> fields.get 3 "hourly_adjusted_volume" dialect.readReal

def ofDocument (dialect : Dialect) : Document → Reading (ForecastRow Float) :=
  shape.read dialect (gather dialect)

end ForecastRow

namespace Forecast

def toDocument (forecast : Forecast Float) : Document :=
  .list (forecast.rows.map ForecastRow.toDocument)

def ofDocument (dialect : Dialect) (document : Document) : Reading (Forecast Float) := do
  let rows ← dialect.readList (ForecastRow.ofDocument dialect) document
  (ofRows rows).mapError .refused

end Forecast

end PipelineCapacity
