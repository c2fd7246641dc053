import PipelineCapacity.Calendar.Date
import PipelineCapacity.Calendar.Date.Text
import PipelineCapacity.Calendar.Slot
import PipelineCapacity.Codec
import PipelineCapacity.Config
import PipelineCapacity.ConfigText
import PipelineCapacity.Decimal
import PipelineCapacity.Document
import PipelineCapacity.Document.Mismatch
import PipelineCapacity.Document.Record
import PipelineCapacity.Failure
import PipelineCapacity.Forecast.Corrections
import PipelineCapacity.Forecast.Series
import PipelineCapacity.Forecast.Traffic
import PipelineCapacity.InvalidParameter
import PipelineCapacity.Json.Number
import PipelineCapacity.Json.Reader
import PipelineCapacity.Json.Text
import PipelineCapacity.Json.Writer
import PipelineCapacity.Pipeline.Model
import PipelineCapacity.Pipeline.Params
import PipelineCapacity.Pipeline.Preset
import PipelineCapacity.Proofs.Calendar.Days
import PipelineCapacity.Proofs.Calendar.Succession
import PipelineCapacity.Proofs.Calendar.Text
import PipelineCapacity.Proofs.Calendar.Timeline
import PipelineCapacity.Proofs.Codec
import PipelineCapacity.Proofs.Codec.Traffic
import PipelineCapacity.Proofs.Codec.Verdict
import PipelineCapacity.Proofs.ConfigText
import PipelineCapacity.Proofs.Decimal.Literal
import PipelineCapacity.Proofs.Decimal.Packing
import PipelineCapacity.Proofs.Decimal.Rounding
import PipelineCapacity.Proofs.Decimal.Shortest
import PipelineCapacity.Proofs.Decimal.Whole
import PipelineCapacity.Proofs.Document.Lookup
import PipelineCapacity.Proofs.Document.Record
import PipelineCapacity.Proofs.Document.Relevance
import PipelineCapacity.Proofs.Document.Sorted
import PipelineCapacity.Proofs.Exact
import PipelineCapacity.Proofs.Failure
import PipelineCapacity.Proofs.Forecast.Acceptance
import PipelineCapacity.Proofs.Forecast.Corrections
import PipelineCapacity.Proofs.Forecast.Editing
import PipelineCapacity.Proofs.Forecast.Entries
import PipelineCapacity.Proofs.Forecast.Locality
import PipelineCapacity.Proofs.Forecast.Positions
import PipelineCapacity.Proofs.Forecast.Volumes
import PipelineCapacity.Proofs.Json.Document
import PipelineCapacity.Proofs.Json.Number
import PipelineCapacity.Proofs.Json.Numeral
import PipelineCapacity.Proofs.Json.Text
import PipelineCapacity.Proofs.Mean
import PipelineCapacity.Proofs.Pipeline.Calibration
import PipelineCapacity.Proofs.Pipeline.Conservation
import PipelineCapacity.Proofs.Pipeline.ConstantLoad
import PipelineCapacity.Proofs.Pipeline.Demand
import PipelineCapacity.Proofs.Pipeline.Hour
import PipelineCapacity.Proofs.Pipeline.OnDemand
import PipelineCapacity.Proofs.Pipeline.Params
import PipelineCapacity.Proofs.Pipeline.RecordUnit
import PipelineCapacity.Proofs.Pipeline.Resolution
import PipelineCapacity.Proofs.Pipeline.SingleUnit
import PipelineCapacity.Proofs.Pipeline.Spread
import PipelineCapacity.Proofs.Pipeline.Steps
import PipelineCapacity.Proofs.Pipeline.WhatIf
import PipelineCapacity.Proofs.Queue.Excess
import PipelineCapacity.Proofs.Queue.Service
import PipelineCapacity.Proofs.Repository
import PipelineCapacity.Proofs.Repository.Interleaving
import PipelineCapacity.Proofs.Result.Sla
import PipelineCapacity.Proofs.Result.Summary
import PipelineCapacity.Proofs.Run.Announcements
import PipelineCapacity.Proofs.Run.Columns
import PipelineCapacity.Proofs.Run.Course
import PipelineCapacity.Proofs.Run.Execution
import PipelineCapacity.Proofs.Run.Executions
import PipelineCapacity.Proofs.Run.Interruption
import PipelineCapacity.Proofs.Run.Job
import PipelineCapacity.Proofs.Run.RecordUnit
import PipelineCapacity.Proofs.Run.Schedule
import PipelineCapacity.Proofs.Scaling.Decision
import PipelineCapacity.Proofs.Scaling.Drift
import PipelineCapacity.Proofs.Scaling.Freshness
import PipelineCapacity.Proofs.Scaling.History
import PipelineCapacity.Proofs.Scaling.Window
import PipelineCapacity.Proofs.Sign
import PipelineCapacity.Proofs.Store
import PipelineCapacity.Proofs.Stored.Config
import PipelineCapacity.Proofs.Stored.Forecast
import PipelineCapacity.Proofs.Stored.Pipeline
import PipelineCapacity.Proofs.Stored.Record
import PipelineCapacity.Proofs.Stored.Result
import PipelineCapacity.Proofs.Stored.Typing
import PipelineCapacity.Proofs.Table
import PipelineCapacity.Quantity
import PipelineCapacity.Queue
import PipelineCapacity.Repository
import PipelineCapacity.Result
import PipelineCapacity.Run.Basic
import PipelineCapacity.Run.Event
import PipelineCapacity.Run.Job
import PipelineCapacity.Scaling.Hysteresis
import PipelineCapacity.Scaling.Window
import PipelineCapacity.Stored.Forecast
import PipelineCapacity.Stored.Pipeline
import PipelineCapacity.Stored.Result
import PipelineCapacity.Table
import PipelineCapacity.Text.Numeral
import PipelineCapacity.Text.Unprintable
import PipelineCapacity.Toml.Moment
import PipelineCapacity.Toml.Number
import PipelineCapacity.Toml.Reader
import PipelineCapacity.Toml.Text
import PipelineCapacity.Toml.Tree
