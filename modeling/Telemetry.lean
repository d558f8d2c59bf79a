import Telemetry.Address
import Telemetry.Agent.Basic
import Telemetry.Agent.Launch
import Telemetry.Agent.Setup
import Telemetry.Channel
import Telemetry.Clock
import Telemetry.Config
import Telemetry.Delivery.Failure
import Telemetry.Delivery.Packing
import Telemetry.Delivery.Post
import Telemetry.Delivery.Sending
import Telemetry.Envelope.Base64
import Telemetry.Envelope.Basic
import Telemetry.Envelope.Gzip
import Telemetry.Envelope.Hmac
import Telemetry.Envelope.Sha256
import Telemetry.Json.Literal
import Telemetry.Json.Skip
import Telemetry.Json.Token
import Telemetry.Main
import Telemetry.Number.Binary64
import Telemetry.Number.Layout
import Telemetry.Number.Numeral
import Telemetry.Number.Shortest
import Telemetry.Pool.Drain
import Telemetry.Pool.Outcome
import Telemetry.Pool.Permits
import Telemetry.Pool.Worker
import Telemetry.Proofs.Agent.Accounting
import Telemetry.Proofs.Agent.Breakdown
import Telemetry.Proofs.Agent.Cadence
import Telemetry.Proofs.Agent.Conservation
import Telemetry.Proofs.Agent.Crew
import Telemetry.Proofs.Agent.History
import Telemetry.Proofs.Agent.Ledger
import Telemetry.Proofs.Agent.Leftover
import Telemetry.Proofs.Agent.Progress
import Telemetry.Proofs.Agent.Refinement
import Telemetry.Proofs.Agent.Shutdown
import Telemetry.Proofs.Agent.Timetable
import Telemetry.Proofs.Agent.Trail
import Telemetry.Proofs.Agent.Unharmed
import Telemetry.Proofs.Around
import Telemetry.Proofs.Config.Answers
import Telemetry.Proofs.Config.Endpoint
import Telemetry.Proofs.Config.Limits
import Telemetry.Proofs.Config.Settings
import Telemetry.Proofs.Delivery.Answered
import Telemetry.Proofs.Delivery.Errand
import Telemetry.Proofs.Delivery.Packing
import Telemetry.Proofs.Delivery.Tale
import Telemetry.Proofs.Envelope.Base64
import Telemetry.Proofs.Envelope.Gzip
import Telemetry.Proofs.Envelope.Signature
import Telemetry.Proofs.Json.Grammar
import Telemetry.Proofs.Json.Literal
import Telemetry.Proofs.Json.Scan
import Telemetry.Proofs.Json.Skip
import Telemetry.Proofs.Number.Arithmetic
import Telemetry.Proofs.Number.Digits
import Telemetry.Proofs.Number.Interval
import Telemetry.Proofs.Number.Layout
import Telemetry.Proofs.Number.Numeral
import Telemetry.Proofs.Number.Range
import Telemetry.Proofs.Number.Reread
import Telemetry.Proofs.Number.Rounding
import Telemetry.Proofs.Number.Shortest
import Telemetry.Proofs.Pool.Account
import Telemetry.Proofs.Pool.Backlog
import Telemetry.Proofs.Pool.Conservation
import Telemetry.Proofs.Pool.Diligence
import Telemetry.Proofs.Pool.Ending
import Telemetry.Proofs.Pool.Honest
import Telemetry.Proofs.Pool.Limit
import Telemetry.Proofs.Pool.Linked
import Telemetry.Proofs.Pool.Move
import Telemetry.Proofs.Pool.Permits
import Telemetry.Proofs.Pool.Signal
import Telemetry.Proofs.Pool.Tended
import Telemetry.Proofs.Pool.Trail
import Telemetry.Proofs.Retry.Move
import Telemetry.Proofs.Retry.Race
import Telemetry.Proofs.Retry.Schedule
import Telemetry.Proofs.Retry.Steady
import Telemetry.Proofs.Retry.Verdict
import Telemetry.Proofs.Run
import Telemetry.Proofs.Sampling.Isolation
import Telemetry.Proofs.Sampling.Reading
import Telemetry.Proofs.Stage.Chain
import Telemetry.Proofs.Stage.Chunking
import Telemetry.Proofs.Stage.Cut
import Telemetry.Proofs.Stage.Flow
import Telemetry.Proofs.Stage.Generating
import Telemetry.Proofs.Stage.Grouping
import Telemetry.Proofs.Stage.Interleaving
import Telemetry.Proofs.Stage.Linked
import Telemetry.Proofs.Stage.Loss
import Telemetry.Proofs.Stage.Merging
import Telemetry.Proofs.Stage.Move
import Telemetry.Proofs.Stage.Outlet
import Telemetry.Proofs.Stage.ReadAhead
import Telemetry.Proofs.Stage.Signal
import Telemetry.Proofs.Stage.Silence
import Telemetry.Proofs.Text.Utf8
import Telemetry.Proofs.Toml.Document
import Telemetry.Proofs.Toml.Entry
import Telemetry.Proofs.Toml.Keys
import Telemetry.Proofs.Toml.Scalar
import Telemetry.Proofs.Toml.Text
import Telemetry.Proofs.Wire.Batch
import Telemetry.Proofs.Wire.Description
import Telemetry.Proofs.Wire.Gauge
import Telemetry.Proofs.Wire.Members
import Telemetry.Proofs.Wire.Object
import Telemetry.Proofs.Wire.Position
import Telemetry.Proofs.Wire.Reader
import Telemetry.Proofs.Wire.Sequence
import Telemetry.Proofs.Wire.Unambiguous
import Telemetry.Record
import Telemetry.Rehearsal.Bench
import Telemetry.Rehearsal.Collectors
import Telemetry.Rehearsal.Deliveries
import Telemetry.Rehearsal.Ensemble
import Telemetry.Rehearsal.Line
import Telemetry.Rehearsal.Report
import Telemetry.Rehearsal.Row
import Telemetry.Rehearsal.Rules
import Telemetry.Rehearsal.Script
import Telemetry.Rehearsal.Shows
import Telemetry.Rehearsal.Timeline
import Telemetry.Retry.Call
import Telemetry.Retry.Drive
import Telemetry.Retry.Policy
import Telemetry.Sampling.Collector
import Telemetry.Sampling.Host
import Telemetry.Stage.Batcher
import Telemetry.Stage.FanIn
import Telemetry.Stage.Generator
import Telemetry.Stage.Pipeline
import Telemetry.Text.Blank
import Telemetry.Text.Placed
import Telemetry.Text.Quoted
import Telemetry.Text.Unprintable
import Telemetry.Text.Utf8
import Telemetry.Toml.Document
import Telemetry.Toml.Moment
import Telemetry.Toml.Reader
import Telemetry.Toml.Scalar
import Telemetry.Toml.Text
import Telemetry.Toml.Value
import Telemetry.Turns
import Telemetry.Wire.Decode
import Telemetry.Wire.Encode
import Telemetry.Wire.Fault
