import JobEngine.Activity
import JobEngine.Binary64.Basic
import JobEngine.Binary64.Numeral
import JobEngine.Binary64.Shortest
import JobEngine.Breaker.Basic
import JobEngine.Breaker.State
import JobEngine.CommandLine.Arguments
import JobEngine.CommandLine.Report
import JobEngine.Config.Basic
import JobEngine.Config.Dotenv
import JobEngine.Config.Layers
import JobEngine.Config.Load
import JobEngine.Config.Record
import JobEngine.Config.Toml
import JobEngine.Config.Yaml
import JobEngine.Count
import JobEngine.Cron.Expression
import JobEngine.Cron.Schedule
import JobEngine.Engine.Basic
import JobEngine.Engine.Execution
import JobEngine.Engine.Outcome
import JobEngine.Engine.Script
import JobEngine.Engine.State
import JobEngine.Engine.Task
import JobEngine.Engine.Watch
import JobEngine.Error.Basic
import JobEngine.Error.Code
import JobEngine.Error.Task
import JobEngine.Job.Basic
import JobEngine.Job.CronDefinition
import JobEngine.Job.Filter
import JobEngine.Job.Message
import JobEngine.Job.Record
import JobEngine.Job.State
import JobEngine.Json.Basic
import JobEngine.Json.Printer
import JobEngine.Json.Reader
import JobEngine.Json.Reading
import JobEngine.Json.Record
import JobEngine.Loop.Control
import JobEngine.Loop.Group
import JobEngine.Loop.Polling
import JobEngine.Main
import JobEngine.Pool.Basic
import JobEngine.Pool.Run
import JobEngine.Pool.Stats
import JobEngine.Proofs.Activity.Steps
import JobEngine.Proofs.Attempts.Budget
import JobEngine.Proofs.Attempts.History
import JobEngine.Proofs.Breaker.History
import JobEngine.Proofs.Breaker.Recovery
import JobEngine.Proofs.Breaker.Sharing
import JobEngine.Proofs.Breaker.Transitions
import JobEngine.Proofs.Config.Settings
import JobEngine.Proofs.Cron.FireTimes
import JobEngine.Proofs.Cron.Schedule
import JobEngine.Proofs.Engine.Accounting
import JobEngine.Proofs.Engine.Attempts
import JobEngine.Proofs.Engine.Backoff
import JobEngine.Proofs.Engine.Building
import JobEngine.Proofs.Engine.Cadence
import JobEngine.Proofs.Engine.Calls
import JobEngine.Proofs.Engine.Conclusions
import JobEngine.Proofs.Engine.Crowd
import JobEngine.Proofs.Engine.Deadlines
import JobEngine.Proofs.Engine.Firing
import JobEngine.Proofs.Engine.Iterations
import JobEngine.Proofs.Engine.Outage
import JobEngine.Proofs.Engine.Purging
import JobEngine.Proofs.Engine.Reclaim
import JobEngine.Proofs.Engine.Records
import JobEngine.Proofs.Engine.Rescue
import JobEngine.Proofs.Engine.Restarts
import JobEngine.Proofs.Engine.Routines
import JobEngine.Proofs.Engine.Serving
import JobEngine.Proofs.Engine.Sweep
import JobEngine.Proofs.Engine.Switching
import JobEngine.Proofs.Engine.Telling
import JobEngine.Proofs.Interleaving.Change
import JobEngine.Proofs.Interleaving.Commands
import JobEngine.Proofs.Interleaving.Custody
import JobEngine.Proofs.Interleaving.Finality
import JobEngine.Proofs.Interleaving.Grants
import JobEngine.Proofs.Interleaving.Lifecycle
import JobEngine.Proofs.Interleaving.World
import JobEngine.Proofs.Job.Records
import JobEngine.Proofs.Loop.Phases
import JobEngine.Proofs.Loop.Sharing
import JobEngine.Proofs.Loop.Turns
import JobEngine.Proofs.Loop.Waking
import JobEngine.Proofs.Pool.Aborting
import JobEngine.Proofs.Pool.Slots
import JobEngine.Proofs.Pool.Workers
import JobEngine.Proofs.Scheduler.Overlap
import JobEngine.Proofs.Scheduler.Rounds
import JobEngine.Proofs.Scheduler.Settling
import JobEngine.Proofs.Scheduler.Stopping
import JobEngine.Proofs.Scheduler.Ticks
import JobEngine.Proofs.Scheduler.Timers
import JobEngine.Proofs.Store.Definitions
import JobEngine.Proofs.Store.Draining
import JobEngine.Proofs.Store.Listing
import JobEngine.Proofs.Store.Promotion
import JobEngine.Proofs.Store.Records
import JobEngine.Proofs.Store.Walks
import JobEngine.Proofs.Telemetry.Metrics
import JobEngine.Proofs.Time.Saturation
import JobEngine.Retention
import JobEngine.Retry.Registry
import JobEngine.Retry.Strategy
import JobEngine.Scheduler.Maintenance
import JobEngine.Scheduler.Run
import JobEngine.Scheduler.Tick
import JobEngine.Scheduler.Timer
import JobEngine.Store.Backend
import JobEngine.Store.Basic
import JobEngine.Table
import JobEngine.Telemetry.Event
import JobEngine.Telemetry.Exposition
import JobEngine.Telemetry.LogFilter
import JobEngine.Telemetry.Metrics
import JobEngine.Telemetry.Settings
import JobEngine.Text.Blank
import JobEngine.Text.Digits
import JobEngine.Text.Escaped
import JobEngine.Text.Grid
import JobEngine.Text.Hex
import JobEngine.Text.Quoted
import JobEngine.Text.Word
import JobEngine.Time.Calendar
import JobEngine.Time.Duration
import JobEngine.Time.DurationText
import JobEngine.Time.Instant
import JobEngine.Time.Rfc3339
import JobEngine.Uuid
import JobEngine.VirtualTime
