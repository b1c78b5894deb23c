-- SUMMARY: Recurring job definitions and the jobs derived from them.
import JobEngine.Job.Basic

/-!
# Cron definitions

A `CronDefinition` describes a job that recurs. When it is due, a job is derived from it and its
next run is moved on.
-/

namespace JobEngine

/-- A recurring job. -/
structure CronDefinition where
  id : CronId
  name : String
  expression : String
  handler : String
  queue : Queue
  maxRetries : Count := 3
  timeout : Duration := Job.defaultTimeout
  enabled : Bool := true
  /-- When the definition fires next; `none` if it never fired. -/
  nextRunAt : Option Instant := none
  data : Json := .null
  tags : TagSet := ∅
deriving DecidableEq

namespace CronDefinition

/-- Enabled, on a queue that is not locked, and never run or past its next run. -/
def isDue (c : CronDefinition) (now : Instant) : Bool :=
  c.enabled && !c.queue.locked &&
    match c.nextRunAt with
    | none => true
    | some time => time ≤ now

/-- The job of one firing. It carries the definition's name as its identifier. -/
def toJob (c : CronDefinition) (id : JobId) (now : Instant) : Job where
  id := id
  identifier := some c.name
  queue := c.queue
  handler := c.handler
  state := .scheduled
  category := .scheduled
  data := c.data
  retries := 0
  maxRetries := c.maxRetries
  timeout := c.timeout
  tags := c.tags
  createdAt := now
  scheduledAt := some now
  executingAt := none
  completedAt := none
  failedAt := none
  discardedAt := none

end CronDefinition

end JobEngine
