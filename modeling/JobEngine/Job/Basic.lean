-- SUMMARY: Job records, the transitions between their states, and the questions asked of them.
import JobEngine.Count
import JobEngine.Job.State
import JobEngine.Retry.Strategy
import JobEngine.Table
import JobEngine.Time.Instant
import JobEngine.Uuid

/-!
# Jobs

A `Job` is one unit of work with its payload, its retry budget and the times at which it passed
through its lifecycle. The functions `enqueue`, `execute`, `complete`, `retryAt`, `fail`, `discard`
and `rescue` are the transitions; each sets the state and touches only the times that belong to it.
-/

namespace JobEngine

/-- A named group of jobs. Heavier queues are served first; a locked one does not fire its cron
definitions. -/
structure Queue where
  id : QueueId
  name : String
  weight : Count := 1
  locked : Bool := false
deriving DecidableEq

/-- A set of labels. -/
abbrev TagSet := Table String Unit

namespace TagSet

def ofList (tags : List String) : TagSet := Table.ofList (tags.map (·, ()))
def toList (t : TagSet) : List String := t.keys
def add (t : TagSet) (tag : String) : TagSet := t.insert tag ()

end TagSet

/-- One unit of work. -/
structure Job where
  id : JobId
  /-- A key of the client's choice. -/
  identifier : Option String
  queue : Queue
  /-- The name of the task that runs the job. -/
  handler : String
  state : JobState
  category : JobCategory
  data : Json
  retries : Count
  maxRetries : Count
  /-- How long an attempt may take; zero is no limit. -/
  timeout : Duration
  tags : TagSet
  createdAt : Instant
  scheduledAt : Option Instant
  executingAt : Option Instant
  completedAt : Option Instant
  failedAt : Option Instant
  discardedAt : Option Instant
deriving DecidableEq

namespace Job

/-- How long an attempt may take unless told otherwise. -/
def defaultTimeout : Duration := .ofSecs 300

/-- A job that is ready to run at `now`. -/
def new (id : JobId) (handler : String) (queue : Queue) (now : Instant) : Job where
  id := id
  identifier := none
  queue := queue
  handler := handler
  state := .enqueued
  category := .normal
  data := .null
  retries := 0
  maxRetries := 3
  timeout := defaultTimeout
  tags := ∅
  createdAt := now
  scheduledAt := some now
  executingAt := none
  completedAt := none
  failedAt := none
  discardedAt := none

/-- Put the job off until `at`. -/
def scheduleFor (j : Job) (time : Instant) : Job :=
  { j with scheduledAt := some time, state := .scheduled }

/-! ## Transitions -/

/-- The job is ready. -/
def enqueue (j : Job) : Job := { j with state := .enqueued }

/-- An attempt begins. -/
def execute (j : Job) (now : Instant) : Job :=
  { j with state := .executing, executingAt := some now }

/-- The attempt succeeded. -/
def complete (j : Job) (now : Instant) : Job :=
  { j with state := .completed, completedAt := some now, failedAt := none, discardedAt := none }

/-- The attempt failed and is counted; the next one is due at `next`. -/
def retryAt (j : Job) (next : Instant) : Job :=
  { j with
    retries := j.retries.succ
    state := .retryable
    scheduledAt := some next
    executingAt := none }

/-- The attempt failed for good. -/
def fail (j : Job) (now : Instant) : Job :=
  { j with state := .failed, failedAt := some now, completedAt := none, discardedAt := none }

/-- The job is dropped. -/
def discard (j : Job) (now : Instant) : Job :=
  { j with state := .discarded, discardedAt := some now, completedAt := none, failedAt := none }

/-- A stuck job runs again at once. Its lost attempt is counted, and a job whose budget is spent
gets one retry more. -/
def rescue (j : Job) (now : Instant) : Job :=
  { j with
    maxRetries := if j.maxRetries ≤ j.retries then j.retries.succ else j.maxRetries
    retries := j.retries.succ
    state := .retryable
    scheduledAt := some now
    executingAt := none
    completedAt := none
    failedAt := none
    discardedAt := none }

/-! ## Questions -/

/-- The attempt has taken longer than the job's timeout. -/
def isStale (j : Job) (now : Instant) : Bool :=
  if j.state ≠ .executing ∨ j.timeout.isZero then false
  else
    match j.executingAt with
    | some started => started.add j.timeout < now
    | none => false

/-- The time the job waits for has come. -/
def isDue (j : Job) (now : Instant) : Bool :=
  match j.scheduledAt with
  | none => true
  | some time => time ≤ now

/-- When the job left the lifecycle. -/
def finishedAt (j : Job) : Option Instant :=
  match j.completedAt, j.failedAt with
  | some time, _ => some time
  | none, some time => some time
  | none, none => j.discardedAt

/-- The budget allows another attempt after a failure. -/
def hasRetriesLeft (j : Job) : Bool := mayRetry j.retries j.maxRetries

/-- The number of the attempt that runs or comes next, from 1. -/
def attempt (j : Job) : Count := j.retries.succ

end Job

end JobEngine
