-- SUMMARY: Notes recorded against jobs, and progress that running jobs report.
import JobEngine.Error.Task
import JobEngine.Job.Basic

/-!
# Job messages

A `JobMessage` is a note attached to a job, as a rule the error behind a retry or a failure.
-/

namespace JobEngine

/-- The level of a note. -/
inductive MessageLevel where
  | info
  | warn
  | error
deriving DecidableEq, Repr

namespace MessageLevel

def name : MessageLevel → String
  | .info => "info"
  | .warn => "warn"
  | .error => "error"

def ofName? (s : String) : Option MessageLevel := [info, warn, error].find? (fun x => x.name = s)

def toJson (l : MessageLevel) : Json := .str l.name
def ofJson? (v : Json) : Option MessageLevel := v.name?.bind ofName?

instance : Recorded MessageLevel := ⟨toJson, ofJson?⟩

end MessageLevel

/-- A note attached to a job. -/
structure JobMessage where
  jobId : JobId
  level : MessageLevel
  message : String
  detail : Option Json := none
  createdAt : Instant
deriving DecidableEq

/-- The note of a failed attempt: the error, the number of the attempt from 1, and the name of the
retry strategy that applies to the job. -/
def JobMessage.ofFailure (job : JobId) (error : TaskError) (attempt : Count) (strategy : String)
    (now : Instant) : JobMessage where
  jobId := job
  level := .error
  message := error.message
  detail := some (.object [
    ("code", .ofOption .str error.code),
    ("context", .ofOption id error.context),
    ("timed_out", .bool error.timedOut),
    ("attempt", attempt.toJson),
    ("strategy", .str strategy)])
  createdAt := now

/-- How far a running job has come. -/
structure JobProgress where
  jobId : JobId
  /-- Handlers report from 0 to 100. -/
  percent : Nat
  message : Option String
  timestamp : Instant
deriving DecidableEq

end JobEngine
