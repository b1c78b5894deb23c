-- SUMMARY: What the engine tells the outside about the jobs it moves.
import JobEngine.Job.CronDefinition
import JobEngine.Job.Message

/-!
# Engine events

Every change that the engine makes to a job is told as an event. An event that is about a job
carries the job's record as it was stored.
-/

namespace JobEngine

/-- Something that the engine did. -/
inductive EngineEvent where
  | jobEnqueued (job : Job)
  | jobSelected (job : Job)
  | jobCompleted (job : Job)
  | jobRetrying (job : Job) (error : TaskError)
  | jobFailed (job : Job) (error : TaskError)
  | jobProgress (progress : JobProgress)
  | jobRescued (job : Job)
  | cronScheduled (cron : CronDefinition) (job : Job)
  | jobsDeleted (count : Nat) (olderThan : Instant)
deriving DecidableEq

namespace EngineEvent

/-- The name of an event, on metrics and in reports. -/
def name : EngineEvent → String
  | .jobEnqueued _ => "job.enqueued"
  | .jobSelected _ => "job.selected"
  | .jobCompleted _ => "job.completed"
  | .jobRetrying _ _ => "job.retrying"
  | .jobFailed _ _ => "job.failed"
  | .jobProgress _ => "job.progress"
  | .jobRescued _ => "job.rescued"
  | .cronScheduled _ _ => "cron.scheduled"
  | .jobsDeleted _ _ => "jobs.deleted"

/-- The job record that an event carries. -/
def job? : EngineEvent → Option Job
  | .jobEnqueued j | .jobSelected j | .jobCompleted j | .jobRetrying j _ | .jobFailed j _
  | .jobRescued j | .cronScheduled _ j => some j
  | .jobProgress _ | .jobsDeleted _ _ => none

end EngineEvent

end JobEngine
