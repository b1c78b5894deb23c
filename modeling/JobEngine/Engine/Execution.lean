-- SUMMARY: One iteration of a worker: pick a job, run its handler, apply the outcome.
import JobEngine.Engine.Outcome
import JobEngine.Engine.Task
import JobEngine.Loop.Polling
import JobEngine.Retry.Registry

/-!
# Executing jobs

Nothing that a handler does escapes an iteration. An error, a panic, an attempt that takes too long
and a job whose handler is not registered are all failures of the attempt. An outcome that cannot be
stored is dropped; the job then stays executing until the janitor reclaims it.
-/

namespace JobEngine

/-- What workers need besides the state. -/
structure Execution where
  tasks : TaskRegistry := ∅
  retries : RetryRegistry := RetryRegistry.bundled
  env : Table String String := ∅

/-! ## Picking -/

/-- Take the next ready job. A failing storage has no job. -/
def EngineState.pick (s : EngineState) : Option Job × EngineState :=
  match s.guarded (·.pickJob s.now) with
  | (.ok (some j), s) => (some j, s.dispatch (.jobSelected j))
  | (.ok none, s) => (none, s)
  | (.error _, s) => (none, s)

/-! ## Attempts -/

/-- How long an attempt may take: as the job says, else as the task says; zero does not count. -/
def TaskDescriptor.limitOf (d : TaskDescriptor) (j : Job) : Option Duration :=
  if j.timeout.isZero then d.timeout.filter (!·.isZero) else some j.timeout

/-- A duration in whole milliseconds, rounded up. -/
def Duration.millisUp (d : Duration) : Nat := (d.nanos + 999999) / 1000000

/-- The result of a handler that ended or was stopped. -/
def TaskDescriptor.resultOf (limit : Duration) : Option (Ending TaskResult) → TaskResult
  | some (.done result) => result
  | some (.panic payload) => .error (.panicked payload.message)
  | none => .error (.timeout limit)

/-- Run the handler on a job under its limit. -/
def TaskDescriptor.attempt (d : TaskDescriptor) (ctx : TaskContext) :
    Activity EngineState TaskResult :=
  let work := (d.handler ctx).caught
  match d.limitOf ctx.job with
  | none => work.bind fun e => .done (resultOf .zero (some e))
  | some limit => (work.within limit.millisUp).bind fun e => .done (resultOf limit e)

namespace Execution

/-- The attempt of a job: its handler's, or a failure if it has none. -/
def attempt (x : Execution) (j : Job) : Activity EngineState TaskResult :=
  match x.tasks.get? j.handler with
  | some d => d.attempt { job := j, env := x.env }
  | none => Handler.failWith (.taskNotFound j.handler)

/-- The retry strategy of a job: the one its task names, or the default. -/
def strategyOf (x : Execution) (j : Job) : RetryStrategy :=
  x.retries.resolve ((x.tasks.get? j.handler).bind (·.retryStrategy))

/-- How an attempt shows on metrics. -/
def outcomeName : TaskResult → AttemptOutcome
  | .ok () => .completed
  | .error e => if e.timedOut then .timedOut else .failed

/-- Apply the outcome of an attempt that took `elapsed` milliseconds. -/
def settle (x : Execution) (j : Job) (result : TaskResult) (elapsed : Nat) (s : EngineState) :
    EngineState :=
  let s := { s with
    metrics := s.metrics.recordExecution j.handler (outcomeName result).name (.ofMillis elapsed) }
  match result with
  | .ok () => (s.handleSuccess j).2
  | .error e => (s.handleFailure j e (x.strategyOf j)).2

/-- Run a picked job and apply the outcome. -/
def process (x : Execution) (j : Job) : Activity EngineState Unit :=
  ((x.attempt j).timed 0).bind fun (result, elapsed) =>
    .modify (x.settle j result elapsed) (.done ())

/-- One iteration: it is skipped if there is no job. -/
def iterate (x : Execution) : Activity EngineState IterationStatus :=
  .act EngineState.pick fun
    | none => .done .skipped
    | some j => (x.process j).bind fun _ => .done .processed

end Execution

end JobEngine
