-- SUMMARY: Applying the outcome of an attempt to its job, and storing it.
import JobEngine.Engine.State

/-!
# Outcomes of attempts

A successful attempt completes its job. A failed one is retried while the job's budget lasts, and
fails the job otherwise; the error is recorded as a message. The job is stored first: if that fails,
nothing else happens. A message that cannot be stored is given up.
-/

namespace JobEngine.EngineState

/-- Store a job through the breaker. -/
def saveJob (s : EngineState) (j : Job) : Except EngineError Unit × EngineState :=
  s.guarded (·.saveJob j)

/-- The attempt of `j` succeeded. -/
def handleSuccess (s : EngineState) (j : Job) : Except EngineError Job × EngineState :=
  let j := j.complete s.now
  match s.saveJob j with
  | (.error e, s) => (.error e, s)
  | (.ok (), s) => (.ok j, s.dispatch (.jobCompleted j))

/-- The record of a job after a failed attempt: due again after the delay of the next attempt, or
failed. -/
def afterFailure (s : EngineState) (j : Job) (strategy : RetryStrategy) : Job × EngineState :=
  if j.hasRetriesLeft then
    let (factor, s) := s.drawFactor strategy
    (j.retryAt (strategy.nextAttemptAt factor j.retries.succ s.now), s)
  else (j.fail s.now, s)

/-- The event of a failed attempt. -/
def failureEvent (retried : Bool) (j : Job) (error : TaskError) : EngineEvent :=
  if retried then .jobRetrying j error else .jobFailed j error

/-- The attempt of `j` failed. -/
def handleFailure (s : EngineState) (j : Job) (error : TaskError) (strategy : RetryStrategy) :
    Except EngineError Job × EngineState :=
  let message := JobMessage.ofFailure j.id error j.attempt strategy.name s.now
  let (after, s) := s.afterFailure j strategy
  match s.saveJob after with
  | (.error e, s) => (.error e, s)
  | (.ok (), s) =>
    let (_, s) := s.guarded (·.saveMessage message)
    (.ok after, s.dispatch (failureEvent j.hasRetriesLeft after error))

end JobEngine.EngineState
