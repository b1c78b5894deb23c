-- SUMMARY: The engine: workers and a scheduler on one state, built from settings.
import JobEngine.Config.Basic
import JobEngine.Engine.Execution
import JobEngine.Pool.Basic
import JobEngine.Scheduler.Timer

/-!
# The engine

An `Engine` puts a pool of workers that execute jobs and a scheduler that maintains them on one
`EngineState`. `Engine.build` succeeds just when the settings are valid and there is a storage.
While an engine runs, its workers and timers are tasks in virtual time, carried on by `Engine.poll`.
-/

namespace JobEngine

/-- A running part of an engine. -/
inductive EngineTask where
  | timer (i : Nat)
  | worker (i : Nat)
deriving DecidableEq, Repr

/-- What an engine is built from besides its settings. -/
structure EngineParts where
  storage : Option Backend := none
  tasks : TaskRegistry := ∅
  /-- The environment that every handler sees. -/
  env : Table String String := ∅
  now : Instant

/-- An engine. -/
structure Engine where
  config : EngineConfig
  state : EngineState
  pool : Pool EngineState
  scheduler : Scheduler EngineState

namespace Engine

/-! ## Building -/

/-- The name of the breaker in front of storage. -/
def breakerName : String := "storage"

/-- Check the settings and put the engine together. -/
def build (config : EngineConfig) (parts : EngineParts) : Except EngineError Engine := do
  config.validate
  match parts.storage with
  | none => .error (.configuration "A job storage must be provided")
  | some backend =>
    let settings ← config.breakerSettings
    let retries ← config.retryRegistry
    let retention ← config.retentionPeriod
    let execution : Execution := { tasks := parts.tasks, retries, env := parts.env }
    return {
      config
      state := { now := parts.now, backend, breaker := { name := breakerName, settings } }
      pool := {
        config :=
          { concurrency := config.polling.concurrency, interval := config.polling.interval }
        runner := execution.iterate
        report := EngineState.report }
      scheduler :=
        .build (Command.maintenance config.scheduling.janitorBatchSize retention)
          config.scheduling.initialDelay config.scheduling.interval EngineState.report }

/-! ## Running -/

/-- Carry a part of the engine on. A timer that is cancelled while it is due does not tick. -/
def poll : Poll EngineTask Engine
  | .worker i, now, e =>
    let (turn, pool, state) := e.pool.poll i now e.state
    (turn, { e with pool, state })
  | .timer i, now, e =>
    let (turn, scheduler, state) := e.scheduler.poll false i now e.state
    (turn, { e with scheduler, state })

/-- Start the scheduler and the workers, and answer whether anything was not running. -/
def start (x : VirtualTime EngineTask) (e : Engine) : Bool × VirtualTime EngineTask × Engine :=
  let (timerBegun, scheduler) := e.scheduler.start x.now
  let (poolStarted, pool) := e.pool.start
  let x := x.spawnNew .timer e.scheduler.timers.length scheduler.timers.length
  let x := x.spawnNew .worker e.pool.workers.length pool.workers.length
  (timerBegun || poolStarted, x, { e with scheduler, pool })

/-- Hold the workers before their next iteration. The scheduler goes on. -/
def pause (e : Engine) : Engine := { e with pool := e.pool.pause }

def resume (e : Engine) : Engine := { e with pool := e.pool.resume }

def isPaused (e : Engine) : Bool := e.pool.isPaused

/-! ## Stopping -/

/-- Let running jobs finish within the time that the settings grant, then stop the scheduler. It is
an error if a worker did not end in time. -/
def shutdown (x : VirtualTime EngineTask) (e : Engine) :
    Except EngineError Unit × VirtualTime EngineTask × Engine :=
  let timeout := e.config.polling.shutdownTimeout
  let (finished, x, e) := Pool.shutdown poll pool (fun pool e => { e with pool }) timeout x e
  let e := { e with scheduler := e.scheduler.stop }
  let (x, e) := Scheduler.join poll scheduler (fun scheduler e => { e with scheduler }) x e
  (if finished then .ok () else .error (.shutdownTimeout timeout), x, e)

/-- Abort running jobs and stop the scheduler, without waiting. -/
def shutdownNow (e : Engine) : Engine :=
  { e with
    pool := e.pool.shutdownNow
    state := { e.state with cancelled := true }
    scheduler := e.scheduler.stop }

end Engine

end JobEngine
