-- SUMMARY: A pool of workers that share one loop control: starting, pausing, draining, aborting.
import JobEngine.Loop.Polling
import JobEngine.Telemetry.Metrics
import JobEngine.VirtualTime

/-!
# Worker pools

A `Pool` keeps a fixed number of polling loops running. It remembers every worker that it ever
spawned and holds the handles of those that fill its slots. A worker ends when its loop ends, when
an iteration panics, or when it is carried on after it was aborted; until then its slot is taken. A
pool that was shut down never starts a worker again.
-/

namespace JobEngine

/-- What a pool is called, how many workers it has, and how long each rests between iterations. -/
structure PoolConfig where
  name : String := "jobs"
  concurrency : Nat := 4
  interval : Duration := .ofSecs 1

/-- How a worker ended. -/
inductive WorkerEnding where
  | finished
  | panicked
  | aborted
deriving DecidableEq, Repr

/-- Where a worker stands. -/
inductive WorkerPhase (ω : Type) where
  /-- It has not been carried on yet. -/
  | spawned
  | looping (phase : LoopPhase ω)
  | ended (ending : WorkerEnding)

/-- A worker. -/
structure Worker (ω : Type) where
  phase : WorkerPhase ω := .spawned
  /-- It ends when it is carried on next. -/
  aborted : Bool := false

namespace Worker

variable {ω : Type}

/-- The worker has ended. -/
def isFinished (w : Worker ω) : Bool :=
  match w.phase with
  | .ended _ => true
  | _ => false

/-- The worker's loop runs. -/
def isActive (w : Worker ω) : Bool :=
  match w.phase with
  | .looping _ => true
  | _ => false

end Worker

/-- A pool of workers on a state `ω`. -/
structure Pool (ω : Type) where
  config : PoolConfig := {}
  runner : Activity ω IterationStatus
  /-- Where the pool reports numbers. -/
  report : MetricsSink ω
  control : LoopControl := { paused := true, signals := 1 }
  stats : PollingStats := {}
  /-- All workers that were ever spawned. -/
  workers : List (Worker ω) := []
  /-- The workers whose handles the pool holds. -/
  held : List Nat := []
  started : Bool := false
  spawned : Nat := 0
  panics : Nat := 0
  active : Nat := 0
  /-- Running iterations are asked to stop. -/
  aborted : Bool := false

namespace Pool

variable {ω : Type}

/-- Whether the worker of a handle has ended. -/
def isFinished (p : Pool ω) (i : Nat) : Bool :=
  match p.workers[i]? with
  | some w => w.isFinished
  | none => true

/-- How many workers have not ended. -/
def unfinished (p : Pool ω) : Nat := p.workers.countP (!·.isFinished)

/-! ## Starting -/

/-- Spawn workers and hold their handles. -/
def spawn (p : Pool ω) (count : Nat) : Pool ω :=
  { p with
    workers := p.workers ++ List.replicate count {}
    held := p.held ++ (List.range count).map (· + p.workers.length)
    spawned := p.spawned + count }

/-- Fill every empty slot, and answer whether there was one. The first call lets the loops go. -/
def start (p : Pool ω) : Bool × Pool ω :=
  if p.control.interrupted then (false, p)
  else
    let first := !p.started
    let p := { p with started := true, held := p.held.filter (!p.isFinished ·) }
    let missing := p.config.concurrency - p.held.length
    if missing = 0 then (false, p)
    else
      let p := p.spawn missing
      (true, if first then { p with control := p.control.resume } else p)

/-! ## Pausing and stopping -/

def pause (p : Pool ω) : Pool ω := { p with control := p.control.pause }
def resume (p : Pool ω) : Pool ω := { p with control := p.control.resume }
def isPaused (p : Pool ω) : Bool := p.control.paused

/-- Begin to shut down: stop the loops, and give away the handles. -/
def drain (p : Pool ω) : List Nat × Pool ω :=
  (p.held, { p with control := p.control.interrupt, held := [] })

/-- Whether all workers of some handles have ended. -/
def allFinished (handles : List Nat) (p : Pool ω) : Bool := handles.all p.isFinished

/-- Take back the handles of the workers that did not end in time. -/
def putBack (handles : List Nat) (p : Pool ω) : Pool ω :=
  { p with held := p.held ++ handles.filter (!p.isFinished ·) }

/-- Mark workers as aborted. -/
def abort (workers : List (Worker ω)) (handles : List Nat) : List (Worker ω) :=
  workers.mapIdx fun i w => if i ∈ handles then { w with aborted := true } else w

/-- Shut down at once: stop the loops, and abort every worker whose handle is held. -/
def shutdownNow (p : Pool ω) : Pool ω :=
  { p with
    control := p.control.interrupt
    aborted := true
    workers := abort p.workers p.held
    held := [] }

/-! ## Workers -/

/-- What the loops of the pool do. -/
def loop (p : Pool ω) : PollingLoop ω :=
  ⟨p.runner, some ((p.config.interval.nanos + 999999) / 1000000)⟩

/-- Put a worker where it stands now. -/
def setPhase (p : Pool ω) (i : Nat) (phase : WorkerPhase ω) : Pool ω :=
  { p with workers := p.workers.modify i fun w => { w with phase } }

/-- The number of active workers changed. -/
def setActive (p : Pool ω) (n : Nat) (s : ω) : Pool ω × ω :=
  ({ p with active := n }, p.report (·.recordActiveWorkers n) s)

/-- A worker's loop ended. -/
def leave (p : Pool ω) (i : Nat) (ending : WorkerEnding) (s : ω) : Pool ω × ω :=
  let p := p.setPhase i (.ended ending)
  let (p, s) :=
    if ending = .panicked then
      ({ p with panics := p.panics + 1 }, p.report (·.recordWorkerPanic p.config.name) s)
    else (p, s)
  p.setActive (p.active - 1) s

/-- Carry a worker on. -/
def poll (i now : Nat) (p : Pool ω) (s : ω) : Turn × Pool ω × ω :=
  match p.workers[i]? with
  | none => (.ended, p, s)
  | some w =>
    match w.phase with
    | .ended _ => (.ended, p, s)
    | .spawned =>
      if w.aborted then (.ended, p.setPhase i (.ended .aborted), s)
      else (.again, (p.setPhase i (.looping .gate)).setActive (p.active + 1) s)
    | .looping phase =>
      if w.aborted then (.ended, p.leave i .aborted s)
      else
        match phase.advance p.loop now ⟨p.control, p.stats, s⟩ with
        | none => (.blocked phase.alarm?, p, s)
        | some (after, shared) =>
          let p := { p with control := shared.control, stats := shared.stats }
          match after with
          | .ended none => (.ended, p.leave i .finished shared.state)
          | .ended (some _) => (.ended, p.leave i .panicked shared.state)
          | after => (.again, p.setPhase i (.looping after), shared.state)

/-! ## Graceful shutdown -/

/-- Stop the loops and wait until all workers have ended, for at most `timeout`. The answer is
whether they did. `get` and `set` find the pool in the state of all tasks. -/
def shutdown {ρ σ : Type} [DecidableEq ρ] (poll : Poll ρ σ) (get : σ → Pool ω)
    (set : Pool ω → σ → σ) (timeout : Duration) (x : VirtualTime ρ) (s : σ) :
    Bool × VirtualTime ρ × σ :=
  let (handles, p) := (get s).drain
  let deadline := x.now + (timeout.nanos + 999999) / 1000000
  let ended : Goal ρ σ := .state (fun s => (get s).allFinished handles) (some deadline)
  let (x, s) := x.wait poll ended (set p s)
  if (get s).allFinished handles then (true, x, s)
  else (false, x, set ((get s).putBack handles) s)

end Pool

end JobEngine
