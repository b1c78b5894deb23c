-- SUMMARY: The timer that runs ticks at a fixed rate, and the manager that starts and stops it.
import JobEngine.Scheduler.Tick
import JobEngine.VirtualTime

/-!
# The scheduler

A `Scheduler` runs its commands in ticks. Starting it begins a timer, which ticks first after the
initial delay and then once an interval; a tick that comes late lets the missed ones out, and the
next one keeps to the grid. Stopping it cancels the timer that the scheduler holds; a tick in
progress runs to its end. A timer that is cancelled and due at once may do either, which the caller
of `Scheduler.poll` decides.
-/

namespace JobEngine

/-- Where a timer stands. Times are in nanoseconds. -/
inductive TimerPhase (ω : Type) where
  | waiting (due : Nat)
  /-- A tick is in progress; the next one is due at the given time. -/
  | ticking (nextDue : Nat) (rest : Suspended ω Unit)
  | ended

/-- A timer. -/
structure Timer (ω : Type) where
  phase : TimerPhase ω
  cancelled : Bool := false

/-- The timer has ended. -/
def Timer.isFinished {ω : Type} (t : Timer ω) : Bool :=
  match t.phase with
  | .ended => true
  | _ => false

/-- How late a tick may be and still count as in time. -/
def Timer.tolerance : Nat := 5000000

/-- When the tick after the one that was due at `due` and began at `now` is due. -/
def Timer.nextDue (interval due now : Nat) : Nat :=
  if now ≤ due + tolerance then due + interval else now + interval - (now - due) % interval

/-- Commands with the times of their ticks. -/
structure Scheduler (ω : Type) where
  commands : List (Command ω)
  initialDelay : Duration
  interval : Duration
  /-- Where the scheduler reports numbers. -/
  report : MetricsSink ω
  /-- All timers that were ever begun. -/
  timers : List (Timer ω) := []
  /-- The timer that the scheduler holds. -/
  slot : Option Nat := none
  /-- The ticks that ended. -/
  ticks : Nat := 0

namespace Scheduler

variable {ω : Type}

/-- The shortest interval. -/
def leastInterval : Duration := .ofMillis 1

/-- A scheduler; an interval that is too short is raised to the shortest one. -/
def build (commands : List (Command ω)) (initialDelay interval : Duration)
    (report : MetricsSink ω) : Scheduler ω where
  commands := commands
  initialDelay := initialDelay
  interval := if interval < leastInterval then leastInterval else interval
  report := report

/-- The timer that the scheduler holds. -/
def held? (m : Scheduler ω) : Option (Timer ω) := m.slot.bind fun i => m.timers[i]?

/-- A timer is held that will tick. -/
def isRunning (m : Scheduler ω) : Bool := m.held?.any fun t => !t.cancelled && !t.isFinished

/-- Begin a timer at `now`, in milliseconds, and answer whether there was none running. -/
def start (m : Scheduler ω) (now : Nat) : Bool × Scheduler ω :=
  if m.isRunning then (false, m)
  else
    (true, { m with
      timers := m.timers ++ [{ phase := .waiting (now * 1000000 + m.initialDelay.nanos) }]
      slot := some m.timers.length })

/-- Cancel the timer that is held. -/
def stop (m : Scheduler ω) : Scheduler ω :=
  match m.slot with
  | none => m
  | some i => { m with timers := m.timers.modify i fun t => { t with cancelled := true } }

/-- Give the held timer away, to wait for its end. -/
def take (m : Scheduler ω) : Option Nat × Scheduler ω := (m.slot, { m with slot := none })

/-- Whether a timer has ended. -/
def isFinished (m : Scheduler ω) (i : Nat) : Bool :=
  match m.timers[i]? with
  | some t => t.isFinished
  | none => true

/-- All commands, one after another. -/
def tick (m : Scheduler ω) : Activity ω Unit := Command.tick m.report m.commands

/-- A tick has ended. -/
def countTick (m : Scheduler ω) : Scheduler ω := { m with ticks := m.ticks + 1 }

/-! ## Timers -/

/-- Put a timer where it stands now. -/
def setPhase (m : Scheduler ω) (i : Nat) (phase : TimerPhase ω) : Scheduler ω :=
  { m with timers := m.timers.modify i fun t => { t with phase } }

/-- Go on after a tick was carried on to a wait or its end. -/
def afterTick (m : Scheduler ω) (i nextDue : Nat) : Pause ω Unit × ω → Turn × Scheduler ω × ω
  | (.waiting rest, s) => (.again, m.setPhase i (.ticking nextDue rest), s)
  | (.ended (.done ()), s) => (.again, m.countTick.setPhase i (.waiting nextDue), s)
  | (.ended (.panic _), s) => (.ended, m.setPhase i .ended, s)

/-- The first millisecond at which a time in nanoseconds has come. -/
def alarmOf (due : Nat) : Nat := (due + 999999) / 1000000

/-- Carry a timer on. If it is cancelled and due at once, `ticksOnce` says that it ticks. -/
def poll (ticksOnce : Bool) (i now : Nat) (m : Scheduler ω) (s : ω) : Turn × Scheduler ω × ω :=
  match m.timers[i]? with
  | none => (.ended, m, s)
  | some t =>
    match t.phase with
    | .ended => (.ended, m, s)
    | .waiting due =>
      let isDue := decide (due ≤ now * 1000000)
      if t.cancelled && !(isDue && ticksOnce) then (.ended, m.setPhase i .ended, s)
      else if isDue then
        m.afterTick i (Timer.nextDue m.interval.nanos due (now * 1000000)) (m.tick.poll now s)
      else (.blocked (some (alarmOf due)), m, s)
    | .ticking nextDue rest =>
      if rest.isReady now s then m.afterTick i nextDue (rest.resume now s)
      else (.blocked rest.deadline, m, s)

/-- Give the held timer away and wait for its end. `get` and `set` find the scheduler in the state
of all tasks. -/
def join {ρ σ : Type} [DecidableEq ρ] (poll : Poll ρ σ) (get : σ → Scheduler ω)
    (set : Scheduler ω → σ → σ) (x : VirtualTime ρ) (s : σ) : VirtualTime ρ × σ :=
  match (get s).take with
  | (none, m) => (x, set m s)
  | (some i, m) => x.wait poll (.state (fun s => (get s).isFinished i) none) (set m s)

end Scheduler

/-! ## Statistics -/

/-- The scheduler at one moment. -/
structure SchedulerStats where
  running : Bool
  ticks : Nat
  commands : List String
  intervalMillis : Nat
deriving DecidableEq

def Scheduler.snapshot {ω : Type} (m : Scheduler ω) : SchedulerStats where
  running := m.isRunning
  ticks := m.ticks
  commands := m.commands.map (·.name)
  intervalMillis := m.interval.millis % UInt64.size

namespace SchedulerStats

def toJson (s : SchedulerStats) : Json :=
  .object [("running", .bool s.running), ("ticks", .ofNat s.ticks),
    ("commands", .arr (s.commands.map .str)), ("interval_ms", .ofNat s.intervalMillis)]

def ofJson? (v : Json) : Option SchedulerStats := do
  let r ← v.record? ["running", "ticks", "commands", "interval_ms"]
  return {
    running := ← r.required "running" Json.boolean?
    ticks := ← r.required "ticks" (Json.natBelow? UInt64.size)
    commands := ← r.required "commands" (Json.items? Json.text?)
    intervalMillis := ← r.required "interval_ms" (Json.natBelow? UInt64.size) }

instance : Recorded SchedulerStats := ⟨toJson, ofJson?⟩

end SchedulerStats

end JobEngine
