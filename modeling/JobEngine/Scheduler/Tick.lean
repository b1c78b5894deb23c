-- SUMMARY: Scheduler commands and the tick that runs them one after another.
import JobEngine.Scheduler.Maintenance

/-!
# Ticks

A tick runs its commands in order, each to its end before the next one begins. A command that fails
or panics is counted and does not keep the next one from running.
-/

namespace JobEngine

/-- One step of a tick. -/
structure Command (ω : Type) where
  name : String
  run : Activity ω (Except EngineError Unit)

namespace Command

variable {ω : Type}

/-- A command that does not wait. -/
def ofStep (name : String) (f : ω → Except EngineError Unit × ω) : Command ω :=
  ⟨name, .act f .done⟩

/-- Whether a command has to be counted as failed. -/
def failed : Ending (Except EngineError Unit) → Bool
  | .done (.ok ()) => false
  | .done (.error _) | .panic _ => true

/-- Run commands one after another. -/
def runAll (report : MetricsSink ω) : List (Command ω) → Activity ω Unit
  | [] => .done ()
  | c :: rest => c.run.caught.bind fun e =>
    .modify (if failed e then report (·.recordCommandError c.name) else id) (runAll report rest)

/-- Run all commands, and report how long that took. -/
def tick (report : MetricsSink ω) (commands : List (Command ω)) : Activity ω Unit :=
  ((runAll report commands).timed 0).bind fun (_, elapsed) =>
    .modify (report (·.recordTick (.ofMillis elapsed))) (.done ())

/-- The maintenance of the engine, in the order of a tick. -/
def maintenance (batch : Nat) (retention : Option Duration) : List (Command EngineState) :=
  [ofStep "enqueue" EngineState.enqueueDue,
    ofStep "cron" EngineState.fireDueCrons,
    ofStep "janitor" (EngineState.rescueStale batch),
    ofStep "delete" (EngineState.deleteExpired retention)]

end Command

end JobEngine
