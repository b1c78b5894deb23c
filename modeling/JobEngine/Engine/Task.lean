-- SUMMARY: Task handlers, what they see, and the registry in which jobs find them.
import JobEngine.Engine.State

/-!
# Tasks

A handler is user code: from the context of an attempt it makes an activity on the engine's state
that ends with success or with a task error. It may wait, report progress, ask whether it should
stop, or panic. A `TaskRegistry` maps names to handlers and their settings.
-/

namespace JobEngine

/-- What an attempt gives: nothing, or why it failed. -/
abbrev TaskResult := Except TaskError Unit

/-- What a handler sees of its attempt. -/
structure TaskContext where
  job : Job
  env : Table String String := ∅

namespace TaskContext

/-- The number of the attempt, from 1. -/
def attempt (ctx : TaskContext) : Count := ctx.job.attempt

/-- The payload as a typed value. -/
def payload {α : Type} (ctx : TaskContext) (read : Json → Option α) : Except EngineError α :=
  match read ctx.job.data with
  | some a => .ok a
  | none => .error (Failure.unreadableJson "the payload does not fit its type").toError

/-- Report how far the job has come; a percentage above 100 counts as 100. -/
def report (ctx : TaskContext) (percent : Nat) (message : Option String) (s : EngineState) :
    EngineState :=
  s.dispatch (.jobProgress ⟨ctx.job.id, min percent 100, message, s.now⟩)

end TaskContext

/-- User code that executes jobs. -/
abbrev Handler := TaskContext → Activity EngineState TaskResult

namespace Handler

/-- The attempt fails with an engine error. -/
def failWith (e : EngineError) : Activity EngineState TaskResult :=
  .modify (·.recordError e) (.done (.error (.ofEngine e)))

end Handler

/-- A handler with its name and settings. -/
structure TaskDescriptor where
  name : String
  description : Option String := none
  /-- The retry strategy of its jobs; the default one if absent. -/
  retryStrategy : Option String := none
  /-- How long an attempt may take if the job does not say. -/
  timeout : Option Duration := none
  handler : Handler

/-- Handlers by name. -/
structure TaskRegistry where
  tasks : Table String TaskDescriptor := ∅

namespace TaskRegistry

instance : EmptyCollection TaskRegistry := ⟨⟨∅⟩⟩
instance : Inhabited TaskRegistry := ⟨∅⟩

/-- Register a handler, in place of an earlier one of its name. -/
def register (r : TaskRegistry) (d : TaskDescriptor) : TaskRegistry := ⟨r.tasks.insert d.name d⟩

def get? (r : TaskRegistry) (name : String) : Option TaskDescriptor := r.tasks.get? name

/-- The registered names, in order. -/
def names (r : TaskRegistry) : List String := r.tasks.keys

def size (r : TaskRegistry) : Nat := r.tasks.size
def isEmpty (r : TaskRegistry) : Bool := r.tasks.isEmpty

end TaskRegistry

end JobEngine
