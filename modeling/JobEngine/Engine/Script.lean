-- SUMMARY: Handlers that follow scripts, one script a call.
import JobEngine.Engine.Task
import JobEngine.Json.Printer

/-!
# Scripted handlers

A scripted handler tries an engine out: instead of doing work it follows a list of actions, each of
which waits, reports progress, looks at something, or ends the attempt. The n-th call of the handler
follows the n-th script, and the last script is used for all further calls.
-/

namespace JobEngine

/-- One action of a script. -/
inductive ScriptAction where
  /-- Wait for some milliseconds. -/
  | sleep (ms : Nat)
  | progress (percent : Nat) (message : Option String)
  /-- Fail; the engine error that the failure was made from, if any, is recorded. -/
  | fail (e : TaskError) (cause : Option EngineError)
  | panic (payload : PanicPayload)
  /-- Fail with what a variable of the environment holds. -/
  | tellVariable (name : String)
  /-- Go on if the payload can be read, fail otherwise. -/
  | readPayload (read : Json → Option Unit)
  /-- Fail with what the handler sees of its job. -/
  | tellJob
  /-- Fail as soon as running handlers are asked to stop. -/
  | awaitCancel

namespace ScriptAction

/-- What a handler sees of its job, on one line. -/
def description (ctx : TaskContext) (cancelled : Bool) : String :=
  "job=" ++ ctx.job.id.toText ++ " attempt=" ++ toString ctx.attempt.val ++
    " handler=" ++ ctx.job.handler ++ " state=" ++ ctx.job.state.name ++
    " cancelled=" ++ (if cancelled then "true" else "false") ++ " data=" ++ ctx.job.data.compact

/-- Fail with a message. -/
def failed (message : String) : Activity EngineState TaskResult := .done (.error { message })

/-- Follow a script; at its end the attempt has succeeded. -/
def follow (ctx : TaskContext) : List ScriptAction → Activity EngineState TaskResult
  | [] => .done (.ok ())
  | .sleep ms :: rest => .sleep ms (follow ctx rest)
  | .progress percent message :: rest => .modify (ctx.report percent message) (follow ctx rest)
  | .fail e cause :: _ =>
    .modify (fun s => cause.elim s s.recordError) (.done (.error e))
  | .panic payload :: _ => .panic payload
  | .tellVariable name :: _ => failed (name ++ "=" ++ (ctx.env.get? name).getD "(unset)")
  | .readPayload read :: rest =>
    match ctx.payload read with
    | .ok () => follow ctx rest
    | .error e => Handler.failWith e
  | .tellJob :: _ =>
    .act (fun s => (s.cancelled, s)) fun cancelled => failed (description ctx cancelled)
  | .awaitCancel :: _ => .await (·.cancelled) (failed "cancelled")

end ScriptAction

/-- The handler that follows scripts; it counts its calls under a name. -/
def Handler.scripted (name : String) (scripts : List (List ScriptAction)) : Handler := fun ctx =>
  .act (fun s =>
    let n := (s.tallies.get? name).getD 0
    (n, { s with tallies := s.tallies.insert name (n + 1) })) fun n =>
  ScriptAction.follow ctx ((scripts[n]?).getD (scripts.getLast?.getD []))

end JobEngine
