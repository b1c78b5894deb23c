-- SUMMARY: Failures that task handlers report.
import JobEngine.Error.Basic

/-!
# Task errors

What a task handler returns when an attempt fails. All task errors fall under the retry budget of
the job; the engine adds its own for handlers that run too long, panic, or do not exist.
-/

namespace JobEngine

/-- Why an attempt failed. -/
structure TaskError where
  message : String
  code : Option String := none
  context : Option Json := none
  /-- Set when the handler ran past its limit. -/
  timedOut : Bool := false
deriving DecidableEq

namespace TaskError

/-- The handler ran past `limit`. -/
def timeout (limit : Duration) : TaskError :=
  { message := "Task exceeded its timeout of " ++ limit.decimalText
    code := some ErrorCode.taskTimeout.name
    timedOut := true }

/-- The handler panicked with the given message. -/
def panicked (message : String) : TaskError :=
  { message := "Task panicked: " ++ message, code := some ErrorCode.taskPanicked.name }

/-- The attempt failed with an engine error. -/
def ofEngine (e : EngineError) : TaskError :=
  { message := e.userMessage
    code := some e.code.name
    timedOut := e.code = .taskTimeout }

/-- The attempt failed with a report; its message lists all causes, outermost first. -/
def ofReport (outermostFirst : List String) : TaskError :=
  { message := ": ".intercalate outermostFirst }

/-- The error on one line. -/
def text (e : TaskError) : String :=
  e.message ++
    match e.code with
    | none => ""
    | some c => " (code: " ++ c ++ ")"

def toJson (e : TaskError) : Json :=
  .object [("message", .str e.message), ("code", .ofOption .str e.code),
    ("context", .ofOption id e.context), ("timed_out", .bool e.timedOut)]

def ofJson? (v : Json) : Option TaskError := do
  let r ← v.record? ["message", "code", "context", "timed_out"]
  return {
    message := ← r.required "message" Json.text?
    code := ← r.optional "code" Json.text?
    context := ← r.optional "context" some
    timedOut := ← r.withDefault "timed_out" false Json.boolean? }

instance : Recorded TaskError := ⟨toJson, ofJson?⟩

end TaskError

end JobEngine
