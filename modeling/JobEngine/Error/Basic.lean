-- SUMMARY: Engine errors: code, messages, details, and the foreign failures that they stand for.
import JobEngine.Error.Code
import JobEngine.Json.Record
import JobEngine.Table
import JobEngine.Text.Quoted
import JobEngine.Time.Duration

/-!
# Engine errors

An `EngineError` has a code, a message for users, perhaps a message for operators, details, and
perhaps the text of the failure that caused it. The constructors of the domain (`storage`,
`circuitOpen`, …) fix code and wording. A `Failure` is what another system reports, and
`Failure.toError` says which engine error stands for it.
-/

namespace JobEngine

/-- Structured facts about an error. -/
structure ErrorDetails where
  context : Table String Json := ∅
  entityId : Option String := none
  entityType : Option String := none
deriving DecidableEq

/-- An error of the engine. -/
structure EngineError where
  code : ErrorCode
  userMessage : String
  internalMessage : Option String := none
  details : ErrorDetails := {}
  source : Option String := none
deriving DecidableEq

namespace EngineError

/-! ## Building -/

/-- An error with a message for users and one for operators. -/
def withInternal (code : ErrorCode) (user internal : String) : EngineError :=
  { code := code, userMessage := user, internalMessage := some internal }

/-- A storage call failed. -/
def storage (internal : String) : EngineError :=
  withInternal .storageError "Storage operation failed" internal

/-- Storage cannot be reached. -/
def storageUnavailable (internal : String) : EngineError :=
  withInternal .storageUnavailable "Storage is unavailable" internal

/-- The circuit breaker refused the call. -/
def circuitOpen : EngineError := { code := .circuitOpen, userMessage := "Circuit breaker is open" }

/-- No task has the name of the job's handler. -/
def taskNotFound (handler : String) : EngineError :=
  { code := .taskNotFound
    userMessage := "No task registered as '" ++ handler ++ "'"
    details := { entityId := some handler, entityType := some "task" } }

/-- A cron expression cannot be evaluated. -/
def invalidCron (expression reason : String) : EngineError :=
  withInternal .invalidCronExpression ("Invalid cron expression '" ++ expression ++ "'") reason

/-- A setting has a value that it must not have. -/
def configuration (message : String) : EngineError :=
  { code := .invalidConfiguration, userMessage := message }

/-- The workers did not end in time. -/
def shutdownTimeout (timeout : Duration) : EngineError :=
  { code := .shutdownTimeout
    userMessage := "Workers did not stop within " ++ timeout.decimalText }

/-- Add a fact to the error's context. -/
def withContext (e : EngineError) (key : String) (value : Json) : EngineError :=
  { e with details := { e.details with context := e.details.context.insert key value } }

/-- Name the entity that the error is about; all other details are dropped. -/
def withEntity (e : EngineError) (type id : String) : EngineError :=
  { e with details := { entityId := some id, entityType := some type } }

/-- Say which failure caused the error. -/
def withSource (e : EngineError) (text : String) : EngineError := { e with source := some text }

/-! ## Reading -/

def isTransient (e : EngineError) : Bool := e.code.isTransient
def severity (e : EngineError) : Severity := e.code.severity

/-- The error on one line, for operators. -/
def message (e : EngineError) : String :=
  "[" ++ e.code.name ++ "] " ++ e.userMessage ++
    match e.internalMessage with
    | none => ""
    | some text => " (internal: " ++ text ++ ")"

end EngineError

/-! ## Failures of other systems -/

/-- How an input or output operation failed, as far as it matters here. -/
inductive IoFailure where
  | notFound
  | timedOut
  | connectionRefused
  | connectionReset
  | other
deriving DecidableEq, Repr

def IoFailure.ofName : String → IoFailure
  | "NotFound" => .notFound
  | "TimedOut" => .timedOut
  | "ConnectionRefused" => .connectionRefused
  | "ConnectionReset" => .connectionReset
  | _ => .other

/-- Why a configuration cannot be read. -/
inductive ConfigFailure where
  | propertyMissing (property : String)
  | unparsable (cause : String) (file : Option String)
  | frozen
  | other (message : String)
deriving DecidableEq, Repr

def ConfigFailure.message : ConfigFailure → String
  | .propertyMissing p => "configuration property " ++ displayQuoted p ++ " not found"
  | .unparsable cause none => cause
  | .unparsable cause (some file) => cause ++ " in " ++ file
  | .frozen => "configuration is frozen"
  | .other m => m

/-- What another system reports. -/
inductive Failure where
  | io (kind : IoFailure) (message : String)
  /-- A report with its causes, outermost text first. -/
  | report (outermost : String) (causes : List String)
  | config (e : ConfigFailure)
  /-- A time limit passed. -/
  | elapsed
  /-- A JSON text cannot be written. -/
  | unwritableJson (message : String)
  /-- A JSON text or value does not fit the type that is wanted. -/
  | unreadableJson (message : String)
deriving DecidableEq, Repr

/-- The engine error that stands for a failure. -/
def Failure.toError : Failure → EngineError
  | .io kind message =>
    let (code, user) := match kind with
      | .notFound => (ErrorCode.recordNotFound, "File or resource not found")
      | .timedOut => (.storageUnavailable, "Operation timed out")
      | .connectionRefused | .connectionReset => (.storageUnavailable, "Connection failed")
      | .other => (.internalError, "An I/O error occurred")
    (EngineError.withInternal code user message).withSource message
  | .report outermost _ => .withInternal .internalError "An internal error occurred" outermost
  | .config e =>
    let (code, user) := match e with
      | .propertyMissing _ => (ErrorCode.missingConfiguration, "Required configuration not found")
      | .unparsable _ _ => (.invalidConfiguration, "Configuration file is invalid")
      | .frozen | .other _ => (.configurationError, "Configuration error occurred")
    .withInternal code user e.message
  | .elapsed =>
    (EngineError.withInternal .taskTimeout "Operation timed out" "deadline has elapsed").withSource
      "deadline has elapsed"
  | .unwritableJson message =>
    (EngineError.withInternal .serializationError "Failed to process JSON payload"
      message).withSource message
  | .unreadableJson message =>
    (EngineError.withInternal .deserializationError "Failed to process JSON payload"
      message).withSource message

/-! ## Details as data -/

namespace ErrorDetails

/-- Details as JSON; an empty context and absent entity fields are left out. -/
def toJson (d : ErrorDetails) : Json :=
  let field (name : String) (v : Option String) := (v.map fun s => (name, Json.str s)).toList
  .object ((if d.context.isEmpty then [] else [("context", Json.obj d.context.entries)]) ++
    field "entity_id" d.entityId ++ field "entity_type" d.entityType)

def ofJson? (v : Json) : Option ErrorDetails := do
  let r ← v.record? ["context", "entity_id", "entity_type"]
  return {
    context := Table.ofList (← r.withDefault "context" [] (Json.entries? some))
    entityId := ← r.optional "entity_id" Json.text?
    entityType := ← r.optional "entity_type" Json.text? }

instance : Recorded ErrorDetails := ⟨toJson, ofJson?⟩

end ErrorDetails

end JobEngine
