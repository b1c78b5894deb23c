-- SUMMARY: Error codes with their names, numbers, categories and severities.
import JobEngine.Json.Record

/-!
# Error codes

Every error of the engine carries a code. The code alone fixes the number, the category, the
severity and whether the failure is transient.
-/

namespace JobEngine

/-- What kind of failure an error reports. -/
inductive ErrorCode where
  | storageError
  | storageUnavailable
  | recordNotFound
  | circuitOpen
  | taskNotFound
  | taskTimeout
  | taskPanicked
  | invalidCronExpression
  | serializationError
  | deserializationError
  | configurationError
  | missingConfiguration
  | invalidConfiguration
  | shutdownTimeout
  | internalError
deriving DecidableEq, Repr, Inhabited

/-- How grave a failure is. -/
inductive Severity where
  | low
  | medium
  | high
  | critical
deriving DecidableEq, Repr

namespace ErrorCode

/-- All codes. -/
def all : List ErrorCode :=
  [.storageError, .storageUnavailable, .recordNotFound, .circuitOpen, .taskNotFound, .taskTimeout,
    .taskPanicked, .invalidCronExpression, .serializationError, .deserializationError,
    .configurationError, .missingConfiguration, .invalidConfiguration, .shutdownTimeout,
    .internalError]

/-- The name that people read. -/
def name : ErrorCode → String
  | .storageError => "StorageError"
  | .storageUnavailable => "StorageUnavailable"
  | .recordNotFound => "RecordNotFound"
  | .circuitOpen => "CircuitOpen"
  | .taskNotFound => "TaskNotFound"
  | .taskTimeout => "TaskTimeout"
  | .taskPanicked => "TaskPanicked"
  | .invalidCronExpression => "InvalidCronExpression"
  | .serializationError => "SerializationError"
  | .deserializationError => "DeserializationError"
  | .configurationError => "ConfigurationError"
  | .missingConfiguration => "MissingConfiguration"
  | .invalidConfiguration => "InvalidConfiguration"
  | .shutdownTimeout => "ShutdownTimeout"
  | .internalError => "InternalError"

/-- The name that stands in data. -/
def dataName : ErrorCode → String
  | .storageError => "STORAGE_ERROR"
  | .storageUnavailable => "STORAGE_UNAVAILABLE"
  | .recordNotFound => "RECORD_NOT_FOUND"
  | .circuitOpen => "CIRCUIT_OPEN"
  | .taskNotFound => "TASK_NOT_FOUND"
  | .taskTimeout => "TASK_TIMEOUT"
  | .taskPanicked => "TASK_PANICKED"
  | .invalidCronExpression => "INVALID_CRON_EXPRESSION"
  | .serializationError => "SERIALIZATION_ERROR"
  | .deserializationError => "DESERIALIZATION_ERROR"
  | .configurationError => "CONFIGURATION_ERROR"
  | .missingConfiguration => "MISSING_CONFIGURATION"
  | .invalidConfiguration => "INVALID_CONFIGURATION"
  | .shutdownTimeout => "SHUTDOWN_TIMEOUT"
  | .internalError => "INTERNAL_ERROR"

/-- The code of a name that stands in data. -/
def ofDataName? (s : String) : Option ErrorCode := all.find? (fun c => c.dataName = s)

/-- The number of a code; its hundreds give the category. -/
def number : ErrorCode → Nat
  | .storageError => 1000
  | .storageUnavailable => 1001
  | .recordNotFound => 1002
  | .circuitOpen => 1100
  | .taskNotFound => 1200
  | .taskTimeout => 1201
  | .taskPanicked => 1202
  | .invalidCronExpression => 1300
  | .serializationError => 2000
  | .deserializationError => 2001
  | .configurationError => 4000
  | .missingConfiguration => 4001
  | .invalidConfiguration => 4002
  | .shutdownTimeout => 5000
  | .internalError => 9000

/-- The area of the engine that a code belongs to. -/
def category (c : ErrorCode) : String :=
  match c.number / 100 with
  | 10 => "storage"
  | 11 => "resilience"
  | 12 => "task"
  | 13 => "scheduling"
  | 20 => "serialization"
  | 40 => "configuration"
  | 50 => "lifecycle"
  | 90 => "internal"
  | _ => "unknown"

/-- Whether the failure may pass by itself. -/
def isTransient : ErrorCode → Bool
  | .storageError | .storageUnavailable | .circuitOpen | .taskTimeout => true
  | _ => false

/-- The severity of a code. -/
def severity : ErrorCode → Severity
  | .recordNotFound | .circuitOpen => .low
  | .storageError | .storageUnavailable | .taskTimeout | .shutdownTimeout => .medium
  | .taskNotFound | .taskPanicked | .invalidCronExpression | .serializationError
  | .deserializationError => .high
  | .configurationError | .missingConfiguration | .invalidConfiguration | .internalError =>
    .critical

def toJson (c : ErrorCode) : Json := .str c.dataName
def ofJson? (v : Json) : Option ErrorCode := v.name?.bind ofDataName?

instance : Recorded ErrorCode := ⟨toJson, ofJson?⟩

end ErrorCode

namespace Severity

/-- All severities. -/
def all : List Severity := [.low, .medium, .high, .critical]

/-- The name that stands in data. -/
def dataName : Severity → String
  | .low => "low"
  | .medium => "medium"
  | .high => "high"
  | .critical => "critical"

/-- The name that stands on metrics. -/
def name : Severity → String
  | .low => "Low"
  | .medium => "Medium"
  | .high => "High"
  | .critical => "Critical"

def ofDataName? (s : String) : Option Severity := all.find? (fun c => c.dataName = s)

def toJson (s : Severity) : Json := .str s.dataName
def ofJson? (v : Json) : Option Severity := v.name?.bind ofDataName?

instance : Recorded Severity := ⟨toJson, ofJson?⟩

end Severity

end JobEngine
