-- SUMMARY: What is logged and measured, and how: the settings of telemetry and their records.
import JobEngine.Json.Reading
import JobEngine.Table

/-!
# Telemetry settings

`LoggingConfig` and `MetricsConfig` with their defaults. The default level of logging is not fixed:
it comes from outside, so the reader takes it as an argument.
-/

namespace JobEngine

/-- How a log record is written. -/
inductive LogFormat where
  | json
  | pretty
  | compact
deriving DecidableEq, Repr

namespace LogFormat

def all : List LogFormat := [.json, .pretty, .compact]

def name : LogFormat → String
  | .json => "json"
  | .pretty => "pretty"
  | .compact => "compact"

def ofName? (s : String) : Option LogFormat := all.find? (·.name = s)

def toJson (f : LogFormat) : Json := .str f.name

def read? (how : Json.Reading) (v : Json) : Option LogFormat :=
  (how.choice? (all.map name) v).bind ofName?

instance : Recorded LogFormat := ⟨toJson, read? .strict⟩

end LogFormat

/-- A table of texts as an object. -/
def Json.ofTexts (t : Table String String) : Json := .obj (t.entries.map fun e => (e.1, .str e.2))

/-- An object whose fields are texts. -/
def Json.texts? (how : Json.Reading) (v : Json) : Option (Table String String) :=
  (v.entries? how.text?).map Table.ofList

/-! ## Logging -/

/-- What is logged and how. -/
structure LoggingConfig where
  level : String
  format : LogFormat := .json
  /-- Levels of modules that differ from the general one. -/
  moduleLevels : Table String String := ∅
  includeLocation : Bool := true
  includeThread : Bool := false
  spanCloseEvents : Bool := false
deriving DecidableEq

namespace LoggingConfig

/-- The level unless the surroundings name another. -/
def usualLevel : String := "info"

def fieldNames : List String :=
  ["level", "format", "module_levels", "include_location", "include_thread", "span_close_events"]

def toJson (c : LoggingConfig) : Json :=
  .object [("level", .str c.level), ("format", c.format.toJson),
    ("module_levels", .ofTexts c.moduleLevels), ("include_location", .bool c.includeLocation),
    ("include_thread", .bool c.includeThread), ("span_close_events", .bool c.spanCloseEvents)]

def read? (how : Json.Reading) (defaultLevel : String) (v : Json) : Option LoggingConfig := do
  let r ← how.record? fieldNames v
  return {
    level := ← r.withDefault "level" defaultLevel how.text?
    format := ← r.withDefault "format" .json (LogFormat.read? how)
    moduleLevels := ← r.withDefault "module_levels" ∅ (Json.texts? how)
    includeLocation := ← r.withDefault "include_location" true how.boolean?
    includeThread := ← r.withDefault "include_thread" false how.boolean?
    spanCloseEvents := ← r.withDefault "span_close_events" false how.boolean? }

instance : Recorded LoggingConfig := ⟨toJson, read? .strict usualLevel⟩

end LoggingConfig

/-! ## Metrics -/

/-- Whether and how the engine is measured. -/
structure MetricsConfig where
  enabled : Bool
  /-- The upper bounds of the buckets of all histograms, in seconds. -/
  durationBuckets : List Binary64
  /-- Labels on every series. -/
  globalLabels : Table String String := ∅
deriving DecidableEq

namespace MetricsConfig

/-- From five milliseconds to five minutes. -/
def defaultBuckets : List Binary64 :=
  [(5, -3), (1, -2), (25, -3), (5, -2), (1, -1), (25, -2), (5, -1), (1, 0), (25, -1), (5, 0),
    (10, 0), (30, 0), (60, 0), (300, 0)].map fun (digits, power) => .ofDecimal false digits power

def default : MetricsConfig := { enabled := true, durationBuckets := defaultBuckets }

/-- Whether measuring can begin: without buckets no histogram can be kept. -/
def isUsable (c : MetricsConfig) : Bool := !c.enabled || !c.durationBuckets.isEmpty

def toJson (c : MetricsConfig) : Json :=
  .object [("enabled", .bool c.enabled),
    ("duration_buckets", .arr (c.durationBuckets.map .ofFloat)),
    ("global_labels", .ofTexts c.globalLabels)]

def read? (how : Json.Reading) (v : Json) : Option MetricsConfig := do
  let r ← how.record? ["enabled", "duration_buckets", "global_labels"] v
  return {
    enabled := ← r.withDefault "enabled" true how.boolean?
    durationBuckets := ← r.withDefault "duration_buckets" defaultBuckets (Json.items? how.float?)
    globalLabels := ← r.withDefault "global_labels" ∅ (Json.texts? how) }

instance : Recorded MetricsConfig := ⟨toJson, read? .strict⟩

end MetricsConfig

end JobEngine
