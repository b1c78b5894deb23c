-- SUMMARY: Engine settings as JSON records.
import JobEngine.Config.Basic
import JobEngine.Time.DurationText

/-!
# Records of settings

Each section is a record in which every field may be left out, as may the section itself. Durations
are duration texts. How scalars are read depends on where the record comes from, so every reader
takes a `Json.Reading`.
-/

namespace JobEngine

/-- A duration text, which may have been converted from something else. -/
def Duration.read? (how : Json.Reading) (v : Json) : Option Duration := do
  match Duration.parse (← how.text? v) with
  | .ok d => some d
  | .error _ => none

/-- A count, within its bounds. -/
def Count.read? (how : Json.Reading) (v : Json) : Option Count :=
  (how.natBelow? UInt32.size v).map Count.ofNat

namespace BreakerConfig

def toJson (c : BreakerConfig) : Json :=
  .object [("max_success_count", .ofNat c.maxSuccessCount.val),
    ("max_failure_count", .ofNat c.maxFailureCount.val),
    ("retry_timeout", .str c.retryTimeout.toText)]

def read? (how : Json.Reading) (v : Json) : Option BreakerConfig := do
  let r ← how.record? ["max_success_count", "max_failure_count", "retry_timeout"] v
  let start : BreakerConfig := {}
  return {
    maxSuccessCount := ← r.withDefault "max_success_count" start.maxSuccessCount (Count.read? how)
    maxFailureCount := ← r.withDefault "max_failure_count" start.maxFailureCount (Count.read? how)
    retryTimeout := ← r.withDefault "retry_timeout" start.retryTimeout (Duration.read? how) }

end BreakerConfig

namespace PollingConfig

def toJson (c : PollingConfig) : Json :=
  .object [("concurrency", .ofNat c.concurrency), ("interval", .str c.interval.toText),
    ("shutdown_timeout", .str c.shutdownTimeout.toText)]

def read? (how : Json.Reading) (v : Json) : Option PollingConfig := do
  let r ← how.record? ["concurrency", "interval", "shutdown_timeout"] v
  let start : PollingConfig := {}
  return {
    concurrency := ← r.withDefault "concurrency" start.concurrency (how.natBelow? UInt64.size)
    interval := ← r.withDefault "interval" start.interval (Duration.read? how)
    shutdownTimeout :=
      ← r.withDefault "shutdown_timeout" start.shutdownTimeout (Duration.read? how) }

end PollingConfig

namespace SchedulingConfig

def toJson (c : SchedulingConfig) : Json :=
  .object [("initial_delay", .str c.initialDelay.toText), ("interval", .str c.interval.toText),
    ("janitor_batch_size", .ofNat c.janitorBatchSize)]

def read? (how : Json.Reading) (v : Json) : Option SchedulingConfig := do
  let r ← how.record? ["initial_delay", "interval", "janitor_batch_size"] v
  let start : SchedulingConfig := {}
  return {
    initialDelay := ← r.withDefault "initial_delay" start.initialDelay (Duration.read? how)
    interval := ← r.withDefault "interval" start.interval (Duration.read? how)
    janitorBatchSize :=
      ← r.withDefault "janitor_batch_size" start.janitorBatchSize (how.natBelow? UInt64.size) }

end SchedulingConfig

namespace RetryConfig

def toJson (c : RetryConfig) : Json :=
  .object [("default_strategy", .str c.defaultStrategy),
    ("strategies", .arr (c.strategies.map .str)), ("constant_delay", .str c.constantDelay.toText)]

def read? (how : Json.Reading) (v : Json) : Option RetryConfig := do
  let r ← how.record? ["default_strategy", "strategies", "constant_delay"] v
  let start : RetryConfig := {}
  return {
    defaultStrategy := ← r.withDefault "default_strategy" start.defaultStrategy how.text?
    strategies := ← r.withDefault "strategies" start.strategies (Json.items? how.text?)
    constantDelay := ← r.withDefault "constant_delay" start.constantDelay (Duration.read? how) }

end RetryConfig

namespace RetentionConfig

def toJson (c : RetentionConfig) : Json := .object [("period", .str c.period)]

def read? (how : Json.Reading) (v : Json) : Option RetentionConfig := do
  let r ← how.record? ["period"] v
  return { period := ← r.withDefault "period" ({} : RetentionConfig).period how.text? }

end RetentionConfig

namespace EngineConfig

def fieldNames : List String :=
  ["service_name", "circuit_breaker", "polling", "scheduling", "retry", "retention", "logging",
    "metrics"]

def toJson (c : EngineConfig) : Json :=
  .object [("service_name", .str c.serviceName), ("circuit_breaker", c.breaker.toJson),
    ("polling", c.polling.toJson), ("scheduling", c.scheduling.toJson),
    ("retry", c.retry.toJson), ("retention", c.retention.toJson), ("logging", c.logging.toJson),
    ("metrics", c.metrics.toJson)]

/-- Read settings; logging has the given level unless the record says otherwise. -/
def read? (how : Json.Reading) (defaultLevel : String) (v : Json) : Option EngineConfig := do
  let r ← how.record? fieldNames v
  let start : EngineConfig := { logging := { level := defaultLevel } }
  return {
    serviceName := ← r.withDefault "service_name" start.serviceName how.text?
    breaker := ← r.withDefault "circuit_breaker" start.breaker (BreakerConfig.read? how)
    polling := ← r.withDefault "polling" start.polling (PollingConfig.read? how)
    scheduling := ← r.withDefault "scheduling" start.scheduling (SchedulingConfig.read? how)
    retry := ← r.withDefault "retry" start.retry (RetryConfig.read? how)
    retention := ← r.withDefault "retention" start.retention (RetentionConfig.read? how)
    logging := ← r.withDefault "logging" start.logging (LoggingConfig.read? how defaultLevel)
    metrics := ← r.withDefault "metrics" start.metrics (MetricsConfig.read? how) }

instance : Recorded EngineConfig := ⟨toJson, read? .strict LoggingConfig.usualLevel⟩

end EngineConfig

end JobEngine
