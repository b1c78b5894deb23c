-- SUMMARY: The settings of an engine, their defaults, and which of them an engine can run with.
import JobEngine.Breaker.State
import JobEngine.Retention
import JobEngine.Retry.Registry
import JobEngine.Telemetry.Settings

/-!
# Engine settings

An `EngineConfig` has a section for each part of the engine, and every setting has a default. A
setting may have a value that no engine can run with: `EngineConfig.validate` finds the first one,
and the accessors `breakerSettings`, `retryRegistry` and `retentionPeriod` give what the engine
uses.
-/

namespace JobEngine

/-! ## Sections -/

/-- The circuit breaker in front of storage. -/
structure BreakerConfig where
  maxSuccessCount : Count := 3
  maxFailureCount : Count := 5
  retryTimeout : Duration := .ofSecs 30
deriving DecidableEq

/-- The workers that poll for jobs. -/
structure PollingConfig where
  concurrency : Nat := 4
  interval : Duration := .ofSecs 1
  /-- How long a shutdown waits for running jobs. -/
  shutdownTimeout : Duration := .ofSecs 30
deriving DecidableEq

/-- The maintenance commands. -/
structure SchedulingConfig where
  initialDelay : Duration := .ofSecs 1
  interval : Duration := .ofSecs 5
  /-- How many executing jobs are fetched at once. -/
  janitorBatchSize : Nat := 1000
deriving DecidableEq

/-- The retry strategies. -/
structure RetryConfig where
  /-- The strategy of tasks that name none. -/
  defaultStrategy : String := "jitter"
  strategies : List String := RetryStrategy.bundled.map RetryStrategy.name
  constantDelay : Duration := RetryStrategy.defaultConstantDelay
deriving DecidableEq

/-- How long finished jobs are kept. -/
structure RetentionConfig where
  /-- A duration text; blank keeps them for ever. -/
  period : String := "30d"
deriving DecidableEq

/-- The settings of an engine. -/
structure EngineConfig where
  serviceName : String := "taskmill"
  breaker : BreakerConfig := {}
  polling : PollingConfig := {}
  scheduling : SchedulingConfig := {}
  retry : RetryConfig := {}
  retention : RetentionConfig := {}
  logging : LoggingConfig
  metrics : MetricsConfig := .default
deriving DecidableEq

namespace EngineConfig

/-! ## What the engine uses -/

/-- The settings of the breaker. -/
def breakerSettings (c : EngineConfig) : Except EngineError BreakerSettings :=
  BreakerSettings.build c.breaker.maxSuccessCount c.breaker.maxFailureCount c.breaker.retryTimeout

/-- The strategy that a configured name stands for. -/
def strategy (c : EngineConfig) (name : String) : Except EngineError RetryStrategy :=
  match RetryStrategy.bundled? name c.retry.constantDelay with
  | some s => .ok s
  | none => .error (.configuration ("Unknown retry strategy '" ++ name ++ "'"))

/-- The registry of the configured strategies. -/
def retryRegistry (c : EngineConfig) : Except EngineError RetryRegistry := do
  RetryRegistry.build (← c.retry.strategies.mapM c.strategy) c.retry.defaultStrategy

/-- How long finished jobs are kept; `none` keeps them for ever. -/
def retentionPeriod (c : EngineConfig) : Except EngineError (Option Duration) :=
  Retention.parse c.retention.period

/-! ## Validation -/

/-- Refuse a setting that is zero. -/
def requirePositive (setting : String) (n : Nat) : Except EngineError Unit :=
  if n = 0 then .error (.configuration (setting ++ " must be greater than zero")) else .ok ()

/-- Whether an engine can run with these settings, and what is wrong first if not. -/
def validate (c : EngineConfig) : Except EngineError Unit := do
  let _ ← c.breakerSettings
  requirePositive "polling.concurrency" c.polling.concurrency
  requirePositive "polling.interval" c.polling.interval.nanos
  requirePositive "scheduling.interval" c.scheduling.interval.nanos
  requirePositive "scheduling.janitor_batch_size" c.scheduling.janitorBatchSize
  let _ ← c.retryRegistry
  let _ ← c.retentionPeriod

end EngineConfig

end JobEngine
