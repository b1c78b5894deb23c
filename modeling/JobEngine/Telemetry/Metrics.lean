-- SUMMARY: Counters, gauges and histograms of the engine.
import JobEngine.Breaker.State
import JobEngine.Error.Basic
import JobEngine.Telemetry.Event

/-!
# Metrics

A `Metrics` value holds every number that the engine reports: counters, which only grow, gauges,
which have a last value, and histograms, which keep the durations that were observed. A series that
was never touched does not exist.
-/

namespace JobEngine

/-- How an attempt ended, on metrics. -/
inductive AttemptOutcome where
  | completed
  | failed
  | timedOut
deriving DecidableEq, Repr

def AttemptOutcome.name : AttemptOutcome → String
  | .completed => "completed"
  | .failed => "failed"
  | .timedOut => "timed_out"

/-- A counter with its labels. -/
inductive Counter where
  | events (name : String)
  | jobsProcessed (handler outcome : String)
  | workerPanics (pool : String)
  | commandErrors (command : String)
  | breakerTransitions (kind : CircuitKind)
  | errors (code : ErrorCode)
deriving DecidableEq, Repr

/-- A gauge. -/
inductive Gauge where
  | workersActive
  | breakerState
deriving DecidableEq, Repr

/-- A histogram with its labels. -/
inductive Histogram where
  | pickLatency
  | jobDuration (handler : String)
  | schedulerTick
deriving DecidableEq, Repr

/-- All numbers that were reported, each series in the order in which it first appeared. -/
structure Metrics where
  counters : List (Counter × Nat) := []
  gauges : List (Gauge × Nat) := []
  histograms : List (Histogram × List Duration) := []
deriving DecidableEq

instance : Inhabited Metrics := ⟨{}⟩

namespace Metrics

/-- Change the value of a series, which begins with `start` if it is new. -/
def update {κ α : Type} [DecidableEq κ] (key : κ) (start : α) (f : α → α) :
    List (κ × α) → List (κ × α)
  | [] => [(key, f start)]
  | e :: rest => if e.1 = key then (e.1, f e.2) :: rest else e :: update key start f rest

/-- The value of a counter, zero if it was never touched. -/
def count (m : Metrics) (c : Counter) : Nat :=
  match m.counters.find? (fun e => e.1 = c) with
  | some e => e.2
  | none => 0

/-- The value of a gauge. -/
def level? (m : Metrics) (g : Gauge) : Option Nat :=
  (m.gauges.find? (fun e => e.1 = g)).map (·.2)

def increment (m : Metrics) (c : Counter) : Metrics :=
  { m with counters := update c 0 (· + 1) m.counters }

def setLevel (m : Metrics) (g : Gauge) (n : Nat) : Metrics :=
  { m with gauges := update g 0 (fun _ => n) m.gauges }

def observe (m : Metrics) (h : Histogram) (d : Duration) : Metrics :=
  { m with histograms := update h [] (· ++ [d]) m.histograms }

/-! ## What the engine reports -/

/-- An event was dispatched. -/
def recordEvent (m : Metrics) (e : EngineEvent) : Metrics :=
  let m := m.increment (.events e.name)
  match e with
  | .jobSelected _ => m.observe .pickLatency .zero
  | _ => m

/-- An attempt of a handler ended after some time. -/
def recordExecution (m : Metrics) (handler outcome : String) (took : Duration) : Metrics :=
  (m.increment (.jobsProcessed handler outcome)).observe (.jobDuration handler) took

/-- An engine error came into being. -/
def recordError (m : Metrics) (e : EngineError) : Metrics := m.increment (.errors e.code)

/-- The number that stands for a breaker's kind on its gauge. -/
def circuitLevel : CircuitKind → Nat
  | .closed => 0
  | .halfOpen => 1
  | .opened => 2

/-- A breaker moved to a state of another kind. -/
def recordTransition (m : Metrics) (kind : CircuitKind) : Metrics :=
  (m.increment (.breakerTransitions kind)).setLevel .breakerState (circuitLevel kind)

/-- A tick of the scheduler ended after some time. -/
def recordTick (m : Metrics) (took : Duration) : Metrics := m.observe .schedulerTick took

/-- A command of the scheduler failed. -/
def recordCommandError (m : Metrics) (command : String) : Metrics :=
  m.increment (.commandErrors command)

/-- A worker ended with a panic. -/
def recordWorkerPanic (m : Metrics) (pool : String) : Metrics := m.increment (.workerPanics pool)

/-- The number of running workers changed. -/
def recordActiveWorkers (m : Metrics) (n : Nat) : Metrics := m.setLevel .workersActive n

end Metrics

/-- Where numbers are reported: changes the metrics that a state `ω` holds. -/
abbrev MetricsSink (ω : Type) := (Metrics → Metrics) → ω → ω

end JobEngine
