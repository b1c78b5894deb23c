-- SUMMARY: The circuit breaker as a state machine: settings, states, events, and the transition.
import JobEngine.Count
import JobEngine.Error.Basic
import JobEngine.Time.Instant

/-!
# The state of a circuit breaker

A breaker is closed while calls succeed, opens after enough failures in a row, and lets a probe
through once its retry timeout has passed; enough successes of probes close it again.
`BreakerState.next` is the whole rule.
-/

namespace JobEngine

/-- The thresholds of a breaker; none of them is zero. -/
structure BreakerSettings where
  /-- Successes in a row that close a half-open breaker. -/
  successes : Count
  /-- Failures in a row that open a closed breaker. -/
  failures : Count
  /-- How long an open breaker refuses calls. -/
  retryTimeout : Duration
  successes_pos : 0 < successes.val
  failures_pos : 0 < failures.val
  timeout_pos : 0 < retryTimeout.nanos
deriving DecidableEq

namespace BreakerSettings

/-- The settings of three values that must not be zero. -/
def build (successes failures : Count) (retryTimeout : Duration) :
    Except EngineError BreakerSettings :=
  if h : 0 < successes.val ∧ 0 < failures.val then
    if h' : 0 < retryTimeout.nanos then .ok ⟨successes, failures, retryTimeout, h.1, h.2, h'⟩
    else .error (.configuration "Circuit breaker retry timeout must be greater than zero")
  else
    .error (.configuration "Circuit breaker success and failure counts must be greater than zero")

/-- Three successes, five failures, thirty seconds. -/
def default : BreakerSettings := ⟨3, 5, .ofSecs 30, by decide, by decide, by decide⟩

instance : Inhabited BreakerSettings := ⟨default⟩

end BreakerSettings

/-- The kind of a breaker's state. -/
inductive CircuitKind where
  | closed
  | opened
  | halfOpen
deriving DecidableEq, Repr

namespace CircuitKind

def all : List CircuitKind := [.closed, .opened, .halfOpen]

def name : CircuitKind → String
  | .closed => "closed"
  | .opened => "open"
  | .halfOpen => "half_open"

def ofName? (s : String) : Option CircuitKind := all.find? (fun x => x.name = s)

def toJson (k : CircuitKind) : Json := .str k.name
def ofJson? (v : Json) : Option CircuitKind := v.name?.bind ofName?

instance : Recorded CircuitKind := ⟨toJson, ofJson?⟩

end CircuitKind

/-- The state of a breaker. -/
inductive BreakerState where
  /-- Calls pass; the number of failures in a row. -/
  | closed (failures : Count)
  /-- Calls are refused; the time of the failure that opened the breaker. -/
  | opened (lastFailedAt : Instant)
  /-- Probes pass; the number of successes in a row. -/
  | halfOpen (successes : Count)
deriving DecidableEq

/-- What can happen to a breaker. -/
inductive BreakerEvent where
  | success
  | failure (time : Instant)
  /-- Someone asks whether calls may pass. -/
  | probe (now : Instant)
deriving DecidableEq

namespace BreakerState

/-- The state of a new breaker. -/
def initial : BreakerState := .closed 0

instance : Inhabited BreakerState := ⟨initial⟩

def kind : BreakerState → CircuitKind
  | .closed _ => .closed
  | .opened _ => .opened
  | .halfOpen _ => .halfOpen

/-- The state after an event. -/
def next (settings : BreakerSettings) : BreakerState → BreakerEvent → BreakerState
  | .closed _, .success => .closed 0
  | .closed failures, .failure time =>
    if settings.failures ≤ failures.succ then .opened time else .closed failures.succ
  | .opened lastFailedAt, .probe now =>
    if lastFailedAt.add settings.retryTimeout < now then .halfOpen 0 else .opened lastFailedAt
  | .halfOpen successes, .success =>
    if settings.successes ≤ successes.succ then .closed 0 else .halfOpen successes.succ
  | .halfOpen _, .failure time => .opened time
  | s, _ => s

end BreakerState

end JobEngine
