-- SUMMARY: A circuit breaker with its counters.
import JobEngine.Breaker.State

/-!
# Circuit breakers

A `Breaker` is a state with its settings and three counters: of calls that succeeded, that failed,
and that were refused. Each operation also says which kind of state the breaker moved to, if it
moved.
-/

namespace JobEngine

/-- A circuit breaker. -/
structure Breaker where
  name : String
  settings : BreakerSettings
  state : BreakerState := .initial
  totalSuccesses : Nat := 0
  totalFailures : Nat := 0
  totalRejected : Nat := 0
deriving DecidableEq

namespace Breaker

def kind (b : Breaker) : CircuitKind := b.state.kind

/-- Apply an event to the state. -/
def observe (b : Breaker) (e : BreakerEvent) : Breaker :=
  { b with state := b.state.next b.settings e }

/-- The kind that a breaker moved to from `before`, if it is another one. -/
def movedTo? (before after : Breaker) : Option CircuitKind :=
  if before.kind = after.kind then none else some after.kind

/-- Ask whether calls may pass. An open breaker whose retry timeout has passed becomes half-open. -/
def probe (b : Breaker) (now : Instant) : Breaker := b.observe (.probe now)

/-- Whether calls may pass after a probe. -/
def isAvailable (b : Breaker) : Bool := b.kind ≠ .opened

/-- A call succeeded. -/
def recordSuccess (b : Breaker) : Breaker :=
  { b.observe .success with totalSuccesses := b.totalSuccesses + 1 }

/-- A call failed. -/
def recordFailure (b : Breaker) (time : Instant) : Breaker :=
  { b.observe (.failure time) with totalFailures := b.totalFailures + 1 }

/-- A call was refused. -/
def recordRejection (b : Breaker) : Breaker := { b with totalRejected := b.totalRejected + 1 }

/-- The error of a refused call. -/
def rejection (b : Breaker) : EngineError :=
  EngineError.circuitOpen.withContext "breaker" (.str b.name)

end Breaker

/-- The counters of a breaker as data. -/
structure BreakerStats where
  state : CircuitKind
  totalSuccesses : Nat
  totalFailures : Nat
  totalRejected : Nat
deriving DecidableEq

def Breaker.stats (b : Breaker) : BreakerStats :=
  ⟨b.kind, b.totalSuccesses, b.totalFailures, b.totalRejected⟩

namespace BreakerStats

def toJson (s : BreakerStats) : Json :=
  .object [("state", s.state.toJson), ("total_successes", .ofNat s.totalSuccesses),
    ("total_failures", .ofNat s.totalFailures), ("total_rejected", .ofNat s.totalRejected)]

def ofJson? (v : Json) : Option BreakerStats := do
  let r ← v.record? ["state", "total_successes", "total_failures", "total_rejected"]
  return {
    state := ← r.required "state" CircuitKind.ofJson?
    totalSuccesses := ← r.required "total_successes" (Json.natBelow? UInt64.size)
    totalFailures := ← r.required "total_failures" (Json.natBelow? UInt64.size)
    totalRejected := ← r.required "total_rejected" (Json.natBelow? UInt64.size) }

instance : Recorded BreakerStats := ⟨toJson, ofJson?⟩

end BreakerStats

end JobEngine
