-- SUMMARY: What the engine reads and changes, and storage calls behind the circuit breaker.
import JobEngine.Activity
import JobEngine.Breaker.Basic
import JobEngine.Retry.Strategy
import JobEngine.Store.Backend
import JobEngine.Telemetry.Metrics

/-!
# The state of the engine

An `EngineState` holds the clock, the storage, the breaker in front of it, and all that the engine
told the outside. `EngineState.guarded` is the only way in which the engine calls the storage: the
breaker is asked first, a refused call does not reach the storage, and the outcome of a call that
was let through is reported to the breaker.
-/

namespace JobEngine

/-- Everything that the steps of the engine read and change. -/
structure EngineState where
  /-- What the clock shows. -/
  now : Instant
  backend : Backend := {}
  breaker : Breaker
  metrics : Metrics := {}
  /-- The events that were dispatched, oldest first. -/
  events : List EngineEvent := []
  /-- Running handlers are asked to stop. -/
  cancelled : Bool := false
  /-- The seed of the next random factor. -/
  dice : Nat := 0
  /-- Numbers that handlers keep from one call to the next. -/
  tallies : Table String Nat := ∅

namespace EngineState

/-! ## Telling the outside -/

/-- Report numbers on the state of the engine. -/
def report : MetricsSink EngineState := fun f s => { s with metrics := f s.metrics }

/-- Dispatch an event. -/
def dispatch (s : EngineState) (e : EngineEvent) : EngineState :=
  { s with events := s.events ++ [e], metrics := s.metrics.recordEvent e }

/-- An engine error came into being. -/
def recordError (s : EngineState) (e : EngineError) : EngineState :=
  { s with metrics := s.metrics.recordError e }

/-- Change the storage behind the breaker. -/
def withBackend (s : EngineState) (f : Backend → Backend) : EngineState :=
  { s with backend := f s.backend }

/-- Change the records of the storage. -/
def withStore (s : EngineState) (f : Store → Store) : EngineState :=
  s.withBackend fun b => { b with store := f b.store }

/-! ## Chance -/

/-- The random factor of a seed, from 1 to 30. -/
def factorOf (seed : Nat) : Nat := 1 + seed % 30

/-- The seed after `seed`. -/
def nextSeed (seed : Nat) : Nat :=
  (seed * 6364136223846793005 + 1442695040888963407) % UInt64.size / 2

/-- The random factor for a retry strategy. Only the jitter strategy needs one, and draws it. -/
def drawFactor (s : EngineState) (strategy : RetryStrategy) : Nat × EngineState :=
  match strategy with
  | .jitter => (factorOf s.dice, { s with dice := nextSeed s.dice })
  | _ => (1, s)

/-! ## The breaker -/

/-- Move the breaker on, and report the move if the breaker is of another kind after it. -/
def moveBreaker (s : EngineState) (f : Breaker → Breaker) : EngineState :=
  let after := f s.breaker
  { s with
    breaker := after
    metrics :=
      match s.breaker.movedTo? after with
      | some kind => s.metrics.recordTransition kind
      | none => s.metrics }

/-- Ask the breaker whether calls may pass now. -/
def available (s : EngineState) : Bool × EngineState :=
  let s := s.moveBreaker (·.probe s.now)
  (s.breaker.isAvailable, s)

def recordSuccess (s : EngineState) : EngineState := s.moveBreaker (·.recordSuccess)
def recordFailure (s : EngineState) : EngineState := s.moveBreaker (·.recordFailure s.now)

/-! ## Storage calls -/

/-- Make a storage call and report its outcome to the breaker, without asking it first. -/
def applied {α : Type} (s : EngineState) (call : Backend → Except EngineError α × Backend) :
    Except EngineError α × EngineState :=
  match call s.backend with
  | (.ok a, b) => (.ok a, { s with backend := b }.recordSuccess)
  | (.error e, b) => (.error e, ({ s with backend := b }.recordError e).recordFailure)

/-- The breaker refuses a call. -/
def refused {α : Type} (s : EngineState) : Except EngineError α × EngineState :=
  (.error s.breaker.rejection,
    { s with breaker := s.breaker.recordRejection }.recordError s.breaker.rejection)

/-- Make a storage call if the breaker lets it through. -/
def guarded {α : Type} (s : EngineState) (call : Backend → Except EngineError α × Backend) :
    Except EngineError α × EngineState :=
  match s.available with
  | (true, s) => s.applied call
  | (false, s) => s.refused

end EngineState

end JobEngine
