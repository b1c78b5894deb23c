-- SUMMARY: A polling loop as a state machine: gate, iteration, rest.
import JobEngine.Activity
import JobEngine.Loop.Control

/-!
# Polling loops

A polling loop repeats an iteration until it is interrupted or the iterations are used up. Each turn
it stands at the gate, where a pause holds it; it runs an iteration, which may wait; and then it
rests. `LoopPhase.advance` carries it over one of these boundaries, or says that it is blocked where
it is.
-/

namespace JobEngine

/-- What an iteration came to. -/
inductive IterationStatus where
  /-- There was nothing to do, or it could not be reached. -/
  | skipped
  /-- Something was done, whatever came of it. -/
  | processed
deriving DecidableEq, Repr

/-- How many iterations came to what. -/
structure PollingStats where
  processed : Nat := 0
  skipped : Nat := 0
deriving DecidableEq, Repr

def PollingStats.record (s : PollingStats) : IterationStatus → PollingStats
  | .processed => { s with processed := s.processed + 1 }
  | .skipped => { s with skipped := s.skipped + 1 }

/-- What a loop does. -/
structure PollingLoop (ω : Type) where
  body : Activity ω IterationStatus
  /-- How many milliseconds to rest after an iteration; without one the loop goes on at once. -/
  interval : Option Nat

/-- Where a loop stands. -/
inductive LoopPhase (ω : Type) where
  | gate
  | running (rest : Suspended ω IterationStatus)
  | resting (rest : Rest)
  /-- The loop has ended, with a panic if an iteration panicked. -/
  | ended (panic : Option PanicPayload)

/-- What the loops of a pool share: their control, their counters, and the state they work on. -/
structure LoopShared (ω : Type) where
  control : LoopControl
  stats : PollingStats := {}
  state : ω

namespace LoopPhase

variable {ω : Type}

/-- The loop has ended. -/
def isEnded : LoopPhase ω → Bool
  | .ended _ => true
  | _ => false

/-- When the loop has to be looked at again, if nothing else happens. -/
def alarm? : LoopPhase ω → Option Nat
  | .running rest => rest.deadline
  | .resting rest => some rest.deadline
  | .gate | .ended _ => none

/-- Go on after an iteration was carried on to a wait or its end. -/
def afterBody (spec : PollingLoop ω) (now : Nat) (s : LoopShared ω) :
    Pause ω IterationStatus × ω → LoopPhase ω × LoopShared ω
  | (.waiting rest, w) => (.running rest, { s with state := w })
  | (.ended (.panic p), w) => (.ended (some p), { s with state := w })
  | (.ended (.done status), w) =>
    let s := { s with state := w, stats := s.stats.record status }
    match spec.interval with
    | none => (.gate, s)
    | some interval =>
      let (rest, control) := s.control.beginRest interval now
      (.resting rest, { s with control })

/-- Carry the loop over its next boundary at time `now`, or answer `none` if it is blocked. -/
def advance (spec : PollingLoop ω) (now : Nat) (s : LoopShared ω) :
    LoopPhase ω → Option (LoopPhase ω × LoopShared ω)
  | .gate =>
    if s.control.interrupted then some (.ended none, s)
    else if s.control.paused then none
    else
      match s.control.claim? with
      | none => some (.ended none, s)
      | some control => some (afterBody spec now { s with control } (spec.body.poll now s.state))
  | .running rest =>
    if rest.isReady now s.state then some (afterBody spec now s (rest.resume now s.state)) else none
  | .resting rest =>
    match rest.check now s.control with
    | none => some (.gate, s)
    | some later => if later = rest then none else some (.resting later, s)
  | .ended _ => none

end LoopPhase

end JobEngine
