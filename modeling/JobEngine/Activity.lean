-- SUMMARY: Work that may have to wait, as data: changes of a state, waits, results and panics.

/-!
# Activities

An `Activity ω α` is work on a shared state `ω` that gives an `α` in the end. Between two waits it
is never interrupted, so other work sees the state only as it is at a wait. Time is counted in whole
milliseconds and passes only while work waits.

An activity is run in one of two ways. `Activity.run` carries it to its end on its own;
`Activity.poll` and `Suspended.resume` carry it to its next wait, so that a scheduler can interleave
several.
-/

namespace JobEngine

/-! ## Activities -/

/-- What a panic carries. -/
inductive PanicPayload where
  | text (message : String)
  | other
deriving DecidableEq, Repr

/-- The text of a panic. -/
def PanicPayload.message : PanicPayload → String
  | .text m => m
  | .other => "non-string panic payload"

/-- Work on a state `ω` that gives an `α`. -/
inductive Activity (ω α : Type) where
  | done (result : α)
  | panic (payload : PanicPayload)
  /-- Change the state, and go on in a way that depends on the state before the change. -/
  | step (change : ω → ω) (next : ω → Activity ω α)
  /-- Wait until `ready` holds of the state, but at most for `limit` milliseconds; go on with the
  time that was waited. -/
  | wait (limit : Option Nat) (ready : ω → Bool) (next : Nat → Activity ω α)

/-- How work ended. -/
inductive Ending (α : Type) where
  | done (result : α)
  | panic (payload : PanicPayload)
deriving DecidableEq

namespace Activity

variable {ω α β : Type}

/-- Change the state by `f` and go on with its answer. -/
def act (f : ω → β × ω) (next : β → Activity ω α) : Activity ω α :=
  .step (fun s => (f s).2) (fun s => next (f s).1)

/-- Change the state. -/
def modify (f : ω → ω) (next : Activity ω α) : Activity ω α := .step f fun _ => next

/-- Wait for a number of milliseconds. -/
def sleep (ms : Nat) (next : Activity ω α) : Activity ω α :=
  .wait (some ms) (fun _ => false) fun _ => next

/-- Wait until the state satisfies `ready`. -/
def await (ready : ω → Bool) (next : Activity ω α) : Activity ω α :=
  .wait none ready fun _ => next

/-- Go on with the result of the first activity. -/
def bind : Activity ω α → (α → Activity ω β) → Activity ω β
  | .done a, k => k a
  | .panic p, _ => .panic p
  | .step change next, k => .step change fun s => (next s).bind k
  | .wait limit ready next, k => .wait limit ready fun waited => (next waited).bind k

/-- Turn a panic into a result. -/
def caught : Activity ω α → Activity ω (Ending α)
  | .done a => .done (.done a)
  | .panic p => .done (.panic p)
  | .step change next => .step change fun s => (next s).caught
  | .wait limit ready next => .wait limit ready fun waited => (next waited).caught

/-- Tell with the result how long the work waited, beginning from `elapsed`. -/
def timed (elapsed : Nat) : Activity ω α → Activity ω (α × Nat)
  | .done a => .done (a, elapsed)
  | .panic p => .panic p
  | .step change next => .step change fun s => (next s).timed elapsed
  | .wait limit ready next => .wait limit ready fun waited => (next waited).timed (elapsed + waited)

/-- The smaller of two limits. -/
def cutLimit (budget : Nat) : Option Nat → Nat
  | none => budget
  | some ms => min ms budget

/-- Stop the work at the wait that would take it past `budget` milliseconds, with no result. A wait
that ends just when the budget does is not stopped. -/
def within (budget : Nat) : Activity ω α → Activity ω (Option α)
  | .done a => .done (some a)
  | .panic p => .panic p
  | .step change next => .step change fun s => (next s).within budget
  | .wait limit ready next => .wait (some (cutLimit budget limit)) ready fun waited =>
      let goOn := (next waited).within (budget - waited)
      if waited < budget then goOn
      else if limit.any (· ≤ budget) then goOn
      else .step id fun s => if ready s then goOn else .done none

/-! ## Running alone -/

/-- Carry the work to its end from time `now`, with nobody else changing the state. The answer is
the ending and its time, or `none` if the work waits for ever. -/
def run : Activity ω α → Nat → ω → Option (Ending α × Nat) × ω
  | .done a, now, s => (some (.done a, now), s)
  | .panic p, now, s => (some (.panic p, now), s)
  | .step change next, now, s => (next s).run now (change s)
  | .wait limit ready next, now, s =>
    if ready s then (next 0).run now s
    else
      match limit with
      | some ms => (next ms).run (now + ms) s
      | none => (none, s)

end Activity

/-! ## Running among others -/

/-- Work that waits. -/
structure Suspended (ω α : Type) where
  /-- When the wait began. -/
  since : Nat
  /-- When the wait ends at the latest. -/
  deadline : Option Nat
  ready : ω → Bool
  next : Nat → Activity ω α

/-- Where work stands after it was carried on. -/
inductive Pause (ω α : Type) where
  | ended (ending : Ending α)
  | waiting (rest : Suspended ω α)

namespace Activity

variable {ω α : Type}

/-- Carry the work on to its next wait or its end. -/
def poll : Activity ω α → Nat → ω → Pause ω α × ω
  | .done a, _, s => (.ended (.done a), s)
  | .panic p, _, s => (.ended (.panic p), s)
  | .step change next, now, s => (next s).poll now (change s)
  | .wait limit ready next, now, s =>
    if ready s || limit == some 0 then (next 0).poll now s
    else (.waiting ⟨now, limit.map (now + ·), ready, next⟩, s)

end Activity

namespace Suspended

variable {ω α : Type}

/-- The wait is over. -/
def isReady (p : Suspended ω α) (now : Nat) (s : ω) : Bool :=
  p.ready s || p.deadline.any (· ≤ now)

/-- Carry the work on, if its wait is over. -/
def resume (p : Suspended ω α) (now : Nat) (s : ω) : Pause ω α × ω :=
  if p.isReady now s then (p.next (now - p.since)).poll now s else (.waiting p, s)

end Suspended

end JobEngine
