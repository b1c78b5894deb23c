-- SUMMARY: Pausing, resuming and interrupting loops, and waits that these end early.

/-!
# Loop control

A `LoopControl` is shared by any number of loops. It says whether they are paused or interrupted,
and counts their iterations and waits. Setting or clearing the pause flag is a signal with a number
of its own, so that a waiting loop notices a signal that came and went. A `Rest` is a wait of a
loop: it ends at its deadline, at an interrupt, or at a signal that leaves the loops running; a
signal that pauses them leaves it where it is.
-/

namespace JobEngine

/-- What loops share. -/
structure LoopControl where
  paused : Bool := false
  interrupted : Bool := false
  /-- How many signals there were. -/
  signals : Nat := 0
  /-- How many iterations all loops may begin together. -/
  limit : Option Nat := none
  /-- The iterations that were begun. -/
  iterations : Nat := 0
  /-- The waits that were begun. -/
  waits : Nat := 0
deriving DecidableEq, Repr

namespace LoopControl

/-- Loops block before their next iteration. -/
def pause (c : LoopControl) : LoopControl := { c with paused := true, signals := c.signals + 1 }

/-- Loops go on, and their waits end. -/
def resume (c : LoopControl) : LoopControl := { c with paused := false, signals := c.signals + 1 }

/-- Loops end before their next iteration, and their waits end. -/
def interrupt (c : LoopControl) : LoopControl := { c with interrupted := true }

/-- Begin an iteration, if the limit admits one. -/
def claim? (c : LoopControl) : Option LoopControl :=
  if c.limit.any (· ≤ c.iterations) then none else some { c with iterations := c.iterations + 1 }

end LoopControl

/-! ## Waits -/

/-- A wait of a loop. -/
structure Rest where
  deadline : Nat
  /-- The number of signals that the wait has seen. -/
  seen : Nat
deriving DecidableEq, Repr

/-- Begin a wait of `interval` milliseconds at `now`. -/
def LoopControl.beginRest (c : LoopControl) (interval now : Nat) : Rest × LoopControl :=
  (⟨now + interval, c.signals⟩, { c with waits := c.waits + 1 })

/-- Look at the control at `now`: `none` if the wait is over, the wait with the signals it has seen
by now otherwise. -/
def Rest.check (r : Rest) (now : Nat) (c : LoopControl) : Option Rest :=
  if c.interrupted || decide (r.deadline ≤ now) then none
  else if r.seen = c.signals then some r
  else if c.paused then some { r with seen := c.signals }
  else none

end JobEngine
