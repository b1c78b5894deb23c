-- SUMMARY: Loops and single waits that share one control, as tasks in virtual time.
import JobEngine.Loop.Polling
import JobEngine.VirtualTime

/-!
# Loop groups

A `LoopGroup` puts any number of polling loops on one control and one state. Beside the loops it may
have members that only wait once on the same control. Every member is a task in virtual time, known
by its place in the group; it may begin late.
-/

namespace JobEngine

/-- Where a member of a group stands. -/
inductive LoopMember (ω : Type) where
  /-- A loop that begins at a time. -/
  | delayed (due : Nat) (loop : PollingLoop ω)
  | looping (loop : PollingLoop ω) (phase : LoopPhase ω)
  /-- A wait of some milliseconds that begins at a time. -/
  | sleeping (due interval : Nat)
  | resting (rest : Rest)
  | ended (time : Nat)

namespace LoopMember

variable {ω : Type}

/-- When a member ended. -/
def endedAt? : LoopMember ω → Option Nat
  | .ended t => some t
  | _ => none

end LoopMember

/-- Members that share a control and a state. -/
structure LoopGroup (ω : Type) where
  control : LoopControl := {}
  stats : PollingStats := {}
  members : List (LoopMember ω)
  state : ω

namespace LoopGroup

variable {ω : Type}

/-- Put a member where it stands now. -/
def move (g : LoopGroup ω) (i : Nat) (m : LoopMember ω) : Turn × LoopGroup ω :=
  (if m.endedAt?.isSome then .ended else .again, { g with members := g.members.set i m })

/-- Carry a member on. -/
def poll : Poll Nat (LoopGroup ω) := fun i now g =>
  match g.members[i]? with
  | none | some (.ended _) => (.ended, g)
  | some (.delayed due loop) =>
    if due ≤ now then g.move i (.looping loop .gate) else (.blocked (some due), g)
  | some (.looping loop phase) =>
    match phase.advance loop now ⟨g.control, g.stats, g.state⟩ with
    | none => (.blocked phase.alarm?, g)
    | some (after, shared) =>
      { g with control := shared.control, stats := shared.stats, state := shared.state }.move i
        (if after.isEnded then .ended now else .looping loop after)
  | some (.sleeping due interval) =>
    if due ≤ now then
      let (rest, control) := g.control.beginRest interval now
      { g with control }.move i (.resting rest)
    else (.blocked (some due), g)
  | some (.resting rest) =>
    match rest.check now g.control with
    | none => g.move i (.ended now)
    | some later =>
      if later = rest then (.blocked (some rest.deadline), g) else g.move i (.resting later)

def pause (g : LoopGroup ω) : LoopGroup ω := { g with control := g.control.pause }
def resume (g : LoopGroup ω) : LoopGroup ω := { g with control := g.control.resume }
def interrupt (g : LoopGroup ω) : LoopGroup ω := { g with control := g.control.interrupt }

end LoopGroup

end JobEngine
