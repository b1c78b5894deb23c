-- SUMMARY: A scheduler at work on a state: its timers and a tick outside them, in virtual time.
import JobEngine.Scheduler.Timer

/-!
# Schedulers at work

A `SchedulerRun` is a scheduler with the state that its commands change and with virtual time.
Besides the ticks of the timers there may be a tick that somebody asks for and waits for. It does
not keep clear of the timers' ticks.
-/

namespace JobEngine

/-- A task of a scheduler. -/
inductive SchedulerTask where
  | timer (i : Nat)
  /-- The tick that was asked for. -/
  | single
deriving DecidableEq, Repr

/-- A scheduler with its state. -/
structure SchedulerRun (ω : Type) where
  scheduler : Scheduler ω
  /-- The tick that was asked for, if it has not ended. -/
  single : Option (Suspended ω Unit) := none
  state : ω

namespace SchedulerRun

variable {ω : Type}

/-- Carry a task on. A timer that is cancelled while it is due ticks once more. -/
def poll : Poll SchedulerTask (SchedulerRun ω) := fun r now s =>
  match r with
  | .timer i =>
    let (turn, scheduler, state) := s.scheduler.poll true i now s.state
    (turn, { s with scheduler, state })
  | .single =>
    match s.single with
    | none => (.ended, s)
    | some rest =>
      if !rest.isReady now s.state then (.blocked rest.deadline, s)
      else
        match rest.resume now s.state with
        | (.waiting rest, state) => (.again, { s with single := some rest, state })
        | (.ended _, state) => (.ended, { s with single := none, state })

/-- Start the timer, and answer whether there was none running. -/
def start (x : VirtualTime SchedulerTask) (s : SchedulerRun ω) :
    Bool × VirtualTime SchedulerTask × SchedulerRun ω :=
  let (begun, scheduler) := s.scheduler.start x.now
  (begun, x.spawnNew .timer s.scheduler.timers.length scheduler.timers.length, { s with scheduler })

def stop (s : SchedulerRun ω) : SchedulerRun ω := { s with scheduler := s.scheduler.stop }

/-- Wait for the end of the timer that is held. -/
def join (poll : Poll SchedulerTask (SchedulerRun ω)) (x : VirtualTime SchedulerTask)
    (s : SchedulerRun ω) : VirtualTime SchedulerTask × SchedulerRun ω :=
  Scheduler.join poll scheduler (fun scheduler s => { s with scheduler }) x s

/-- Run all commands once, outside the timers, and wait until they are through. -/
def tickOnce (poll : Poll SchedulerTask (SchedulerRun ω)) (x : VirtualTime SchedulerTask)
    (s : SchedulerRun ω) : VirtualTime SchedulerTask × SchedulerRun ω :=
  let tick : Suspended ω Unit := ⟨x.now, some x.now, fun _ => true, fun _ => s.scheduler.tick⟩
  let (x, s) := (x.spawn .single).wait poll (.task .single) { s with single := some tick }
  (x, { s with scheduler := s.scheduler.countTick })

end SchedulerRun

end JobEngine
