-- SUMMARY: Tasks interleaved in virtual time, which jumps to the next alarm when all tasks wait.

/-!
# Virtual time

Tasks are carried on one at a time, each until it waits. When all of them wait, time jumps to the
earliest alarm. Tasks whose alarms have the same time go in the order in which the alarms were set.
Whoever runs the tasks waits for a `Goal` and takes precedence at its time: what is due just then
has not run when the wait ends.

The module knows tasks only by their names `ρ`; a function carries the task of a name on, in the
state `σ` that holds all tasks.
-/

namespace JobEngine

/-- Where a task stands after it was carried on. -/
inductive Turn where
  /-- It can be carried on at once. -/
  | again
  /-- It waits, for an alarm or for a change of the state. -/
  | blocked (alarm : Option Nat)
  | ended
deriving DecidableEq, Repr

/-- Carries the task of a name on at a time. -/
abbrev Poll (ρ σ : Type) := ρ → Nat → σ → Turn × σ

/-- An alarm of a task. -/
structure Alarm (ρ : Type) where
  task : ρ
  time : Nat
  /-- Alarms are numbered as they are set. -/
  order : Nat

/-- The time, the tasks in the order of their beginning, and their alarms. -/
structure VirtualTime (ρ : Type) where
  now : Nat := 0
  tasks : List ρ := []
  alarms : List (Alarm ρ) := []
  nextOrder : Nat := 0

/-- What somebody who runs the tasks waits for. -/
inductive Goal (ρ σ : Type) where
  /-- A time. -/
  | time (t : Nat)
  /-- The end of a task, which goes before all others. -/
  | task (r : ρ)
  /-- A property of the state that is looked at when all tasks wait, or a deadline. -/
  | state (holds : σ → Bool) (deadline : Option Nat)

namespace Goal

variable {ρ σ : Type}

/-- The task that is waited for. -/
def awaited : Goal ρ σ → Option ρ
  | .task r => some r
  | _ => none

/-- The time at which the wait ends at the latest. -/
def deadline : Goal ρ σ → Option Nat
  | .time t => some t
  | .task _ => none
  | .state _ deadline => deadline

/-- The wait is over before its deadline. -/
def isReached [DecidableEq ρ] (g : Goal ρ σ) (x : VirtualTime ρ) (s : σ) : Bool :=
  match g with
  | .time _ => false
  | .task r => r ∉ x.tasks
  | .state holds _ => holds s

end Goal

namespace VirtualTime

variable {ρ σ : Type} [DecidableEq ρ]

/-- Begin a task. -/
def spawn (x : VirtualTime ρ) (r : ρ) : VirtualTime ρ := { x with tasks := x.tasks ++ [r] }

/-- Begin the tasks with the numbers from `first` up to, but not including, `last`. -/
def spawnNew (x : VirtualTime ρ) (task : Nat → ρ) (first last : Nat) : VirtualTime ρ :=
  (((List.range last).drop first).map task).foldl spawn x

/-- Carry a task on until it waits or ends, for at most `fuel` turns. -/
def turns (poll : Poll ρ σ) : Nat → ρ → Nat → σ → Turn × σ
  | 0, _, _, s => (.ended, s)
  | fuel + 1, r, now, s =>
    match poll r now s with
    | (.again, s) => turns poll fuel r now s
    | answer => answer

/-- Set the alarm of a task, unless it stands at that time already. -/
def setAlarm (x : VirtualTime ρ) (r : ρ) (time : Option Nat) : VirtualTime ρ :=
  let others := x.alarms.filter (·.task ≠ r)
  match time with
  | none => { x with alarms := others }
  | some t =>
    if x.alarms.any (fun a => a.task = r ∧ a.time = t) then x
    else { x with alarms := others ++ [⟨r, t, x.nextOrder⟩], nextOrder := x.nextOrder + 1 }

/-- Remove a task that has ended. -/
def remove (x : VirtualTime ρ) (r : ρ) : VirtualTime ρ :=
  { x with tasks := x.tasks.filter (· ≠ r), alarms := x.alarms.filter (·.task ≠ r) }

/-- Carry a task on, and keep its alarm. -/
def visit (poll : Poll ρ σ) (fuel : Nat) (r : ρ) (x : VirtualTime ρ) (s : σ) : VirtualTime ρ × σ :=
  match turns poll fuel r x.now s with
  | (.blocked alarm, s) => (x.setAlarm r alarm, s)
  | (_, s) => (x.remove r, s)

/-- Carry tasks on, one after another. The round stops early when the task that is waited for has
ended. -/
def round (poll : Poll ρ σ) (fuel : Nat) (awaited : Option ρ) :
    List ρ → VirtualTime ρ → σ → VirtualTime ρ × σ
  | [], x, s => (x, s)
  | r :: rest, x, s =>
    let (x, s) := x.visit poll fuel r s
    if awaited.any (fun a => a = r ∧ a ∉ x.tasks) then (x, s) else round poll fuel awaited rest x s

/-- The earliest alarm time. -/
def nextTime? (x : VirtualTime ρ) : Option Nat := (x.alarms.map (·.time)).min?

/-- The tasks that are due now, in the order of their alarms. -/
def due (x : VirtualTime ρ) : List ρ :=
  ((x.alarms.filter (·.time ≤ x.now)).mergeSort (fun a b => a.order ≤ b.order)).map (·.task)

/-- Put the task that is waited for in front. -/
def inFront (awaited : Option ρ) (tasks : List ρ) : List ρ :=
  match awaited with
  | none => tasks
  | some r => if r ∈ tasks then r :: tasks.filter (· ≠ r) else tasks

/-- Let time jump from alarm to alarm until the goal is reached. Nothing more happens when no alarm
is left, or when `fuel` alarms have been served. -/
def proceed (poll : Poll ρ σ) (turnLimit : Nat) (g : Goal ρ σ) :
    Nat → VirtualTime ρ → σ → VirtualTime ρ × σ
  | 0, x, s => (x, s)
  | fuel + 1, x, s =>
    if g.isReached x s then (x, s)
    else
      match x.nextTime?, g.deadline with
      | none, none => (x, s)
      | none, some d => ({ x with now := d }, s)
      | some t, d =>
        if d.any (· ≤ t) then ({ x with now := d.getD t }, s)
        else
          let x := { x with now := t }
          let (x, s) := round poll turnLimit g.awaited (inFront g.awaited x.due) x s
          proceed poll turnLimit g fuel x s

/-- How many turns a task may take at one time, and how many alarms are served in one wait. -/
def defaultFuel : Nat := 1000000

/-- Wait for a goal. A wait that is over at once runs no task; any other one first carries every
task on, in the order of their beginning. -/
def wait (poll : Poll ρ σ) (g : Goal ρ σ) (x : VirtualTime ρ) (s : σ) : VirtualTime ρ × σ :=
  if g.isReached x s || g.deadline.any (· ≤ x.now) then (x, s)
  else
    let (x, s) := round poll defaultFuel g.awaited (inFront g.awaited x.tasks) x s
    proceed poll defaultFuel g defaultFuel x s

/-- Let `span` milliseconds go by. -/
def sleep (poll : Poll ρ σ) (span : Nat) (x : VirtualTime ρ) (s : σ) : VirtualTime ρ × σ :=
  x.wait poll (.time (x.now + span)) s

end VirtualTime

end JobEngine
