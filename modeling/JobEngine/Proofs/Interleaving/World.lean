-- SUMMARY: Workers, maintenance and everything else at work on one engine, in any order.
import JobEngine.Proofs.Engine.Rescue

/-!
# Interleavings

A `World` is an engine with what its workers have in hand and what its janitor runs have read. An
`Act` is one storage call that may write a job, together with what goes with it; a janitor run may
also go through as one act. Everything else that can happen to the engine (the clock, outages,
planned failures, the breaker, messages, cron definitions, the work of handlers) is the act `other`,
which may leave any state with the same jobs. A run is a list of acts, so every order of the calls
of any number of workers, cron firings and janitor runs is one.

`World.overtaking` is the run in which a worker outlives its job's timeout.
-/

namespace JobEngine

/-- An engine with the workers and the janitor runs that are at work on it. -/
structure World where
  engine : EngineState
  /-- The job that each worker has in hand, as it was picked. -/
  held : Nat → Option Job
  /-- The records that janitor runs have read. -/
  seen : List Job
  /-- The identifiers that jobs have had so far. -/
  known : List JobId

/-- What can happen in a world. -/
inductive Act where
  /-- A worker picks a job. -/
  | pick (w : Nat)
  /-- A worker stores the success of its attempt, or fails to, and is done with the job. -/
  | succeed (w : Nat)
  /-- A worker stores the failure of its attempt, or fails to, and is done with the job. -/
  | fail (w : Nat) (error : TaskError) (strategy : RetryStrategy)
  /-- A worker is stopped and drops its job. -/
  | lose (w : Nat)
  | enqueue
  /-- A cron definition, as it was read at some time, is fired. -/
  | fire (c : CronDefinition) (now next : Instant)
  /-- A janitor run goes through at one go. -/
  | sweep (batch : Nat)
  /-- A janitor run reads a page. -/
  | read (page : Page)
  /-- A janitor run of time `now` examines a job that was read. -/
  | examine (now : Instant) (j : Job)
  | delete (retention : Option Duration)
  /-- Anything else happens that leaves the jobs as they are. -/
  | other (s : EngineState)

namespace World

variable {x : World} {a : Act} {id : JobId}

/-- The workers begin with empty hands. -/
def start (s : EngineState) : World where
  engine := s
  held := fun _ => none
  seen := []
  known := s.store.jobs.keys

/-- The stored record of a job. -/
def job? (x : World) (id : JobId) : Option Job := x.engine.store.job? id

/-- Put a job into a worker's hands, or take it away. -/
def hold (x : World) (w : Nat) (j : Option Job) : World :=
  { x with held := fun v => if v = w then j else x.held v }

/-- What a janitor run gets to read on a page. -/
def page (x : World) (page : Page) : List Job :=
  match (x.engine.guarded (·.getJobs { states := [.executing] } page)).1 with
  | .ok jobs => jobs
  | .error _ => []

/-- What an act does to the engine, the hands and the pages. -/
def perform (x : World) : Act → World
  | .pick w => { x with engine := x.engine.pick.2 }.hold w x.engine.pick.1
  | .succeed w =>
    match x.held w with
    | none => x
    | some j => { x with engine := (x.engine.handleSuccess j).2 }.hold w none
  | .fail w error strategy =>
    match x.held w with
    | none => x
    | some j => { x with engine := (x.engine.handleFailure j error strategy).2 }.hold w none
  | .lose w => x.hold w none
  | .enqueue => { x with engine := x.engine.enqueueDue.2 }
  | .fire c now next => { x with engine := (x.engine.fireCron c now next).2 }
  | .sweep batch => { x with engine := (EngineState.rescueStale batch x.engine).2 }
  | .read page =>
    { x with
      engine := (x.engine.guarded (·.getJobs { states := [.executing] } page)).2
      seen := x.seen ++ x.page page }
  | .examine now j => { x with engine := (EngineState.rescuePage now [j] 0 x.engine).2 }
  | .delete retention => { x with engine := (EngineState.deleteExpired retention x.engine).2 }
  | .other s => { x with engine := s }

/-- The world after an act. -/
def after (x : World) (a : Act) : World :=
  { x.perform a with known := x.known ++ (x.perform a).engine.store.jobs.keys }

/-- What the engine's own rules ask of an act: a worker picks with empty hands, a janitor run
examines what was read, and `other` leaves the jobs alone. -/
def Possible (x : World) : Act → Prop
  | .pick w => x.held w = none
  | .examine _ j => j ∈ x.seen
  | .other s => s.store.jobs = x.engine.store.jobs
  | _ => True

/-- A derived job gets an identifier that no job had before. -/
def Fresh (x : World) : Act → Prop
  | .fire _ _ _ => x.engine.nextJobId ∉ x.known
  | _ => True

instance : Decidable (x.Possible a) := by
  cases a <;> unfold Possible <;> infer_instance

/-- An act that can happen at this point. -/
def Lawful (x : World) (a : Act) : Prop := x.Possible a ∧ x.Fresh a

instance : Decidable (x.Fresh a) := by
  cases a <;> unfold Fresh <;> infer_instance

instance : Decidable (x.Lawful a) := inferInstanceAs (Decidable (_ ∧ _))

/-! ## Runs -/

/-- The world after a run. -/
def afterAll (x : World) (acts : List Act) : World := acts.foldl after x

/-- Every act of a run is allowed where it happens. -/
def Runs (allowed : World → Act → Prop) : World → List Act → Prop
  | _, [] => True
  | x, a :: rest => allowed x a ∧ Runs allowed (x.after a) rest

instance {allowed : World → Act → Prop} [∀ x a, Decidable (allowed x a)] :
    ∀ (x : World) (acts : List Act), Decidable (Runs allowed x acts)
  | _, [] => .isTrue trivial
  | x, a :: rest =>
    have := @instDecidableRuns allowed _ (x.after a) rest
    inferInstanceAs (Decidable (_ ∧ _))

theorem afterAll_append (x : World) (l m : List Act) :
    x.afterAll (l ++ m) = (x.afterAll l).afterAll m :=
  List.foldl_append

theorem runs_append {allowed : World → Act → Prop} {l m : List Act} :
    Runs allowed x (l ++ m) ↔ Runs allowed x l ∧ Runs allowed (x.afterAll l) m := by
  induction l generalizing x with
  | nil => simp [Runs, afterAll]
  | cons a rest ih => simp [Runs, afterAll, ih, and_assoc]

theorem Runs.mono {allowed allowed' : World → Act → Prop} {acts : List Act}
    (h : ∀ x a, allowed x a → allowed' x a) (hr : Runs allowed x acts) : Runs allowed' x acts := by
  induction acts generalizing x with
  | nil => trivial
  | cons a rest ih => exact ⟨h x a hr.1, ih hr.2⟩

/-- What every allowed act keeps holds after a run. -/
theorem Runs.preserves {allowed : World → Act → Prop} {P : World → Prop} {acts : List Act}
    (step : ∀ x a, P x → allowed x a → P (x.after a)) (hr : Runs allowed x acts) (hx : P x) :
    P (x.afterAll acts) := by
  induction acts generalizing x with
  | nil => exact hx
  | cons a rest ih => exact ih hr.2 (step x a hx hr.1)

/-! ## A run -/

/-- A first worker takes longer than the job's timeout, so the job is reclaimed and made ready. A
second worker completes it, and then the first one comes back with a failure. -/
def overtaking : List Act :=
  [.pick 0,
    .other { ((start loneEngine).after (.pick 0)).engine with now := .ofMillis 1000000 },
    .sweep 1000, .enqueue, .pick 1, .succeed 1,
    .fail 0 { message := "too late" } .linear]

theorem overtaking_lawful : Runs Lawful (start loneEngine) overtaking := by
  decide +kernel

end World

end JobEngine
