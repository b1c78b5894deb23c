-- SUMMARY: The engine's operations as data, with each storage call as an item of its own.
import JobEngine.Engine.Execution
import JobEngine.Proofs.Activity.Steps
import JobEngine.Proofs.Engine.Calls
import JobEngine.Scheduler.Tick

/-!
# Routines

The operations of the engine run through all of their storage calls at once, which is right as long
as nobody is about who could come between them. A `Routine` is an operation as data that says where
each storage call stands, which one it is, and how the operation goes on with its answer.
`Routine.work` makes each call in one step, so that the clock, the breaker and the storage may change
between the calls. With nobody about, each routine comes to the same as its operation.
-/

namespace JobEngine

open Activity

/-! ## Storage calls -/

/-- The storage calls of the engine. -/
inductive StorageCall where
  | pickJob
  | enqueueJobs
  | saveJob (j : Job)
  | saveNewJob (draft : JobId → Job)
  | getJobs (f : JobFilter) (page : Page)
  | getCrons
  | saveCron (c : CronDefinition)
  | deleteJobs (time : Instant)
  | saveMessage (m : JobMessage)

namespace StorageCall

/-- What the storage answers. -/
abbrev Answer : StorageCall → Type
  | .pickJob => Option Job
  | .enqueueJobs => List Job
  | .saveJob _ => Unit
  | .saveNewJob _ => Job
  | .getJobs _ _ => List Job
  | .getCrons => List CronDefinition
  | .saveCron _ => Unit
  | .deleteJobs _ => Nat
  | .saveMessage _ => Unit

/-- The call on a storage whose clock shows `now`. -/
def on (now : Instant) : (c : StorageCall) → Backend → Except EngineError c.Answer × Backend
  | .pickJob => (·.pickJob now)
  | .enqueueJobs => (·.enqueueJobs now)
  | .saveJob j => (·.saveJob j)
  | .saveNewJob draft => (·.saveNewJob draft)
  | .getJobs f page => (·.getJobs f page)
  | .getCrons => (·.getCrons)
  | .saveCron c => (·.saveCron c)
  | .deleteJobs time => (·.deleteJobs time)
  | .saveMessage m => (·.saveMessage m)

end StorageCall

/-- Make a storage call through the breaker. -/
def EngineState.request (s : EngineState) (c : StorageCall) :
    Except EngineError c.Answer × EngineState :=
  s.guarded (c.on s.now)

theorem EngineState.request_now (s : EngineState) (c : StorageCall) :
    (s.request c).2.now = s.now := by
  rcases s.guarded_cases (c.on s.now) with ⟨e, t, ht, -, hnow⟩ | ⟨t, ht, -, hnow⟩
  all_goals
    rw [request, ht]
    exact hnow

/-! ## Routines -/

/-- Work of the engine that gives an `α`. -/
inductive Routine (α : Type) where
  | done (result : α)
  | panic (payload : PanicPayload)
  /-- Change the state without a storage call. -/
  | step (change : EngineState → EngineState) (next : EngineState → Routine α)
  | wait (limit : Option Nat) (ready : EngineState → Bool) (next : Nat → Routine α)
  /-- Make a storage call through the breaker, and change the state with its answer at once. -/
  | call (c : StorageCall) (after : Except EngineError c.Answer → EngineState → EngineState)
    (next : Except EngineError c.Answer → Routine α)

namespace Routine

variable {α β : Type}

/-- Look at the state. -/
def look (next : EngineState → Routine α) : Routine α := .step id next

/-- Change the state with an answer, and leave it if the call failed. -/
def onAnswer {α : Type} (after : α → EngineState → EngineState) :
    Except EngineError α → EngineState → EngineState
  | .ok a => after a
  | .error _ => id

/-- Make a storage call and go on with what it answers; end with the error if it fails. -/
def ask (c : StorageCall) (after : c.Answer → EngineState → EngineState)
    (next : c.Answer → Routine (Except EngineError β)) : Routine (Except EngineError β) :=
  .call c (onAnswer after)
    (fun
      | .ok a => next a
      | .error e => .done (.error e))

def bind : Routine α → (α → Routine β) → Routine β
  | .done a, k => k a
  | .panic p, _ => .panic p
  | .step change next, k => .step change fun s => (next s).bind k
  | .wait limit ready next, k => .wait limit ready fun waited => (next waited).bind k
  | .call c after next, k => .call c after fun r => (next r).bind k

def caught : Routine α → Routine (Ending α)
  | .done a => .done (.done a)
  | .panic p => .done (.panic p)
  | .step change next => .step change fun s => (next s).caught
  | .wait limit ready next => .wait limit ready fun waited => (next waited).caught
  | .call c after next => .call c after fun r => (next r).caught

def timed (elapsed : Nat) : Routine α → Routine (α × Nat)
  | .done a => .done (a, elapsed)
  | .panic p => .panic p
  | .step change next => .step change fun s => (next s).timed elapsed
  | .wait limit ready next =>
    .wait limit ready fun waited => (next waited).timed (elapsed + waited)
  | .call c after next => .call c after fun r => (next r).timed elapsed

/-- Work that makes no storage calls. -/
def ofActivity : Activity EngineState α → Routine α
  | .done a => .done a
  | .panic p => .panic p
  | .step change next => .step change fun s => ofActivity (next s)
  | .wait limit ready next => .wait limit ready fun waited => ofActivity (next waited)

/-- The routine with each storage call in one step. -/
def work : Routine α → Activity EngineState α
  | .done a => .done a
  | .panic p => .panic p
  | .step change next => .step change fun s => (next s).work
  | .wait limit ready next => .wait limit ready fun waited => (next waited).work
  | .call c after next =>
    .step (fun s => after (s.request c).1 (s.request c).2) fun s => (next (s.request c).1).work

theorem work_bind (r : Routine α) (k : α → Routine β) :
    (r.bind k).work = r.work.bind fun a => (k a).work := by
  induction r with
  | done a => rfl
  | panic p => rfl
  | step change next ih => exact congrArg _ (funext ih)
  | wait limit ready next ih => exact congrArg _ (funext ih)
  | call c after next ih => exact congrArg _ (funext fun s => ih _)

theorem work_caught (r : Routine α) : r.caught.work = r.work.caught := by
  induction r with
  | done a => rfl
  | panic p => rfl
  | step change next ih => exact congrArg _ (funext ih)
  | wait limit ready next ih => exact congrArg _ (funext ih)
  | call c after next ih => exact congrArg _ (funext fun s => ih _)

theorem work_timed (r : Routine α) (elapsed : Nat) :
    (r.timed elapsed).work = r.work.timed elapsed := by
  induction r generalizing elapsed with
  | done a => rfl
  | panic p => rfl
  | step change next ih => exact congrArg _ (funext fun s => ih s elapsed)
  | wait limit ready next ih => exact congrArg _ (funext fun waited => ih waited _)
  | call c after next ih => exact congrArg _ (funext fun s => ih _ elapsed)

theorem work_ofActivity (work : Activity EngineState α) : (ofActivity work).work = work := by
  induction work with
  | done a => rfl
  | panic p => rfl
  | step change next ih => exact congrArg _ (funext ih)
  | wait limit ready next ih => exact congrArg _ (funext ih)

/-! ## The engine's operations -/

open EngineState

/-- Tell the job that was picked, if there is one. -/
def tellPicked : Option Job → EngineState → EngineState
  | some j => (·.dispatch (.jobSelected j))
  | none => id

def pick : Routine (Option Job) :=
  .call .pickJob (onAnswer tellPicked)
    (fun
      | .ok j => .done j
      | .error _ => .done none)

def handleSuccess (j : Job) : Routine (Except EngineError Job) :=
  look fun s =>
    ask (.saveJob (j.complete s.now)) (fun _ => (·.dispatch (.jobCompleted (j.complete s.now))))
      fun _ => .done (.ok (j.complete s.now))

def handleFailure (j : Job) (error : TaskError) (strategy : RetryStrategy) :
    Routine (Except EngineError Job) :=
  .step (fun s => (s.afterFailure j strategy).2) fun s =>
    let after := (s.afterFailure j strategy).1
    ask (.saveJob after) (fun _ => id) fun _ =>
      .call (.saveMessage (.ofFailure j.id error j.attempt strategy.name s.now))
        (fun _ => (·.dispatch (failureEvent j.hasRetriesLeft after error)))
        fun _ => .done (.ok after)

def enqueueDue : Routine (Except EngineError Unit) :=
  ask .enqueueJobs (fun jobs s => jobs.foldl (fun s j => s.dispatch (.jobEnqueued j)) s)
    fun _ => .done (.ok ())

def fireCrons (now : Instant) : List CronDefinition → Routine (Except EngineError Unit)
  | [] => .done (.ok ())
  | c :: rest =>
    match Cron.nextFireAfter c.expression now with
    | .error e => .step (·.recordError (e.toError c.expression)) fun _ => fireCrons now rest
    | .ok next =>
      let c := { c with nextRunAt := some next }
      ask (.saveCron c) (fun _ => id) fun _ =>
        ask (.saveNewJob fun id => c.toJob id now) (fun j => (·.dispatch (.cronScheduled c j)))
          fun _ => fireCrons now rest

def fireDueCrons : Routine (Except EngineError Unit) :=
  look fun s =>
    ask .getCrons (fun _ => id) fun crons => fireCrons s.now (crons.filter (·.isDue s.now))

/-- Reclaim the jobs of a page whose attempt is lost, and go on with how many were left alone. -/
def rescuePage (now : Instant) (next : Nat → Routine (Except EngineError Unit)) :
    List Job → Nat → Routine (Except EngineError Unit)
  | [], kept => next kept
  | j :: rest, kept =>
    if j.isStale now then
      ask (.saveJob (j.rescue now)) (fun _ => (·.dispatch (.jobRescued (j.rescue now))))
        fun _ => rescuePage now next rest kept
    else rescuePage now next rest (kept + 1)

def rescuePages (now : Instant) (batch : Nat) : Nat → Nat → Routine (Except EngineError Unit)
  | 0, _ => .done (.ok ())
  | fuel + 1, kept =>
    ask (.getJobs { states := [.executing] } ⟨kept, batch⟩) (fun _ => id) fun page =>
      rescuePage now (fun kept =>
        if page.length < batch then .done (.ok ()) else rescuePages now batch fuel kept) page kept

/-- A run of the janitor. Where others store jobs in the meantime, it may read `more` pages than the
store had jobs at its beginning. -/
def rescueStale (batch more : Nat) : Routine (Except EngineError Unit) :=
  look fun s => rescuePages s.now (max batch 1) (s.backend.store.jobs.size + 1 + more) 0

def deleteExpired : Option Duration → Routine (Except EngineError Unit)
  | none => .done (.ok ())
  | some period =>
    look fun s =>
      ask (.deleteJobs (s.now.sub period))
        (fun count t => if 0 < count then t.dispatch (.jobsDeleted count (s.now.sub period)) else t)
        fun _ => .done (.ok ())

/-- Apply the outcome of an attempt. -/
def settle (x : Execution) (j : Job) (result : TaskResult) (elapsed : Nat) : Routine Unit :=
  .step (fun s => { s with
    metrics := s.metrics.recordExecution j.handler (Execution.outcomeName result).name
      (.ofMillis elapsed) }) fun _ =>
    match result with
    | .ok () => (handleSuccess j).bind fun _ => .done ()
    | .error e => (handleFailure j e (x.strategyOf j)).bind fun _ => .done ()

/-- One iteration of a worker. -/
def iterate (x : Execution) : Routine IterationStatus :=
  pick.bind fun
    | none => .done .skipped
    | some j =>
      ((ofActivity ((x.attempt j).timed 0)).bind fun (result, elapsed) =>
        settle x j result elapsed).bind fun _ => .done .processed

/-- Run commands one after another. -/
def runAll : List (String × Routine (Except EngineError Unit)) → Routine Unit
  | [] => .done ()
  | (name, r) :: rest =>
    r.caught.bind fun e =>
      .step (if Command.failed e then report (·.recordCommandError name) else id) fun _ => runAll rest

def maintenance (batch more : Nat) (retention : Option Duration) :
    List (String × Routine (Except EngineError Unit)) :=
  [("enqueue", enqueueDue), ("cron", fireDueCrons), ("janitor", rescueStale batch more),
    ("delete", deleteExpired retention)]

/-- One tick of the scheduler. -/
def tick (batch more : Nat) (retention : Option Duration) : Routine Unit :=
  ((runAll (maintenance batch more retention)).timed 0).bind fun (_, elapsed) =>
    .step (report (·.recordTick (.ofMillis elapsed))) fun _ => .done ()

/-! ## Alone -/

theorem run_ask (c : StorageCall) (after : c.Answer → EngineState → EngineState)
    (next : c.Answer → Routine (Except EngineError β)) (now : Nat) (s : EngineState) :
    (ask c after next).work.run now s =
      match s.request c with
      | (.error e, t) => (some (.done (.error e), now), t)
      | (.ok a, t) => (next a).work.run now (after a t) := by
  simp only [ask, work, run]
  rcases s.request c with ⟨e | a, t⟩ <;> rfl

theorem run_look (next : EngineState → Routine α) (now : Nat) (s : EngineState) :
    (look next).work.run now s = (next s).work.run now s :=
  rfl

theorem pick_alone : pick.work.SameAlone (act EngineState.pick .done) := by
  intro now s
  simp only [pick, work, act, run, request, StorageCall.on, EngineState.pick]
  rcases s.guarded (·.pickJob s.now) with ⟨e | _ | j, t⟩ <;> rfl

theorem handleSuccess_alone (j : Job) :
    (handleSuccess j).work.SameAlone (act (·.handleSuccess j) .done) := by
  intro now s
  simp only [handleSuccess, run_look, run_ask, act, run, EngineState.handleSuccess, saveJob, request,
    StorageCall.on]
  rcases s.guarded (·.saveJob (j.complete s.now)) with ⟨e | _, t⟩ <;> rfl

theorem handleFailure_alone (j : Job) (error : TaskError) (strategy : RetryStrategy) :
    (handleFailure j error strategy).work.SameAlone
      (act (·.handleFailure j error strategy) .done) := by
  intro now s
  simp only [handleFailure, work, run]
  simp only [run_ask, act, run, EngineState.handleFailure, saveJob, request, StorageCall.on]
  rcases (s.afterFailure j strategy).2.guarded (·.saveJob (s.afterFailure j strategy).1) with
    ⟨e | _, t⟩ <;> rfl

theorem enqueueDue_alone : enqueueDue.work.SameAlone (act EngineState.enqueueDue .done) := by
  intro now s
  simp only [enqueueDue, run_ask, act, run, EngineState.enqueueDue, request, StorageCall.on]
  rcases s.guarded (·.enqueueJobs s.now) with ⟨e | jobs, t⟩ <;> rfl

theorem fireCrons_alone (time : Instant) (crons : List CronDefinition) :
    (fireCrons time crons).work.SameAlone (act (EngineState.fireCrons time crons) .done) := by
  intro now s
  induction crons generalizing s with
  | nil => rfl
  | cons c rest ih =>
    simp only [act, run] at ih ⊢
    cases hnext : Cron.nextFireAfter c.expression time with
    | error e =>
      simp only [fireCrons, EngineState.fireCrons, hnext]
      exact ih _
    | ok next =>
      simp only [fireCrons, EngineState.fireCrons, hnext, run_ask, fireCron, request, StorageCall.on]
      generalize { c with nextRunAt := some next } = moved
      rcases s.guarded (·.saveCron moved) with ⟨e | _, t⟩
      · rfl
      · simp only [id]
        rcases t.guarded (·.saveNewJob fun id => moved.toJob id time) with ⟨e | j, u⟩
        · rfl
        · exact ih _

theorem fireDueCrons_alone : fireDueCrons.work.SameAlone (act EngineState.fireDueCrons .done) := by
  intro now s
  have hnow := s.request_now .getCrons
  simp only [fireDueCrons, run_look, run_ask, act, run, EngineState.fireDueCrons]
  simp only [request, StorageCall.on] at hnow ⊢
  rcases h : s.guarded (·.getCrons) with ⟨e | crons, t⟩
  · rfl
  · rw [h] at hnow
    simp only [id, ← hnow]
    exact fireCrons_alone _ _ now t

theorem rescuePage_alone (time : Instant) (next : Nat → Routine (Except EngineError Unit))
    (page : List Job) (kept now : Nat) (s : EngineState) :
    (rescuePage time next page kept).work.run now s =
      match EngineState.rescuePage time page kept s with
      | (.error e, t) => (some (.done (.error e), now), t)
      | (.ok kept, t) => (next kept).work.run now t := by
  induction page generalizing kept s with
  | nil => rfl
  | cons j rest ih =>
    simp only [rescuePage, EngineState.rescuePage]
    split
    · simp only [run_ask, saveJob, request, StorageCall.on]
      rcases s.guarded (·.saveJob (j.rescue time)) with ⟨e | _, t⟩
      · rfl
      · exact ih kept _
    · exact ih (kept + 1) s

theorem rescuePages_alone (time : Instant) (batch fuel kept : Nat) :
    (rescuePages time batch fuel kept).work.SameAlone
      (act (EngineState.rescuePages time batch fuel kept) .done) := by
  intro now s
  induction fuel generalizing kept s with
  | zero => rfl
  | succ fuel ih =>
    simp only [act, run] at ih ⊢
    simp only [rescuePages, EngineState.rescuePages, run_ask, request, StorageCall.on]
    rcases s.guarded (·.getJobs { states := [.executing] } ⟨kept, batch⟩) with ⟨e | page, t⟩
    · rfl
    · simp only [id, rescuePage_alone]
      rcases EngineState.rescuePage time page kept t with ⟨e | kept, u⟩
      · rfl
      · simp only
        split
        · rfl
        · exact ih kept u

theorem rescueStale_alone (batch : Nat) :
    (rescueStale batch 0).work.SameAlone (act (EngineState.rescueStale batch) .done) := by
  intro now s
  have hpages := rescuePages_alone s.now (max batch 1) (s.backend.store.jobs.size + 1) 0 now s
  simp only [act, run] at hpages
  simp only [rescueStale, run_look, Nat.add_zero, act, run, EngineState.rescueStale]
  exact hpages

theorem deleteExpired_alone (retention : Option Duration) :
    (deleteExpired retention).work.SameAlone (act (EngineState.deleteExpired retention) .done) := by
  intro now s
  cases retention with
  | none => rfl
  | some period =>
    simp only [deleteExpired, run_look, run_ask, act, run, EngineState.deleteExpired, request,
      StorageCall.on]
    rcases s.guarded (·.deleteJobs (s.now.sub period)) with ⟨e | count, t⟩ <;> rfl

theorem settle_alone (x : Execution) (j : Job) (result : TaskResult) (elapsed : Nat) :
    (settle x j result elapsed).work.SameAlone (.modify (x.settle j result elapsed) (.done ())) := by
  intro now s
  cases result with
  | ok value =>
    simp only [settle, Activity.modify, work, run, work_bind, run_bind, handleSuccess_alone j now _]
    rfl
  | error e =>
    simp only [settle, Activity.modify, work, run, work_bind, run_bind,
      handleFailure_alone j e _ now _]
    rfl

theorem iterate_alone (x : Execution) : (iterate x).work.SameAlone x.iterate := by
  intro now s
  have hpick := pick_alone now s
  simp only [act, run] at hpick
  simp only [iterate, Execution.iterate, work_bind, run_bind, hpick, act, run]
  cases s.pick.1 with
  | none => rfl
  | some j =>
    simp only [work_bind, work_ofActivity]
    have hprocess := (SameAlone.refl ((x.attempt j).timed 0)).bind fun r => settle_alone x j r.1 r.2
    exact hprocess.bind (fun _ => .refl _) now _

theorem runAll_cons_alone {name : String} {r : Routine (Except EngineError Unit)}
    {work' : Activity EngineState (Except EngineError Unit)}
    {l : List (String × Routine (Except EngineError Unit))} {m : List (Command EngineState)}
    (h : r.work.SameAlone work') (hrest : (runAll l).work.SameAlone (Command.runAll report m)) :
    (runAll ((name, r) :: l)).work.SameAlone (Command.runAll report (⟨name, work'⟩ :: m)) := by
  unfold runAll Command.runAll
  rw [work_bind, work_caught]
  apply h.caught.bind
  intro e now s
  exact hrest now _

theorem tick_alone (batch : Nat) (retention : Option Duration) :
    (tick batch 0 retention).work.SameAlone
      (Command.tick report (Command.maintenance batch retention)) := by
  unfold tick Command.tick
  rw [work_bind, work_timed]
  apply SameAlone.bind
  · apply SameAlone.timed
    apply runAll_cons_alone enqueueDue_alone
    apply runAll_cons_alone fireDueCrons_alone
    apply runAll_cons_alone (rescueStale_alone batch)
    apply runAll_cons_alone (deleteExpired_alone retention)
    exact .refl _
  · intro r
    exact .refl _

/-! ## Interrupted -/

section Interrupted

variable {R : EngineState → EngineState → Prop} {s t : EngineState}
  {log : List (EngineState × EngineState)}

theorem interrupted_call {c : StorageCall}
    {after : Except EngineError c.Answer → EngineState → EngineState}
    {next : Except EngineError c.Answer → Routine α} {a : α}
    (h : Interrupted R (call c after next).work s log a t) :
    ∃ u later, R s u ∧ log = (u, after (u.request c).1 (u.request c).2) :: later ∧
      Interrupted R (next (u.request c).1).work (after (u.request c).1 (u.request c).2) later a t := by
  cases h with
  | @step _ _ _ u _ later _ around hlater => exact ⟨u, later, around, rfl, hlater⟩

end Interrupted

/-! ## What every item does -/

section Each

variable {own : (EngineState → EngineState) → Prop}
  {called : (c : StorageCall) → (Except EngineError c.Answer → EngineState → EngineState) → Prop}

/-- Every change of the state satisfies `own`, and every storage call satisfies `called` together with
the change that follows it. -/
def Each (own : (EngineState → EngineState) → Prop)
    (called : (c : StorageCall) → (Except EngineError c.Answer → EngineState → EngineState) → Prop) :
    Routine α → Prop
  | .done _ => True
  | .panic _ => True
  | .step change next => own change ∧ ∀ s, (next s).Each own called
  | .wait _ _ next => ∀ waited, (next waited).Each own called
  | .call c after next => called c after ∧ ∀ r, (next r).Each own called

theorem Each.bind {r : Routine α} {k : α → Routine β} (h : r.Each own called)
    (hk : ∀ a, (k a).Each own called) : (r.bind k).Each own called := by
  induction r with
  | done a => exact hk a
  | panic p => trivial
  | step change next ih => exact ⟨h.1, fun s => ih s (h.2 s)⟩
  | wait limit ready next ih => exact fun waited => ih waited (h waited)
  | call c after next ih => exact ⟨h.1, fun r => ih r (h.2 r)⟩

theorem Each.caught {r : Routine α} (h : r.Each own called) : r.caught.Each own called := by
  induction r with
  | done a => trivial
  | panic p => trivial
  | step change next ih => exact ⟨h.1, fun s => ih s (h.2 s)⟩
  | wait limit ready next ih => exact fun waited => ih waited (h waited)
  | call c after next ih => exact ⟨h.1, fun r => ih r (h.2 r)⟩

theorem Each.timed {r : Routine α} (h : r.Each own called) (elapsed : Nat) :
    (r.timed elapsed).Each own called := by
  induction r generalizing elapsed with
  | done a => trivial
  | panic p => trivial
  | step change next ih => exact ⟨h.1, fun s => ih s (h.2 s) elapsed⟩
  | wait limit ready next ih => exact fun waited => ih waited (h waited) _
  | call c after next ih => exact ⟨h.1, fun r => ih r (h.2 r) elapsed⟩

/-- What every change and every call does with the state, every step of the work does. -/
theorem Each.always {P : EngineState → EngineState → Prop} {r : Routine α}
    (h : r.Each (fun change => ∀ s, P s (change s))
      fun c after => ∀ s, P s (after (s.request c).1 (s.request c).2)) : r.work.Always P := by
  induction r with
  | done a => trivial
  | panic p => trivial
  | step change next ih => exact fun s => ⟨h.1 s, ih s (h.2 s)⟩
  | wait limit ready next ih => exact fun waited => ih waited (h waited)
  | call c after next ih => exact fun s => ⟨h.1 s, ih _ (h.2 _)⟩

/-- Work without storage calls does in each step what it always does. -/
theorem each_ofActivity {P : EngineState → EngineState → Prop} {work : Activity EngineState α}
    (h : work.Always P) : (ofActivity work).Each (fun change => ∀ s, P s (change s)) called := by
  induction work with
  | done a => trivial
  | panic p => trivial
  | step change next ih => exact ⟨fun s => (h s).1, fun s => ih s (h s).2⟩
  | wait limit ready next ih => exact fun waited => ih waited (h waited)

theorem each_iterate {x : Execution}
    (hattempt : ∀ j, (ofActivity ((x.attempt j).timed 0)).Each own called)
    (hpick : called .pickJob (onAnswer tellPicked)) (hlook : own id)
    (hcount : ∀ handler outcome took,
      own fun s => { s with metrics := s.metrics.recordExecution handler outcome took })
    (hcomplete : ∀ j, called (.saveJob j) (onAnswer fun _ => (·.dispatch (.jobCompleted j))))
    (hdraw : ∀ j strategy, own fun s => (s.afterFailure j strategy).2)
    (hsave : ∀ j, called (.saveJob j) (onAnswer fun _ => id))
    (hnote : ∀ m retried j error,
      called (.saveMessage m) fun _ => (·.dispatch (failureEvent retried j error))) :
    (iterate x).Each own called := by
  have hsettle (j : Job) (result : TaskResult) (elapsed : Nat) :
      (settle x j result elapsed).Each own called := by
    refine ⟨hcount _ _ _, fun _ => ?_⟩
    cases result with
    | ok value =>
      refine Each.bind ⟨hlook, fun s => ⟨hcomplete _, ?_⟩⟩ fun _ => trivial
      rintro (e | a) <;> trivial
    | error e =>
      refine Each.bind ⟨hdraw _ _, fun s => ⟨hsave _, ?_⟩⟩ fun _ => trivial
      rintro (e | a)
      · trivial
      · exact ⟨hnote _ _ _ _, fun _ => trivial⟩
  refine Each.bind ⟨hpick, ?_⟩ ?_
  · rintro (e | j) <;> trivial
  · rintro (_ | j)
    · trivial
    · exact ((hattempt j).bind fun r => hsettle j r.1 r.2).bind fun _ => trivial

theorem each_fireDueCrons (hlook : own id) (hread : called .getCrons (onAnswer fun _ => id))
    (hskip : ∀ e, own (·.recordError e))
    (hmove : ∀ c, called (.saveCron c) (onAnswer fun _ => id))
    (hstore : ∀ (c : CronDefinition) now,
      called (.saveNewJob fun id => c.toJob id now)
        (onAnswer fun j => (·.dispatch (.cronScheduled c j)))) :
    fireDueCrons.Each own called := by
  refine ⟨hlook, fun s => ⟨hread, ?_⟩⟩
  rintro (e | crons)
  · trivial
  · simp only
    induction crons.filter (·.isDue s.now) with
    | nil => trivial
    | cons c rest ih =>
      simp only [fireCrons]
      split
      · exact ⟨hskip _, fun _ => ih⟩
      · refine ⟨hmove _, ?_⟩
        rintro (e | _)
        · trivial
        · refine ⟨hstore _ _, ?_⟩
          rintro (e | j)
          · trivial
          · exact ih

theorem each_rescueStale (hlook : own id)
    (hread : ∀ f page, called (.getJobs f page) (onAnswer fun _ => id))
    (hstore : ∀ (j : Job) now,
      called (.saveJob (j.rescue now)) (onAnswer fun _ => (·.dispatch (.jobRescued (j.rescue now)))))
    (batch more : Nat) : (rescueStale batch more).Each own called := by
  have hpage : ∀ now next, (∀ kept, (next kept).Each own called) → ∀ page kept,
      (rescuePage now next page kept).Each own called := by
    intro now next hnext page
    induction page with
    | nil => exact hnext
    | cons j rest ih =>
      intro kept
      simp only [rescuePage]
      split
      · refine ⟨hstore j now, ?_⟩
        rintro (e | _)
        · trivial
        · exact ih kept
      · exact ih (kept + 1)
  have hpages : ∀ now batch fuel kept, (rescuePages now batch fuel kept).Each own called := by
    intro now batch fuel
    induction fuel with
    | zero => exact fun _ => trivial
    | succ fuel ih =>
      intro kept
      refine ⟨hread _ _, ?_⟩
      rintro (e | page)
      · trivial
      · apply hpage
        intro kept
        split
        · trivial
        · exact ih kept
  exact ⟨hlook, fun s => hpages _ _ _ _⟩

end Each

end Routine

/-! ## What every step of an attempt does -/

/-- What the steps of all handlers do, the steps of an attempt do, if staying put and recording an
error are of the kind. -/
theorem Execution.always_attempt {x : Execution} {P : EngineState → EngineState → Prop}
    (hrefl : ∀ s, P s s) (hfail : ∀ s e, P s (s.recordError e))
    (h : ∀ name d, x.tasks.get? name = some d → ∀ ctx, (d.handler ctx).Always P) (j : Job) :
    (x.attempt j).Always P := by
  unfold attempt
  split
  · rename_i d hd
    have hhandler := (h _ d hd { job := j, env := x.env }).caught
    simp only [TaskDescriptor.attempt]
    split
    · exact hhandler.bind fun _ => trivial
    · exact (hhandler.within hrefl _).bind fun _ => trivial
  · exact fun s => ⟨hfail s _, trivial⟩

end JobEngine
