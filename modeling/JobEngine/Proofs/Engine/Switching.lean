-- SUMMARY: An engine that is started after a shutdown schedules jobs that no worker will run.
import JobEngine.Engine.Basic
import JobEngine.Proofs.Config.Settings
import JobEngine.Proofs.Pool.Slots
import JobEngine.Proofs.Scheduler.Timers

/-!
# Switching an engine on and off

Starting an engine starts its scheduler and its pool, and these differ in what a shutdown means to
them: the scheduler can be started again, the pool stays down. Until the first shutdown, a scheduler
that is running has a pool that was started, and a start leaves both of them at work. A start after
a shutdown sets the scheduler running and leaves the pool as it is, and no worker is spawned from
then on.
-/

namespace JobEngine

/-! ## Pools without new workers -/

/-- From `p` to `q` workers may have ended, and none was spawned. -/
structure Pool.Dwindles {ω : Type} (p q : Pool ω) : Prop where
  started : q.started = p.started
  spawned : q.spawned = p.spawned
  unfinished : q.unfinished ≤ p.unfinished

namespace Pool.Dwindles

variable {ω : Type} {p q r : Pool ω}

theorem refl (p : Pool ω) : p.Dwindles p := ⟨rfl, rfl, Nat.le_refl _⟩

theorem trans (h : p.Dwindles q) (h' : q.Dwindles r) : p.Dwindles r :=
  ⟨h'.started.trans h.started, h'.spawned.trans h.spawned, Nat.le_trans h'.unfinished h.unfinished⟩

theorem of_moves {i : Nat} {w : Worker ω} {phase : WorkerPhase ω} (h : p.Moves i w phase q) :
    p.Dwindles q := ⟨h.started, h.spawned, h.unfinished_le⟩

end Pool.Dwindles

namespace Engine

variable {e f g : Engine} {n : Nat}

/-! ## Turns -/

/-- What holds between `e` and `f` when parts of the engine were carried on. -/
structure GoesOn (e f : Engine) : Prop where
  pool : e.pool.Dwindles f.pool
  interrupted : f.pool.control.interrupted = e.pool.control.interrupted
  running : f.scheduler.isRunning = true → e.scheduler.isRunning = true
  sound : ∀ n waiting, e.pool.Sound n waiting → f.pool.Sound n waiting

theorem GoesOn.refl (e : Engine) : e.GoesOn e := ⟨.refl _, rfl, id, fun _ _ => id⟩

theorem GoesOn.trans (h : e.GoesOn f) (h' : f.GoesOn g) : e.GoesOn g where
  pool := h.pool.trans h'.pool
  interrupted := h'.interrupted.trans h.interrupted
  running := h.running ∘ h'.running
  sound n waiting := h'.sound n waiting ∘ h.sound n waiting

theorem goesOn_poll (r : EngineTask) (now : Nat) (e : Engine) : e.GoesOn (poll r now e).2 := by
  cases r with
  | timer i =>
    exact ⟨.refl _, rfl, (Scheduler.carries_poll false i now e.scheduler e.state).isRunning_of,
      fun _ _ => id⟩
  | worker i =>
    rcases e.pool.poll_cases i now e.state with hsame | ⟨w, phase, hmoves⟩
    · have hpool : (poll (.worker i) now e).2.pool = e.pool := hsame
      exact ⟨hpool ▸ .refl _, by rw [hpool], id, fun _ _ => hpool ▸ id⟩
    · exact ⟨.of_moves hmoves, hmoves.rules.interrupted, id, fun _ _ h => h.moves hmoves⟩

theorem goesOn_of_byTurns (h : VirtualTime.ByTurns poll e f) : e.GoesOn f :=
  h.lift GoesOn.refl GoesOn.trans goesOn_poll

/-! ## Graceful shutdown -/

/-- The pool has drained, and the scheduler is still to be stopped. -/
def drained (e : Engine) : Engine := { e with pool := e.pool.drain.2 }

/-- The pool takes handles back, and the scheduler is stopped and its timer given away. -/
def stopped (handles : List Nat) (e : Engine) : Engine :=
  { e with pool := e.pool.putBack handles, scheduler := e.scheduler.stop.take.2 }

theorem byTurns_join (clock : VirtualTime EngineTask) (e : Engine) :
    VirtualTime.ByTurns poll { e with scheduler := e.scheduler.take.2 }
      (Scheduler.join poll scheduler (fun scheduler e => { e with scheduler }) clock e).2 := by
  unfold Scheduler.join
  cases hslot : e.scheduler.slot with
  | none =>
    simp only [Scheduler.take, hslot]
    exact .refl _
  | some i =>
    simp only [Scheduler.take, hslot]
    exact VirtualTime.byTurns_wait ..

/-- During a shutdown parts of the engine are carried on, first until the workers have ended and
then until the timer has. -/
theorem shutdown_stages (clock : VirtualTime EngineTask) (e : Engine) :
    ∃ u, VirtualTime.ByTurns poll e.drained u ∧
      VirtualTime.ByTurns poll (u.stopped e.pool.held) (e.shutdown clock).2.2 := by
  let ended : Goal EngineTask Engine := .state (fun t => t.pool.allFinished e.pool.held)
    (some (clock.now + (e.config.polling.shutdownTimeout.nanos + 999999) / 1000000))
  let later := clock.wait poll ended e.drained
  refine ⟨later.2, VirtualTime.byTurns_wait .., ?_⟩
  let emptied : Engine := { later.2 with
    pool := later.2.pool.putBack e.pool.held
    scheduler := later.2.scheduler.stop }
  have hjoin : (e.shutdown clock).2.2 = (Scheduler.join poll scheduler
      (fun scheduler e => { e with scheduler }) later.1 emptied).2 := by
    unfold shutdown Pool.shutdown
    simp only
    split
    · rename_i hall
      have hnone : Pool.allFinished e.pool.held later.2.pool := hall
      simp only [emptied, PoolScene.putBack_of_allFinished hnone]
      rfl
    · rfl
  rw [hjoin]
  exact byTurns_join later.1 emptied

/-- After a graceful shutdown the pool is down and the scheduler is not running. -/
theorem shutdown_spec (clock : VirtualTime EngineTask) (e : Engine) :
    let f := (e.shutdown clock).2.2
    e.pool.Dwindles f.pool ∧ f.pool.control.interrupted = true ∧ f.scheduler.isRunning = false ∧
      ∀ n, e.pool.Sound n [] → f.pool.Sound n [] := by
  intro f
  obtain ⟨u, hdrained, hstopped⟩ := shutdown_stages clock e
  have hbefore := goesOn_of_byTurns hdrained
  have hafter := goesOn_of_byTurns hstopped
  refine ⟨?_, ?_, ?_, fun n hsound => ?_⟩
  · have hdrain : e.pool.Dwindles e.pool.drain.2 := ⟨rfl, rfl, Nat.le_refl _⟩
    have hback : u.pool.Dwindles (u.pool.putBack e.pool.held) := ⟨rfl, rfl, Nat.le_refl _⟩
    exact ((hdrain.trans hbefore.pool).trans hback).trans hafter.pool
  · exact hafter.interrupted.trans hbefore.interrupted
  · have hnot : (u.stopped e.pool.held).scheduler.isRunning = false :=
      u.scheduler.stop.isRunning_take
    exact Bool.eq_false_iff.2 fun hrunning => Bool.eq_false_iff.1 hnot (hafter.running hrunning)
  · have hdrain := hbefore.sound n [e.pool.held] (hsound.drain _)
    exact hafter.sound n [] (hdrain.putBack (List.cons_ne_nil _ _) _ _)

/-! ## Runs -/

/-- What may happen to an engine. Calls come one at a time. -/
inductive Act where
  | start (clock : VirtualTime EngineTask)
  | pause
  | resume
  | shutdown (clock : VirtualTime EngineTask)
  | shutdownNow
  /-- A worker or a timer is carried on. -/
  | turn (r : EngineTask) (now : Nat)
  /-- Others change the state. -/
  | around (state : EngineState)

namespace Act

def isStart : Act → Bool
  | .start _ => true
  | _ => false

def isShutdown : Act → Bool
  | .shutdown _ | .shutdownNow => true
  | _ => false

end Act

/-- The engine after an act. -/
def after (e : Engine) : Act → Engine
  | .start clock => (e.start clock).2.2
  | .pause => e.pause
  | .resume => e.resume
  | .shutdown clock => (e.shutdown clock).2.2
  | .shutdownNow => e.shutdownNow
  | .turn r now => (poll r now e).2
  | .around state => { e with state }

def afterAll (e : Engine) (acts : List Act) : Engine := acts.foldl after e

@[simp] theorem afterAll_cons (e : Engine) (a : Act) (acts : List Act) :
    e.afterAll (a :: acts) = (e.after a).afterAll acts := rfl

/-- Whether the engine is started after a shutdown. -/
def isRestart : List Act → Bool
  | [] => false
  | a :: rest => a.isShutdown && rest.any (·.isStart) || isRestart rest

theorem interrupted_after (e : Engine) (a : Act) :
    (e.after a).pool.control.interrupted = (e.pool.control.interrupted || a.isShutdown) := by
  cases a with
  | start clock => exact e.pool.interrupted_start.trans (Bool.or_false _).symm
  | shutdown clock => exact (shutdown_spec clock e).2.1.trans (Bool.or_true _).symm
  | shutdownNow => exact (Bool.or_true _).symm
  | turn r now => exact (goesOn_poll r now e).interrupted.trans (Bool.or_false _).symm
  | pause | resume | around => exact (Bool.or_false _).symm

/-- The pool is down from the first shutdown on. -/
theorem interrupted_afterAll (e : Engine) (acts : List Act) :
    (e.afterAll acts).pool.control.interrupted =
      (e.pool.control.interrupted || acts.any (·.isShutdown)) := by
  induction acts generalizing e with
  | nil => exact (Bool.or_false _).symm
  | cons a rest ih => rw [afterAll_cons, ih, interrupted_after, List.any_cons, Bool.or_assoc]

theorem sound_after (hn : 0 < n) (h : e.pool.Sound n []) (a : Act) :
    (e.after a).pool.Sound n [] := by
  cases a with
  | start clock => exact h.start hn
  | pause | resume => exact h.control id
  | shutdown clock => exact (shutdown_spec clock e).2.2.2 n h
  | shutdownNow => exact h.shutdownNow
  | turn r now => exact (goesOn_poll r now e).sound n [] h
  | around state => exact h

theorem sound_afterAll (hn : 0 < n) (h : e.pool.Sound n []) (acts : List Act) :
    (e.afterAll acts).pool.Sound n [] := by
  induction acts generalizing e with
  | nil => exact h
  | cons a rest ih => exact ih (sound_after hn h a)

/-- Only a start that finds the pool not shut down spawns workers. -/
theorem dwindles_after {a : Act} (h : a.isStart = false ∨ e.pool.control.interrupted = true) :
    e.pool.Dwindles (e.after a).pool := by
  cases a with
  | start clock =>
    have hdown : e.pool.start.2 = e.pool := by
      rcases h with hstart | hdown
      · cases hstart
      · rw [Pool.start_of_interrupted hdown]
    have hsame : (e.after (.start clock)).pool = e.pool := hdown
    rw [hsame]
    exact .refl _
  | shutdown clock => exact (shutdown_spec clock e).1
  | shutdownNow => exact ⟨rfl, rfl, Nat.le_of_eq e.pool.unfinished_shutdownNow⟩
  | turn r now => exact (goesOn_poll r now e).pool
  | pause | resume | around => exact ⟨rfl, rfl, Nat.le_refl _⟩

/-- A pool that is down stays down. -/
theorem dwindles_afterAll (h : e.pool.control.interrupted = true) (acts : List Act) :
    e.pool.Dwindles (e.afterAll acts).pool := by
  induction acts generalizing e with
  | nil => exact .refl _
  | cons a rest ih =>
    have hafter : (e.after a).pool.control.interrupted = true := by
      rw [interrupted_after, h, Bool.true_or]
    exact (dwindles_after (.inr h)).trans (ih hafter)

/-- Only a start sets the scheduler running, and a shutdown stops it. -/
theorem running_after {a : Act} (ha : a.isStart = false)
    (h : (e.after a).scheduler.isRunning = true) :
    a.isShutdown = false ∧ e.scheduler.isRunning = true := by
  cases a with
  | start clock => cases ha
  | shutdown clock => cases h.symm.trans (shutdown_spec clock e).2.2.1
  | shutdownNow => cases h.symm.trans e.scheduler.isRunning_stop
  | turn r now => exact ⟨rfl, (goesOn_poll r now e).running h⟩
  | pause | resume | around => exact ⟨rfl, h⟩

theorem running_afterAll {acts : List Act} (hacts : ∀ a ∈ acts, a.isStart = false)
    (h : (e.afterAll acts).scheduler.isRunning = true) : e.scheduler.isRunning = true := by
  induction acts generalizing e with
  | nil => exact h
  | cons a rest ih =>
    have hafter := ih (fun b hb => hacts b (List.mem_cons_of_mem _ hb)) h
    exact (running_after (hacts a List.mem_cons_self) hafter).2

/-- A scheduler that is running has workers beside it: the pool was started, and not shut down. -/
def Served (e : Engine) : Prop :=
  e.scheduler.isRunning = true → e.pool.started = true ∧ e.pool.control.interrupted = false

theorem served_after (h : e.Served) (hopen : e.pool.control.interrupted = false) {a : Act}
    (ha : a.isShutdown = false) : (e.after a).Served := by
  intro hrunning
  have hstill : (e.after a).pool.control.interrupted = false := by
    rw [interrupted_after, hopen, ha]
    rfl
  refine ⟨?_, hstill⟩
  cases hstart : a.isStart with
  | true =>
    cases a with
    | start clock => exact Pool.started_start hopen
    | _ => cases hstart
  | false =>
    rw [(dwindles_after (.inl hstart)).started]
    exact (h (running_after hstart hrunning).2).1

theorem served_afterAll (h : e.Served) (hopen : e.pool.control.interrupted = false)
    {acts : List Act} (hacts : isRestart acts = false) : (e.afterAll acts).Served := by
  induction acts generalizing e with
  | nil => exact h
  | cons a rest ih =>
    rw [isRestart, Bool.or_eq_false_iff] at hacts
    cases hshut : a.isShutdown with
    | false =>
      refine ih (served_after h hopen hshut) ?_ hacts.2
      rw [interrupted_after, hopen, hshut]
      rfl
    | true =>
      intro hrunning
      rw [hshut, Bool.true_and, List.any_eq_false] at hacts
      have hafter := running_afterAll (fun b hb => Bool.eq_false_iff.2 (hacts.1 b hb)) hrunning
      have hstart : a.isStart = false := by
        cases a with
        | start clock => cases hshut
        | _ => rfl
      cases hshut.symm.trans (running_after hstart hafter).1

/-! ## Built engines -/

/-- An engine that was built has a slot at least, and nothing of it runs. -/
theorem of_build {config : EngineConfig} {parts : EngineParts} (h : build config parts = .ok e) :
    0 < config.polling.concurrency ∧ e.pool.Sound config.polling.concurrency [] ∧
      e.pool.control.interrupted = false ∧ e.scheduler.isRunning = false := by
  obtain ⟨⟨⟩, hvalid, h⟩ := bind_eq_ok.1 h
  cases hstorage : parts.storage with
  | none =>
    rw [hstorage] at h
    cases h
  | some backend =>
    rw [hstorage] at h
    obtain ⟨settings, -, h⟩ := bind_eq_ok.1 h
    obtain ⟨retries, -, h⟩ := bind_eq_ok.1 h
    obtain ⟨retention, -, h⟩ := bind_eq_ok.1 h
    have he := Except.ok.inj h
    have hfresh :
        PoolScene.Fresh config.polling.concurrency { pool := e.pool, state := e.state } := by
      rw [← he]
      exact ⟨rfl, rfl, rfl, rfl, rfl, rfl, rfl, rfl, rfl⟩
    have hslots := (EngineConfig.validate_eq_ok_iff.1 hvalid).concurrency
    exact ⟨hslots, hfresh.sound, hfresh.interrupted, by rw [← he]; rfl⟩

/-! ## All runs -/

/-- Take any engine that was built, and start it, pause it, resume it and shut it down in any order,
while its parts are carried on in between. If no start comes after a shutdown, the pool was started
and is not shut down whenever the scheduler is running. Before the first shutdown, a start sets the
scheduler running, fills every slot, and says whether it did either. After a shutdown, a start sets
the scheduler running, says whether it was not, and leaves the pool down: no worker is spawned then,
nor ever later. -/
theorem started_after_shutdown_has_no_workers {config : EngineConfig} {parts : EngineParts}
    (h : build config parts = .ok e) (acts : List Act) :
    let f := e.afterAll acts
    (isRestart acts = false → f.scheduler.isRunning = true →
      f.pool.started = true ∧ f.pool.control.interrupted = false) ∧
    ((∀ a ∈ acts, a.isShutdown = false) → ∀ clock, let g := f.after (.start clock)
      ((f.start clock).1 = true ↔
        f.scheduler.isRunning = false ∨ f.pool.unfinished < config.polling.concurrency) ∧
      g.scheduler.isRunning = true ∧ g.pool.started = true ∧
      g.pool.unfinished = config.polling.concurrency) ∧
    ((∃ a ∈ acts, a.isShutdown = true) → ∀ clock, let g := f.after (.start clock)
      ((f.start clock).1 = true ↔ f.scheduler.isRunning = false) ∧
      g.scheduler.isRunning = true ∧ g.pool = f.pool ∧ g.pool.control.interrupted = true ∧
      ∀ later, (g.afterAll later).pool.spawned = f.pool.spawned ∧
        (g.afterAll later).pool.unfinished ≤ f.pool.unfinished) := by
  intro f
  obtain ⟨hn, hsound, hopen, hidle⟩ := of_build h
  have hdown := interrupted_afterAll e acts
  rw [hopen, Bool.false_or] at hdown
  have hbegins (clock : VirtualTime EngineTask) :
      (f.scheduler.start clock.now).1 = !f.scheduler.isRunning := by
    cases hrunning : f.scheduler.isRunning with
    | true => rw [Scheduler.start_of_running hrunning]; rfl
    | false => rw [Scheduler.start_of_not_running hrunning]; rfl
  refine ⟨fun hacts => ?served, fun hnone clock => ?serving, fun hsome clock => ?down⟩
  case served =>
    have hserved : e.Served := fun hrunning => by
      rw [hidle] at hrunning
      cases hrunning
    exact served_afterAll hserved hopen hacts
  case serving =>
    have hup : f.pool.control.interrupted = false := by
      rw [hdown, List.any_eq_false]
      simpa using hnone
    have hafter := sound_afterAll hn hsound acts
    have hslots : f.pool.config.concurrency = config.polling.concurrency := hafter.concurrency
    obtain ⟨hfull, hempty⟩ := Pool.unfinished_start (hafter.serving hup).2 hup (hslots ▸ hafter.few)
    refine ⟨?_, f.scheduler.isRunning_start clock.now, Pool.started_start hup, hfull.trans hslots⟩
    rw [← hslots, ← hempty, ← Bool.not_eq_true', ← hbegins clock]
    exact Bool.or_eq_true_iff
  case down =>
    have hshut : f.pool.control.interrupted = true := by
      rw [hdown, List.any_eq_true]
      exact hsome
    have hpool : (f.after (.start clock)).pool = f.pool :=
      congrArg Prod.snd (Pool.start_of_interrupted hshut)
    have hanswer : (f.start clock).1 = !f.scheduler.isRunning := by
      change ((f.scheduler.start clock.now).1 || f.pool.start.1) = _
      rw [hbegins, Pool.start_of_interrupted hshut, Bool.or_false]
    refine ⟨by rw [hanswer, Bool.not_eq_true'], f.scheduler.isRunning_start clock.now, hpool,
      hpool ▸ hshut, fun later => ?_⟩
    have hlater := dwindles_afterAll (e := f.after (.start clock)) (hpool ▸ hshut) later
    rw [hpool] at hlater
    exact ⟨hlater.spawned, hlater.unfinished⟩

/-- Settings for an engine of two workers. -/
def pairConfig : EngineConfig where
  polling := { concurrency := 2 }
  retry := { defaultStrategy := "linear" }
  retention := { period := "" }
  logging := { level := "info" }

/-- A storage without jobs. -/
def pairParts : EngineParts where
  storage := some {}
  now := .epoch

/-- The first start fills both slots; a start after an abrupt shutdown fills none, and none is
filled later. -/
theorem pair_switched : ∃ e, build pairConfig pairParts = .ok e ∧ (e.start {}).1 = true ∧
    (e.after (.start {})).pool.unfinished = 2 ∧
    ∀ later,
      (((e.afterAll [.start {}, .shutdownNow]).after (.start {})).afterAll later).pool.spawned =
        (e.afterAll [.start {}, .shutdownNow]).pool.spawned := by
  have hbuilt : (build pairConfig pairParts).isOk = true := by decide +kernel
  cases h : build pairConfig pairParts with
  | error err =>
    rw [h] at hbuilt
    cases hbuilt
  | ok e =>
    obtain ⟨-, hserving, -⟩ := started_after_shutdown_has_no_workers h []
    obtain ⟨hanswer, -, -, hfull⟩ := hserving (by simp) {}
    obtain ⟨-, -, hdown⟩ := started_after_shutdown_has_no_workers h [.start {}, .shutdownNow]
    obtain ⟨-, -, -, -, hlater⟩ := hdown ⟨.shutdownNow, by simp, rfl⟩ {}
    exact ⟨e, rfl, hanswer.2 (.inl (of_build h).2.2.2), hfull, fun later => (hlater later).1⟩

/-- The engine is started, shut down, and started again. -/
def restarted (e : Engine) : Bool × Engine :=
  let (_, clock, e) := e.start {}
  let (_, clock, e) := e.shutdown clock
  let (begun, _, e) := e.start clock
  (begun, e)

/-- The second start answers that it began something. The scheduler is running, the pool is down and
none of its workers is left. -/
theorem restarted_without_workers :
    (build pairConfig pairParts).toOption.any (fun e =>
      let (begun, e) := e.restarted
      begun && e.scheduler.isRunning && e.pool.control.interrupted && e.pool.unfinished == 0) := by
  decide +kernel

end Engine

end JobEngine
