-- SUMMARY: A tick attempts every command, whatever became of the ones before, and counts the failures.
import JobEngine.Proofs.Activity.Courses
import JobEngine.Proofs.Engine.Routines
import JobEngine.Proofs.Scheduler.Settling
import JobEngine.Proofs.Telemetry.Metrics
import JobEngine.Scheduler.Run

/-!
# Failures within a tick

A command may change the state and then fail or panic. The next command begins from what it left,
partial changes included, and the failure shows on the metrics only. This holds of every list of
commands that do not wait, and so of the maintenance of the engine, whose later commands are attempted
even when the earlier ones open the breaker.
-/

namespace JobEngine

variable {ω α β : Type}

/-! ## Work that does not wait -/

namespace Activity

variable {work : Activity ω α} {now : Nat} {s t : ω}

section Wait

variable {limit : Option Nat} {ready : ω → Bool} {next : Nat → Activity ω α}

/-- A wait that is over at once. -/
theorem poll_wait (h : ready s || limit == some 0) :
    (wait limit ready next).poll now s = (next 0).poll now s := if_pos h

theorem poll_wait_ended {e : Ending α} (h : (wait limit ready next).poll now s = (.ended e, t)) :
    (ready s || limit == some 0) ∧ (next 0).poll now s = (.ended e, t) := by
  rw [poll] at h
  split at h
  · rename_i hnow
    exact ⟨hnow, h⟩
  · cases h

end Wait

theorem poll_bind {k : α → Activity ω β} {a : α} (h : work.poll now s = (.ended (.done a), t)) :
    (work.bind k).poll now s = (k a).poll now t := by
  induction work generalizing s with
  | done b =>
    cases h
    rfl
  | panic p => cases h
  | step change next ih => exact ih s h
  | wait limit ready next ih =>
    obtain ⟨hnow, hnext⟩ := poll_wait_ended h
    exact (poll_wait hnow).trans (ih 0 hnext)

theorem poll_caught {e : Ending α} (h : work.poll now s = (.ended e, t)) :
    work.caught.poll now s = (.ended (.done e), t) := by
  induction work generalizing s with
  | done b =>
    cases h
    rfl
  | panic p =>
    cases h
    rfl
  | step change next ih => exact ih s h
  | wait limit ready next ih =>
    obtain ⟨hnow, hnext⟩ := poll_wait_ended h
    exact (poll_wait hnow).trans (ih 0 hnext)

theorem poll_timed {a : α} {elapsed : Nat} (h : work.poll now s = (.ended (.done a), t)) :
    (work.timed elapsed).poll now s = (.ended (.done (a, elapsed)), t) := by
  induction work generalizing s with
  | done b =>
    cases h
    rfl
  | panic p => cases h
  | step change next ih => exact ih s h
  | wait limit ready next ih =>
    obtain ⟨hnow, hnext⟩ := poll_wait_ended h
    exact (poll_wait hnow).trans (ih 0 hnext)

end Activity

/-! ## Passes through the commands -/

namespace Command

variable {report : MetricsSink ω} {now : Nat} {c : Command ω} {cs : List (Command ω)} {s t : ω}
  {es : List (Ending (Except EngineError Unit))}

/-- The command does not wait: it changes the state, and then it goes through, fails or panics. -/
def Prompt (c : Command ω) : Prop := ∀ now s, ∃ e t, c.run.poll now s = (.ended e, t)

/-- The commands run once each, in order. Each begins from the state that the one before it left, and
its failure is counted before the next one begins. -/
inductive Passes (report : MetricsSink ω) (now : Nat) :
    List (Command ω) → ω → List (Ending (Except EngineError Unit)) → ω → Prop where
  | nil {s : ω} : Passes report now [] s [] s
  | succeeds {c : Command ω} {rest : List (Command ω)} {s t u : ω}
    {es : List (Ending (Except EngineError Unit))}
    (run : c.run.poll now s = (.ended (.done (.ok ())), t)) (later : Passes report now rest t es u) :
    Passes report now (c :: rest) s (.done (.ok ()) :: es) u
  | fails {c : Command ω} {rest : List (Command ω)} {s t u : ω}
    {e : Ending (Except EngineError Unit)} {es : List (Ending (Except EngineError Unit))}
    (run : c.run.poll now s = (.ended e, t)) (failed : e ≠ .done (.ok ()))
    (later : Passes report now rest (report (·.recordCommandError c.name) t) es u) :
    Passes report now (c :: rest) s (e :: es) u

/-- How many commands of a name failed or panicked. -/
def failuresOf (name : String) (cs : List (Command ω))
    (es : List (Ending (Except EngineError Unit))) : Nat :=
  (cs.zip es).countP fun p => p.1.name = name && failed p.2

theorem failed_iff {e : Ending (Except EngineError Unit)} : failed e = true ↔ e ≠ .done (.ok ()) := by
  rcases e with (_ | _) | _ <;> simp [failed]

theorem prompt_ofStep (name : String) (f : ω → Except EngineError Unit × ω) :
    (ofStep name f).Prompt := fun _ s => ⟨.done (f s).1, (f s).2, rfl⟩

theorem exists_passes (hprompt : ∀ c ∈ cs, c.Prompt) (report : MetricsSink ω) (now : Nat) (s : ω) :
    ∃ es t, Passes report now cs s es t := by
  induction cs generalizing s with
  | nil => exact ⟨[], s, .nil⟩
  | cons c rest ih =>
    obtain ⟨hc, hrest⟩ := List.forall_mem_cons.1 hprompt
    obtain ⟨e, t, hrun⟩ := hc now s
    -- The induction is over every state, for the rest begins from what this command left.
    by_cases he : e = .done (.ok ())
    · subst he
      obtain ⟨es, u, hlater⟩ := ih hrest t
      exact ⟨_, u, .succeeds hrun hlater⟩
    · obtain ⟨es, u, hlater⟩ := ih hrest (report (·.recordCommandError c.name) t)
      exact ⟨_, u, .fails hrun he hlater⟩

theorem Passes.poll_runAll (h : Passes report now cs s es t) :
    (runAll report cs).poll now s = (.ended (.done ()), t) := by
  induction h with
  | nil => rfl
  | succeeds run later ih =>
    rw [runAll, Activity.poll_bind (Activity.poll_caught run)]
    exact ih
  | fails run hfailed later ih =>
    rw [runAll, Activity.poll_bind (Activity.poll_caught run)]
    simp only [failed_iff.2 hfailed, if_true]
    exact ih

theorem Passes.poll_tick (h : Passes report now cs s es t) :
    (tick report cs).poll now s = (.ended (.done ()), report (·.recordTick (.ofMillis 0)) t) := by
  rw [tick, Activity.poll_bind (Activity.poll_timed h.poll_runAll)]
  rfl

/-- The command leaves the counts of failed commands alone. -/
def Discreet (read : ω → Metrics) (c : Command ω) : Prop :=
  ∀ now s e t, c.run.poll now s = (.ended e, t) →
    ∀ name, (read t).count (.commandErrors name) = (read s).count (.commandErrors name)

/-- Every failure is counted for the command that failed, and nothing else is. -/
theorem Passes.count {read : ω → Metrics} (hread : ∀ f s, read (report f s) = f (read s))
    (hdiscreet : ∀ c ∈ cs, c.Discreet read) (h : Passes report now cs s es t) (name : String) :
    (read t).count (.commandErrors name) =
      (read s).count (.commandErrors name) + failuresOf name cs es := by
  induction h with
  | nil => rfl
  | @succeeds c rest s t u es run later ih =>
    obtain ⟨hc, hrest⟩ := List.forall_mem_cons.1 hdiscreet
    rw [ih hrest, hc now s _ t run]
    simp [failuresOf, failed]
  | @fails c rest s t u e es run hfailed later ih =>
    obtain ⟨hc, hrest⟩ := List.forall_mem_cons.1 hdiscreet
    rw [ih hrest, hread, Metrics.count_recordCommandError, hc now s _ t run]
    simp only [failuresOf, List.zip_cons_cons, List.countP_cons, failed_iff.2 hfailed, Bool.and_true,
      Counter.commandErrors.injEq, decide_eq_true_eq, @eq_comm _ name c.name]
    omega

end Command

/-! ## Ticks of a scheduler -/

/-- A task that ends as soon as it is waited for goes before all others, and nothing else happens. -/
theorem VirtualTime.wait_task {ρ σ : Type} [DecidableEq ρ] {poll : Poll ρ σ} {r : ρ}
    {x : VirtualTime ρ} {s t : σ} (hr : r ∈ x.tasks) (h : poll r x.now s = (.ended, t)) :
    x.wait poll (.task r) s = (x.remove r, t) := by
  have hturns : turns poll defaultFuel r x.now s = (.ended, t) := by
    change turns poll (999999 + 1) r x.now s = _
    rw [turns, h]
  have hvisit : x.visit poll defaultFuel r s = (x.remove r, t) := by
    rw [visit, hturns]
  have hgone : r ∉ (x.remove r).tasks := by simp [remove]
  -- The task is put in front, and the round stops with it: no other task gets a turn.
  have hround : round poll defaultFuel (some r) (inFront (some r) x.tasks) x s = (x.remove r, t) := by
    rw [inFront, if_pos hr, round, hvisit]
    exact if_pos (by simpa using hgone)
  have hreached (y : VirtualTime ρ) : (Goal.task r : Goal ρ σ).isReached y t = decide (r ∉ y.tasks) :=
    rfl
  have hwait : ((Goal.task r : Goal ρ σ).isReached x s ||
      (Goal.task r : Goal ρ σ).deadline.any (· ≤ x.now)) = false := by
    simp [Goal.isReached, Goal.deadline, hr]
  rw [wait, hwait]
  simp only [Bool.false_eq_true, if_false, Goal.awaited, hround]
  change proceed poll defaultFuel (.task r) (999999 + 1) (x.remove r) t = _
  rw [proceed, if_pos (by rw [hreached]; exact decide_eq_true hgone)]

namespace Scheduler

variable {m : Scheduler ω} {now : Nat} {s t u : ω} {es : List (Ending (Except EngineError Unit))}

/-- Every tick of the scheduler that begins at `now` from `s` leaves `u` and is counted once, the tick
that somebody asks for as well as that of a timer. -/
structure Ticks (m : Scheduler ω) (now : Nat) (s u : ω) : Prop where
  once : ∀ (x : VirtualTime SchedulerTask) (r : SchedulerRun ω), x.now = now → r.scheduler = m →
    r.single = none → r.state = s → ∃ y, r.tickOnce SchedulerRun.poll x =
      (y, { r with scheduler := { m with ticks := m.ticks + 1 }, state := u })
  timed : ∀ (ticksOnce : Bool) (i : Nat) (t : Timer ω) (due : Nat), m.timers[i]? = some t →
    t.phase = .waiting due → t.cancelled = false → due ≤ now * 1000000 →
    m.poll ticksOnce i now s =
      (.again, { m with ticks := m.ticks + 1 }.setPhase i
        (.waiting (Timer.nextDue m.interval.nanos due (now * 1000000))), u)

theorem ticks_of_passes (h : Command.Passes m.report now m.commands s es t) :
    m.Ticks now s (m.report (·.recordTick (.ofMillis 0)) t) := by
  constructor
  case once =>
    rintro x ⟨scheduler, single, state⟩ rfl rfl rfl rfl
    let tick : Suspended ω Unit := ⟨x.now, some x.now, fun _ => true, fun _ => scheduler.tick⟩
    have hpoll : SchedulerRun.poll .single x.now ⟨scheduler, some tick, state⟩ =
        (.ended, ⟨scheduler, none, scheduler.report (·.recordTick (.ofMillis 0)) t⟩) := by
      simp only [SchedulerRun.poll, Suspended.isReady, Suspended.resume, tick, Scheduler.tick,
        h.poll_tick]
      rfl
    have hmem : .single ∈ (x.spawn .single).tasks := by simp [VirtualTime.spawn]
    exact ⟨_, congrArg (fun p => (p.1, { p.2 with scheduler := p.2.scheduler.countTick }))
      (VirtualTime.wait_task hmem hpoll)⟩
  case timed =>
    intro ticksOnce i t due htimer hphase hcancelled hdue
    simp only [poll, htimer, hphase, hcancelled, hdue, Scheduler.tick, h.poll_tick]
    rfl

end Scheduler

/-! ## Maintenance -/

namespace EngineState

variable {s t u : EngineState} {now : Nat}

/-- No command was counted as failed in between. -/
def Uncounted (s t : EngineState) : Prop :=
  ∀ name, t.metrics.count (.commandErrors name) = s.metrics.count (.commandErrors name)

theorem Uncounted.refl (s : EngineState) : Uncounted s s := fun _ => rfl

theorem Uncounted.trans (h : Uncounted s t) (h' : Uncounted t u) : Uncounted s u :=
  fun name => (h' name).trans (h name)

theorem uncounted_dispatch (e : EngineEvent) (s : EngineState) : Uncounted s (s.dispatch e) :=
  fun _ => Metrics.count_recordEvent _ _ _

theorem uncounted_recordError (e : EngineError) (s : EngineState) : Uncounted s (s.recordError e) :=
  fun _ => Metrics.count_recordError _ _ _

theorem uncounted_moveBreaker (f : Breaker → Breaker) (s : EngineState) :
    Uncounted s (s.moveBreaker f) := by
  intro name
  simp only [moveBreaker]
  split
  · exact Metrics.count_recordTransition _ _ _
  · rfl

theorem uncounted_request (s : EngineState) (c : StorageCall) : Uncounted s (s.request c).2 :=
  @guarded_preserves _ Uncounted Uncounted.trans (fun s f => uncounted_moveBreaker f s)
    (fun _ _ _ _ => rfl) (fun s e => uncounted_recordError e s) s _

theorem uncounted_foldl_dispatch {α : Type} (event : α → EngineEvent) (l : List α)
    (s : EngineState) : Uncounted s (l.foldl (fun s a => s.dispatch (event a)) s) :=
  foldl_dispatch_preserves Uncounted.refl Uncounted.trans (fun s e => uncounted_dispatch e s) event l s

theorem uncounted_onAnswer {c : StorageCall} {after : c.Answer → EngineState → EngineState}
    (h : ∀ a s, Uncounted s (after a s)) (s : EngineState) :
    Uncounted s (Routine.onAnswer after (s.request c).1 (s.request c).2) := by
  refine (uncounted_request s c).trans ?_
  cases (s.request c).1 with
  | ok a => exact h a _
  | error e => exact .refl _

/-- A routine whose every step counts no command counts none on its whole way. -/
theorem uncounted_of_always {α : Type} {r : Routine α} {f : EngineState → α × EngineState}
    (h : r.work.Always Uncounted) (halone : r.work.SameAlone (.act f .done)) (s : EngineState) :
    Uncounted s (f s).2 := by
  obtain ⟨waits, hcourse⟩ := Activity.Course.of_run Uncounted.refl (halone 0 s)
  exact hcourse.preserves Uncounted.trans id Uncounted.refl h

theorem uncounted_enqueueDue (s : EngineState) : Uncounted s s.enqueueDue.2 := by
  refine uncounted_of_always (Routine.Each.always ?_) Routine.enqueueDue_alone s
  refine ⟨uncounted_onAnswer (uncounted_foldl_dispatch _), ?_⟩
  rintro (e | jobs) <;> trivial

theorem uncounted_fireDueCrons (s : EngineState) : Uncounted s s.fireDueCrons.2 := by
  refine uncounted_of_always (Routine.Each.always ?_) Routine.fireDueCrons_alone s
  exact Routine.each_fireDueCrons .refl (uncounted_onAnswer fun _ => .refl) uncounted_recordError
    (fun _ => uncounted_onAnswer fun _ => .refl)
    fun _ _ => uncounted_onAnswer fun _ => uncounted_dispatch _

theorem uncounted_rescueStale (batch : Nat) (s : EngineState) :
    Uncounted s (rescueStale batch s).2 := by
  refine uncounted_of_always (Routine.Each.always ?_) (Routine.rescueStale_alone batch) s
  exact Routine.each_rescueStale .refl (fun _ _ => uncounted_onAnswer fun _ => .refl)
    (fun _ _ => uncounted_onAnswer fun _ => uncounted_dispatch _) batch 0

theorem uncounted_deleteExpired (retention : Option Duration) (s : EngineState) :
    Uncounted s (deleteExpired retention s).2 := by
  refine uncounted_of_always (Routine.Each.always ?_) (Routine.deleteExpired_alone retention) s
  cases retention with
  | none => trivial
  | some period =>
    refine ⟨.refl, fun _ => ⟨uncounted_onAnswer fun count s => ?_, ?_⟩⟩
    · split
      · exact uncounted_dispatch _ s
      · exact .refl s
    · rintro (e | count) <;> trivial

/-- The state after a command with its result, in which a failure is counted. -/
def counted (name : String) (s : EngineState) : Except EngineError Unit → EngineState
  | .ok () => s
  | .error _ => report (·.recordCommandError name) s

end EngineState

namespace Command

variable {name : String} {f : EngineState → Except EngineError Unit × EngineState} {s t u : EngineState}

theorem Discreet.ofStep (h : ∀ s : EngineState, s.Uncounted (f s).2) :
    (Command.ofStep name f).Discreet EngineState.metrics := by
  intro now s e t hrun
  obtain rfl := (Prod.mk.inj hrun).2
  exact h s

theorem Passes.cons_ofStep {now : Nat} {rest : List (Command EngineState)}
    {es : List (Ending (Except EngineError Unit))} {r : Except EngineError Unit} (h : f s = (r, t))
    (hlater : Passes EngineState.report now rest (t.counted name r) es u) :
    Passes EngineState.report now (.ofStep name f :: rest) s (.done r :: es) u := by
  have hrun : (Command.ofStep name f).run.poll now s = (.ended (.done (f s).1), (f s).2) := rfl
  rw [h] at hrun
  cases r with
  | ok value => exact .succeeds hrun hlater
  | error e => exact .fails hrun (by simp) hlater

end Command

/-! ## Every command is attempted -/

namespace Scheduler

variable {m : Scheduler ω} {now : Nat} {s t : ω} {es : List (Ending (Except EngineError Unit))}

theorem count_tick {read : ω → Metrics} (hread : ∀ f s, read (m.report f s) = f (read s))
    (hdiscreet : ∀ c ∈ m.commands, c.Discreet read)
    (h : Command.Passes m.report now m.commands s es t) (name : String) :
    (read (m.report (·.recordTick (.ofMillis 0)) t)).count (.commandErrors name) =
      (read s).count (.commandErrors name) + Command.failuresOf name m.commands es := by
  rw [hread, Metrics.count_recordTick, h.count hread hdiscreet]

/-- A tick runs every command once, in the order of the list and each from what the one before it
left, went through, failed or panicked. It counts the commands that failed or panicked, each under
its name, and nothing else, and is counted once itself. A tick of the maintenance attempts all four
commands, whatever plans, outages and the breaker make of their storage calls. -/
theorem tick_attempts_every_command :
    (∀ {ω : Type} (m : Scheduler ω) (read : ω → Metrics),
      (∀ f s, read (m.report f s) = f (read s)) →
      (∀ c ∈ m.commands, c.Prompt) → (∀ c ∈ m.commands, c.Discreet read) →
      ∀ now s, ∃ endings t u, Command.Passes m.report now m.commands s endings t ∧
        u = m.report (·.recordTick (.ofMillis 0)) t ∧ m.Ticks now s u ∧
        ∀ name, (read u).count (.commandErrors name) =
          (read s).count (.commandErrors name) + Command.failuresOf name m.commands endings) ∧
    ∀ (m : Scheduler EngineState) (batch : Nat) (retention : Option Duration),
      m.commands = Command.maintenance batch retention → m.report = EngineState.report →
      ∀ now s, ∃ r₁ s₁ r₂ s₂ r₃ s₃ r₄ s₄ u,
        s.enqueueDue = (r₁, s₁) ∧
        (s₁.counted "enqueue" r₁).fireDueCrons = (r₂, s₂) ∧
        EngineState.rescueStale batch (s₂.counted "cron" r₂) = (r₃, s₃) ∧
        EngineState.deleteExpired retention (s₃.counted "janitor" r₃) = (r₄, s₄) ∧
        u = EngineState.report (·.recordTick (.ofMillis 0)) (s₄.counted "delete" r₄) ∧
        m.Ticks now s u ∧
        ∀ name, u.metrics.count (.commandErrors name) = s.metrics.count (.commandErrors name) +
          Command.failuresOf name m.commands [.done r₁, .done r₂, .done r₃, .done r₄] := by
  constructor
  · intro ω m read hread hprompt hdiscreet now s
    obtain ⟨endings, t, hpasses⟩ := Command.exists_passes hprompt m.report now s
    exact ⟨endings, t, _, hpasses, rfl, ticks_of_passes hpasses, count_tick hread hdiscreet hpasses⟩
  · intro m batch retention hcommands hreport now s
    rcases enqueue : s.enqueueDue with ⟨r₁, s₁⟩
    rcases cron : (s₁.counted "enqueue" r₁).fireDueCrons with ⟨r₂, s₂⟩
    rcases janitor : EngineState.rescueStale batch (s₂.counted "cron" r₂) with ⟨r₃, s₃⟩
    rcases delete : EngineState.deleteExpired retention (s₃.counted "janitor" r₃) with ⟨r₄, s₄⟩
    have hpasses : Command.Passes m.report now m.commands s [.done r₁, .done r₂, .done r₃, .done r₄]
        (s₄.counted "delete" r₄) := by
      rw [hcommands, hreport]
      exact .cons_ofStep enqueue (.cons_ofStep cron (.cons_ofStep janitor (.cons_ofStep delete .nil)))
    have hdiscreet : ∀ c ∈ m.commands, c.Discreet EngineState.metrics := by
      rw [hcommands]
      simp only [Command.maintenance, List.forall_mem_cons]
      exact ⟨.ofStep EngineState.uncounted_enqueueDue, .ofStep EngineState.uncounted_fireDueCrons,
        .ofStep (EngineState.uncounted_rescueStale batch),
        .ofStep (EngineState.uncounted_deleteExpired retention), nofun⟩
    have hticks := ticks_of_passes hpasses
    have hcount := count_tick (fun f s => by rw [hreport]; rfl) hdiscreet hpasses
    rw [hreport] at hticks hcount
    exact ⟨r₁, s₁, r₂, s₂, r₃, s₃, r₄, s₄, _, rfl, cron, janitor, delete, rfl, hticks, hcount⟩

/-! ## Commands that fail and a storage that is off -/

/-- One command fails and one panics, after each of them changed the number. -/
def unruly : Scheduler (Nat × Metrics) where
  commands := [
    .ofStep "write" fun s => (.ok (), s.1 + 1, s.2),
    .ofStep "fail" fun s => (.error (.storage "boom"), s.1 + 10, s.2),
    ⟨"crash", .modify (fun s => (s.1 * 2, s.2)) (.panic (.text "command bug"))⟩,
    .ofStep "last" fun s => (.ok (), s.1 + 100, s.2)]
  initialDelay := .zero
  interval := .ofSecs 5
  report := fun f s => (s.1, f s.2)

/-- The maintenance of the engine. -/
def upkeep : Scheduler EngineState :=
  build (Command.maintenance 1000 (some (.ofSecs 60))) .zero (.ofSecs 5) EngineState.report

/-- The storage is switched off, and one failure opens the breaker. -/
def outage : EngineState where
  now := .epoch
  backend := { available := false }
  breaker := {
    name := "storage"
    settings := { BreakerSettings.default with failures := 1, failures_pos := by decide } }

theorem unruly_and_outage_attempted :
    (∃ u, unruly.Ticks 0 (0, {}) u ∧ u.1 = (0 + 1 + 10) * 2 + 100 ∧
      (["write", "fail", "crash", "last"].map fun name => u.2.count (.commandErrors name)) =
        [0, 1, 1, 0]) ∧
    ∃ u, upkeep.Ticks 0 outage u ∧ u.breaker.kind = .opened ∧ u.breaker.totalRejected = 3 ∧
      (["enqueue", "cron", "janitor", "delete"].map fun name =>
        u.metrics.count (.commandErrors name)) = [1, 1, 1, 1] := by
  constructor
  · have hprompt : ∀ c ∈ unruly.commands, c.Prompt := by
      simp only [unruly, List.forall_mem_cons]
      exact ⟨Command.prompt_ofStep _ _, Command.prompt_ofStep _ _, fun _ s => ⟨_, _, rfl⟩,
        Command.prompt_ofStep _ _, nofun⟩
    have hdiscreet : ∀ c ∈ unruly.commands, c.Discreet Prod.snd := by
      simp only [unruly, List.forall_mem_cons]
      refine ⟨?_, ?_, ?_, ?_, nofun⟩
      all_goals
        intro now s e t hrun name
        obtain rfl := (Prod.mk.inj hrun).2
        rfl
    obtain ⟨endings, t, u, -, -, hticks, -⟩ :=
      tick_attempts_every_command.1 unruly Prod.snd (fun _ _ => rfl) hprompt hdiscreet 0 (0, {})
    obtain ⟨y, hy⟩ := hticks.once {} ⟨unruly, none, (0, {})⟩ rfl rfl rfl rfl
    obtain rfl : _ = u := congrArg (·.2.state) hy
    exact ⟨_, hticks, by decide, by decide⟩
  · obtain ⟨r₁, s₁, r₂, s₂, r₃, s₃, r₄, s₄, u, -, -, -, -, -, hticks, -⟩ :=
      tick_attempts_every_command.2 upkeep 1000 (some (.ofSecs 60)) rfl rfl 0 outage
    obtain ⟨y, hy⟩ := hticks.once {} ⟨upkeep, none, outage⟩ rfl rfl rfl rfl
    obtain rfl : _ = u := congrArg (·.2.state) hy
    exact ⟨_, hticks, by decide, by decide, by decide⟩

end Scheduler

end JobEngine
