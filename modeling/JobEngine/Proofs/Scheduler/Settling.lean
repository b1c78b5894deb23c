-- SUMMARY: At a fixed time, two ticks of the maintenance leave it nothing to do.
import JobEngine.Proofs.Engine.Idle
import JobEngine.Scheduler.Tick

/-!
# Settling

What a maintenance command leaves behind can only be work for an earlier command of the list: fired
definitions and reclaimed jobs wait for the enqueue command, and nothing makes work for the cron,
janitor and delete commands. So after one tick only the enqueue command has work left, and after two
ticks none has. From then on a tick changes nothing and tells nothing.
-/

namespace JobEngine

/-! ## Ticks -/

/-- A command that goes through hands its state to the rest of the tick, and no time passes. -/
theorem Command.run_cons {ω : Type} {report : MetricsSink ω} {name : String}
    {f : ω → Except EngineError Unit × ω} {rest : List (Command ω)} {s t : ω}
    (h : f s = (.ok (), t)) (elapsed now : Nat) (k : Unit × Nat → Activity ω Unit) :
    (((runAll report (ofStep name f :: rest)).timed elapsed).bind k).run now s =
      (((runAll report rest).timed elapsed).bind k).run now t := by
  change (((runAll report rest).timed elapsed).bind k).run now
    ((if failed (.done (f s).1) then report (·.recordCommandError name) else id) (f s).2) = _
  rw [h]
  rfl

namespace EngineState

variable {s t : EngineState} {batch : Nat} {retention : Option Duration}

/-- One tick of the maintenance: how it ends, and the engine after it. -/
def tick (batch : Nat) (retention : Option Duration) (s : EngineState) :
    Option (Ending Unit × Nat) × EngineState :=
  (Command.tick report (Command.maintenance batch retention)).run 0 s

/-- The engine after a number of ticks. -/
def afterTicks (batch : Nat) (retention : Option Duration) (s : EngineState) : Nat → EngineState
  | 0 => s
  | n + 1 => (tick batch retention (afterTicks batch retention s n)).2

/-- A tick whose commands go through runs them one after another and then reports its time. -/
theorem tick_eq {s₁ s₂ s₃ s₄ : EngineState} (enqueue : s.enqueueDue = (.ok (), s₁))
    (cron : s₁.fireDueCrons = (.ok (), s₂)) (janitor : rescueStale batch s₂ = (.ok (), s₃))
    (delete : deleteExpired retention s₃ = (.ok (), s₄)) :
    tick batch retention s =
      (some (.done (), 0), report (·.recordTick (.ofMillis 0)) s₄) := by
  unfold tick Command.tick Command.maintenance
  rw [Command.run_cons enqueue, Command.run_cons cron, Command.run_cons janitor,
    Command.run_cons delete]
  rfl

/-- The enqueue command may have work left, the others have none. -/
structure Cleared (retention : Option Duration) (s : EngineState) : Prop where
  serving : s.Serving
  filed : s.store.Filed
  cronsFiled : s.store.CronsFiled
  noneMovable : s.store.NoneMovable s.now
  noneStale : s.store.NoneStale s.now
  noneExpired : s.store.NoneExpired s.now retention

theorem Cleared.report (h : Cleared retention s) (f : Metrics → Metrics) :
    Cleared retention (EngineState.report f s) :=
  ⟨⟨h.serving.available, h.serving.faultless, h.serving.closed⟩, h.filed, h.cronsFiled,
    h.noneMovable, h.noneStale, h.noneExpired⟩

theorem Cleared.of_idle (h : Cleared retention s) (hsteady : Steady s t) (hidle : Idle s t) :
    Cleared retention t := by
  refine ⟨hsteady.serving, ?_, ?_, ?_, ?_, ?_⟩
  · rw [hidle.store]
    exact h.filed
  · rw [hidle.store]
    exact h.cronsFiled
  · rw [hidle.store, hsteady.now]
    exact h.noneMovable
  · rw [hidle.store, hsteady.now]
    exact h.noneStale
  · rw [hidle.store, hsteady.now]
    exact h.noneExpired

/-- Ready jobs are no work for the other commands. -/
theorem Cleared.enqueueDue (h : Cleared retention s) :
    ∃ t, s.enqueueDue = (.ok (), t) ∧ Steady s t ∧ Cleared retention t ∧
      t.store.NoneDue t.now ∧ (s.store.NoneDue s.now → Idle s t) := by
  obtain ⟨t, ht, hsteady, hstore, -⟩ := h.serving.enqueueDue
  have hcrons : t.store.crons = s.store.crons := by
    rw [hstore]
    rfl
  refine ⟨t, ht, hsteady, ⟨hsteady.serving, ?_, ?_, ?_, ?_, ?_⟩, ?_, ?_⟩
  · rw [hstore]
    exact h.filed.enqueueJobs
  · exact h.cronsFiled.of_crons_eq hcrons
  · rw [hsteady.now]
    exact h.noneMovable.of_crons_eq hcrons
  · rw [hstore, hsteady.now]
    exact h.noneStale.of_enqueueJobs
  · rw [hstore, hsteady.now]
    exact h.noneExpired.of_enqueueJobs
  · rw [hstore, hsteady.now]
    exact s.store.noneDue_enqueueJobs s.now
  · intro hnone
    obtain ⟨u, hu, -, hidle⟩ := h.serving.enqueueDue_idle hnone
    obtain ⟨-, rfl⟩ := Prod.mk.inj (ht.symm.trans hu)
    exact hidle

/-- A tick clears the work of every command but the first. -/
theorem Serving.tick_clears (h : s.Serving) (hjobs : s.store.Filed) (hcrons : s.store.CronsFiled)
    (batch : Nat) (retention : Option Duration) :
    ∃ t, tick batch retention s = (some (.done (), 0), t) ∧ t.now = s.now ∧ Cleared retention t := by
  obtain ⟨s₁, enqueue, steady₁, hstore₁, -⟩ := h.enqueueDue
  have filed₁ : s₁.store.Filed := hstore₁ ▸ hjobs.enqueueJobs
  have cronsFiled₁ : s₁.store.CronsFiled := hcrons.of_crons_eq (by rw [hstore₁]; rfl)
  obtain ⟨s₂, cron, steady₂, filed₂, cronsFiled₂, noneMovable₂⟩ :=
    steady₁.serving.fireDueCrons_clears filed₁ cronsFiled₁
  obtain ⟨s₃, janitor, steady₃, filed₃, crons₃, noneStale₃⟩ :=
    steady₂.serving.rescueStale_clears filed₂ batch
  obtain ⟨s₄, delete, steady₄, filed₄, crons₄, noneStale₄, noneExpired₄⟩ :=
    steady₃.serving.deleteExpired_clears filed₃ noneStale₃ retention
  have hsame : s₄.store.crons = s₂.store.crons := crons₄.trans crons₃
  have cleared : Cleared retention s₄ := by
    refine ⟨steady₄.serving, filed₄, cronsFiled₂.of_crons_eq hsame, ?_, noneStale₄, noneExpired₄⟩
    rw [(steady₃.trans steady₄).now]
    exact noneMovable₂.of_crons_eq hsame
  have hnow : s₄.now = s.now := ((steady₁.trans steady₂).trans (steady₃.trans steady₄)).now
  exact ⟨_, tick_eq enqueue cron janitor delete, hnow, cleared.report _⟩

/-- Once the other commands have no work left, a tick makes the due jobs ready and does nothing
else. -/
theorem Cleared.tick (h : Cleared retention s) (batch : Nat) :
    ∃ t, EngineState.tick batch retention s = (some (.done (), 0), t) ∧ t.now = s.now ∧
      Cleared retention t ∧ t.store.NoneDue t.now ∧ (s.store.NoneDue s.now → Idle s t) := by
  obtain ⟨s₁, enqueue, steady₁, cleared₁, hnone, hidle⟩ := h.enqueueDue
  obtain ⟨s₂, cron, steady₂, idle₂⟩ :=
    cleared₁.serving.fireDueCrons_idle cleared₁.cronsFiled cleared₁.noneMovable
  have cleared₂ := cleared₁.of_idle steady₂ idle₂
  obtain ⟨s₃, janitor, steady₃, idle₃⟩ :=
    cleared₂.serving.rescueStale_idle cleared₂.filed cleared₂.noneStale batch
  have cleared₃ := cleared₂.of_idle steady₃ idle₃
  obtain ⟨s₄, delete, steady₄, idle₄⟩ := cleared₃.serving.deleteExpired_idle cleared₃.noneExpired
  have steady := (steady₂.trans steady₃).trans steady₄
  have idle := (idle₂.trans idle₃).trans idle₄
  refine ⟨_, tick_eq enqueue cron janitor delete, (steady₁.trans steady).now,
    (cleared₃.of_idle steady₄ idle₄).report _, ?_, ?_⟩
  · change s₄.store.NoneDue s₄.now
    rw [idle.store, steady.now]
    exact hnone
  · intro hdue
    obtain ⟨hstore, hevents⟩ := (hidle hdue).trans idle
    exact ⟨hstore, hevents⟩

/-! ## Runs of ticks -/

section Run

variable (h : s.Serving) (hjobs : s.store.Filed) (hcrons : s.store.CronsFiled) (batch : Nat)
  (retention : Option Duration)

include h hjobs hcrons

theorem cleared_afterTicks (n : Nat) :
    (afterTicks batch retention s (n + 1)).now = s.now ∧
      Cleared retention (afterTicks batch retention s (n + 1)) := by
  induction n with
  | zero =>
    obtain ⟨t, ht, hnow, hcleared⟩ := h.tick_clears hjobs hcrons batch retention
    have hafter : afterTicks batch retention s 1 = t := congrArg Prod.snd ht
    rw [hafter]
    exact ⟨hnow, hcleared⟩
  | succ n ih =>
    obtain ⟨t, ht, hnow, hcleared, -⟩ := ih.2.tick batch
    have hafter : afterTicks batch retention s (n + 2) = t := congrArg Prod.snd ht
    rw [hafter]
    exact ⟨hnow.trans ih.1, hcleared⟩

theorem noneDue_afterTicks (n : Nat) :
    (afterTicks batch retention s (n + 2)).store.NoneDue
      (afterTicks batch retention s (n + 2)).now := by
  obtain ⟨-, hcleared⟩ := cleared_afterTicks h hjobs hcrons batch retention n
  obtain ⟨t, ht, -, -, hnone, -⟩ := hcleared.tick batch
  have hafter : afterTicks batch retention s (n + 2) = t := congrArg Prod.snd ht
  rw [hafter]
  exact hnone

end Run

/-- While nothing fails and time stands still, every tick goes through. After two of them no waiting
job is due, no attempt is lost, no job finished before the retention period, and no definition that
is due has a next run; and every further tick changes nothing and tells nothing. -/
theorem maintenance_settles (h : s.Serving) (hjobs : s.store.Filed) (hcrons : s.store.CronsFiled)
    (batch : Nat) (retention : Option Duration) :
    (∀ n, (tick batch retention (afterTicks batch retention s n)).1 = some (.done (), 0)) ∧
    (∀ id j, (afterTicks batch retention s 2).store.job? id = some j →
      ¬ (j.state.isAwaiting ∧ j.isDue s.now) ∧ ¬ j.isStale s.now ∧
      ∀ period finished, retention = some period → j.state.isTerminal →
        j.finishedAt = some finished → s.now.nanos ≤ finished.nanos + period.nanos) ∧
    (∀ id c, (afterTicks batch retention s 2).store.cron? id = some c → c.isDue s.now →
      ∃ e, Cron.nextFireAfter c.expression s.now = .error e) ∧
    ∀ n, 2 ≤ n →
      (afterTicks batch retention s (n + 1)).store = (afterTicks batch retention s n).store ∧
      (afterTicks batch retention s (n + 1)).events = (afterTicks batch retention s n).events := by
  obtain ⟨hnow, hcleared⟩ := cleared_afterTicks h hjobs hcrons batch retention 1
  refine ⟨fun n => ?_, fun id j hj => ⟨?_, ?_, ?_⟩, fun id c hc hdue => ?_, fun n hn => ?_⟩
  · cases n with
    | zero =>
      obtain ⟨t, ht, -⟩ := h.tick_clears hjobs hcrons batch retention
      exact congrArg Prod.fst ht
    | succ n =>
      obtain ⟨t, ht, -⟩ := (cleared_afterTicks h hjobs hcrons batch retention n).2.tick batch
      exact congrArg Prod.fst ht
  · rintro ⟨hwaits, hdue⟩
    have hnone := noneDue_afterTicks h hjobs hcrons batch retention 0 id j hj
    rw [hnow] at hnone
    simp only [Job.isPromotable, hwaits, hdue, Bool.and_self, Bool.true_eq_false] at hnone
  · have hnone := hcleared.noneStale id j hj
    rw [hnow] at hnone
    simp only [hnone, Bool.false_eq_true, not_false_eq_true]
  · intro period finished hperiod hterminal hfinished
    have hnone := hcleared.noneExpired period hperiod id j hj
    simp only [Job.isExpired, hterminal, hfinished, Bool.true_and, decide_eq_false_iff_not, hnow,
      Instant.lt_sub_iff] at hnone
    omega
  · have hnone := hcleared.noneMovable id c hc
    rw [hnow] at hnone
    cases hnext : Cron.nextFireAfter c.expression s.now with
    | error e => exact ⟨e, rfl⟩
    | ok next =>
      rw [CronDefinition.movedOn?_of_ok hnext] at hnone
      cases hnone hdue
  · obtain ⟨k, rfl⟩ : ∃ k, n = k + 2 := ⟨n - 2, by omega⟩
    obtain ⟨-, hcleared'⟩ := cleared_afterTicks h hjobs hcrons batch retention (k + 1)
    have hnone := noneDue_afterTicks h hjobs hcrons batch retention k
    obtain ⟨t, ht, -, -, -, hidle⟩ := hcleared'.tick batch
    have hafter : afterTicks batch retention s (k + 3) = t := congrArg Prod.snd ht
    rw [hafter]
    exact ⟨(hidle hnone).store, (hidle hnone).events⟩

/-! ## A neglected engine -/

/-- A definition is due, one job's attempt is lost, and another job finished long ago. -/
def neglected : EngineState where
  now := .ofMillis 1000000
  backend := {
    store := ((Store.saveCron {} minutely).saveJob
      { loneJob.execute .epoch with id := Uuid.ofNat 2 }).saveJob
      { loneJob.complete .epoch with id := Uuid.ofNat 3 }
    nextId := 1000 }
  breaker := { name := "storage", settings := .default }

theorem neglected_settles :
    (afterTicks 1 (some (.ofSecs 500)) neglected 1).events.map EngineEvent.name =
      ["cron.scheduled", "job.rescued", "jobs.deleted"] ∧
    (∀ id j, (afterTicks 1 (some (.ofSecs 500)) neglected 2).store.job? id = some j →
      ¬ (j.state.isAwaiting ∧ j.isDue neglected.now)) ∧
    (afterTicks 1 (some (.ofSecs 500)) neglected 3).store =
      (afterTicks 1 (some (.ofSecs 500)) neglected 2).store ∧
    (afterTicks 1 (some (.ofSecs 500)) neglected 3).events =
      (afterTicks 1 (some (.ofSecs 500)) neglected 2).events := by
  have hfaultless : neglected.backend.Faultless := fun _ hfault => by cases hfault
  have hserving : neglected.Serving := ⟨rfl, hfaultless, rfl⟩
  have hjobs : neglected.store.Filed :=
    Store.Filed.saveJob (Store.Filed.saveJob fun _ _ h => by cases h)
  have hcrons : neglected.store.CronsFiled :=
    Store.CronsFiled.of_crons_eq (Store.CronsFiled.saveCron fun _ _ h => by cases h) rfl
  obtain ⟨-, hnone, -, hlater⟩ :=
    maintenance_settles hserving hjobs hcrons 1 (some (.ofSecs 500))
  exact ⟨by decide +kernel, fun id j hj => (hnone id j hj).1, hlater 2 (Nat.le_refl 2)⟩

end EngineState

end JobEngine
