-- SUMMARY: When a maintenance command finds nothing to do, and that each one leaves it so.
import JobEngine.Proofs.Cron.Schedule
import JobEngine.Proofs.Engine.Serving

/-!
# Stores without work

Each maintenance command looks for jobs or definitions of one kind. A command that finds none changes
nothing and tells nothing, and after a command has gone through, a second run of it would find none.
-/

namespace JobEngine

/-! ## Stores without work -/

namespace Store

variable {s t : Store} {now time : Instant} {retention : Option Duration}

/-- No waiting job's time has come. -/
def NoneDue (s : Store) (now : Instant) : Prop :=
  ∀ id j, s.job? id = some j → j.isPromotable now = false

/-- No job's attempt is lost. -/
def NoneStale (s : Store) (now : Instant) : Prop :=
  ∀ id j, s.job? id = some j → j.isStale now = false

/-- No job finished before the retention period. -/
def NoneExpired (s : Store) (now : Instant) (retention : Option Duration) : Prop :=
  ∀ period, retention = some period →
    ∀ id j, s.job? id = some j → j.isExpired (now.sub period) = false

/-- No due definition can be moved on. -/
def NoneMovable (s : Store) (now : Instant) : Prop :=
  ∀ id c, s.cron? id = some c → c.isDue now → c.movedOn? now = none

-- Enqueue

theorem noneDue_enqueueJobs (s : Store) (now : Instant) : (s.enqueueJobs now).2.NoneDue now := by
  intro id k hk
  rw [job?_enqueueJobs] at hk
  obtain ⟨j, -, rfl⟩ := Option.map_eq_some_iff.1 hk
  split
  · rfl
  · rename_i hnot
    simpa using hnot

/-- Without due jobs, the enqueue operation answers none and changes nothing. -/
theorem NoneDue.enqueueJobs (h : s.NoneDue now) : s.enqueueJobs now = ([], s) := by
  have hnone : s.jobs.values.filter (·.isPromotable now) = [] := by
    rw [List.filter_eq_nil_iff]
    intro j hj hdue
    obtain ⟨id, hid⟩ := Table.mem_values.1 hj
    rw [h id j hid] at hdue
    cases hdue
  have hjobs : (s.jobs.mapValues fun j => if j.isPromotable now then j.enqueue else j) = s.jobs := by
    apply Table.ext_get?
    intro id
    rw [Table.get?_mapValues]
    cases hj : s.jobs.get? id with
    | none => rfl
    | some j =>
      have hnot := h id j hj
      rw [Option.map_some, hnot]
      rfl
  simp only [Store.enqueueJobs, hnone, hjobs, Job.byAge, List.map_nil, List.mergeSort_nil]

theorem NoneStale.of_enqueueJobs (h : s.NoneStale now) : (s.enqueueJobs now).2.NoneStale now := by
  intro id k hk
  rw [job?_enqueueJobs] at hk
  obtain ⟨j, hj, rfl⟩ := Option.map_eq_some_iff.1 hk
  split
  · simp [Job.isStale, Job.enqueue]
  · exact h id j hj

theorem NoneExpired.of_enqueueJobs (h : s.NoneExpired now retention) :
    (s.enqueueJobs time).2.NoneExpired now retention := by
  intro period hperiod id k hk
  rw [job?_enqueueJobs] at hk
  obtain ⟨j, hj, rfl⟩ := Option.map_eq_some_iff.1 hk
  split
  · simp [Job.isExpired, Job.enqueue, JobState.isTerminal]
  · exact h period hperiod id j hj

-- Cron

theorem NoneMovable.of_crons_eq (h : s.NoneMovable now) (hcrons : t.crons = s.crons) :
    t.NoneMovable now := by
  intro id c hc
  rw [cron?, hcrons] at hc
  exact h id c hc

theorem CronsFiled.of_crons_eq (h : s.CronsFiled) (hcrons : t.crons = s.crons) : t.CronsFiled := by
  intro id c hc
  rw [cron?, hcrons] at hc
  exact h id c hc

theorem NoneMovable.movable (h : s.NoneMovable now) (hf : s.CronsFiled) : s.movable now = [] := by
  rw [List.eq_nil_iff_forall_not_mem]
  intro c' hc'
  obtain ⟨c, hc, hdue, hmoved⟩ := hf.mem_movable.1 hc'
  rw [h _ c hc hdue] at hmoved
  cases hmoved

/-- A definition that fired is not due again at the same time. -/
theorem CronsFiled.noneMovable_fire (hf : s.CronsFiled) (n : Nat) :
    (s.fire (Firing.ofList now n (s.movable now))).NoneMovable now := by
  intro id c hc hdue
  have hids : ((Firing.ofList now n (s.movable now)).map (·.1.id)).Nodup := by
    rw [Firing.map_id_ofList]
    exact hf.movable_ids_nodup now
  by_cases hmem : id ∈ (Firing.ofList now n (s.movable now)).map (·.1.id)
  · obtain ⟨f, hfiring, rfl⟩ := List.mem_map.1 hmem
    rw [cron?_fire_of_mem hids hfiring] at hc
    obtain rfl := Option.some.inj hc
    have hmovable : f.1 ∈ s.movable now := by
      rw [← Firing.map_fst_ofList now n (s.movable now)]
      exact List.mem_map_of_mem hfiring
    obtain ⟨before, -, -, hmoved⟩ := hf.mem_movable.1 hmovable
    obtain ⟨next, hnext, hafter⟩ := CronDefinition.movedOn?_eq_some.1 hmoved
    have hlater : now.nanos < next.nanos := Cron.lt_nextFireAfter hnext
    simp only [hafter, CronDefinition.isDue, Bool.and_eq_true, decide_eq_true_eq] at hdue
    exact absurd hlater (Int.not_lt.2 hdue.2)
  · rw [cron?_fire_of_not_mem hmem] at hc
    cases hmoved : c.movedOn? now with
    | none => rfl
    | some c' =>
      have hid : c'.id = id := (CronDefinition.id_movedOn hmoved).trans (hf id c hc)
      have hmovable : c' ∈ s.movable now := hf.mem_movable.2 ⟨c, by rwa [hid], hdue, hmoved⟩
      rw [Firing.map_id_ofList] at hmem
      exact absurd (List.mem_map.2 ⟨c', hmovable, hid⟩) hmem

-- Janitor

theorem Filed.noneStale_iff (hf : s.Filed) : s.NoneStale now ↔ s.stale now = [] := by
  rw [List.eq_nil_iff_forall_not_mem]
  constructor
  · intro h j hj
    obtain ⟨hstored, hstale⟩ := hf.mem_stale.1 hj
    rw [h _ j hstored] at hstale
    cases hstale
  · intro h id j hj
    rw [Bool.eq_false_iff]
    intro hstale
    refine h j (hf.mem_stale.2 ⟨?_, hstale⟩)
    rwa [hf id j hj]

theorem Filed.noneStale_reclaim (hf : s.Filed) : (s.reclaim now (s.stale now)).NoneStale now := by
  rw [hf.reclaim.noneStale_iff]
  exact hf.stale_reclaim (List.append_nil _).symm

-- Delete

theorem crons_deleteJobs (s : Store) (time : Instant) : (s.deleteJobs time).2.crons = s.crons := by
  simp only [deleteJobs]
  split <;> rfl

theorem NoneStale.of_deleteJobs (h : s.NoneStale now) : (s.deleteJobs time).2.NoneStale now := by
  intro id j hj
  rw [job?_deleteJobs, Option.filter_eq_some_iff] at hj
  exact h id j hj.1

theorem noneExpired_deleteJobs {period : Duration} :
    (s.deleteJobs (now.sub period)).2.NoneExpired now (some period) := by
  intro p hp id j hj
  obtain rfl := Option.some.inj hp
  rw [job?_deleteJobs, Option.filter_eq_some_iff] at hj
  simpa using hj.2

/-- Without expired jobs, the delete operation removes none and changes nothing. -/
theorem deleteJobs_of_none_expired (h : ∀ id j, s.job? id = some j → j.isExpired time = false) :
    s.deleteJobs time = (0, s) := by
  have hnone : s.jobs.values.filter (·.isExpired time) = [] := by
    rw [List.filter_eq_nil_iff]
    intro j hj hexpired
    obtain ⟨id, hid⟩ := Table.mem_values.1 hj
    rw [h id j hid] at hexpired
    cases hexpired
  simp only [deleteJobs, hnone]
  rfl

end Store

/-! ## Commands without work -/

namespace EngineState

variable {s t : EngineState} {batch : Nat} {retention : Option Duration}

/-- Nothing was stored and nothing was told. -/
structure Idle (s t : EngineState) : Prop where
  store : t.store = s.store
  events : t.events = s.events

theorem Fires.idle {now : Instant} (h : Fires now [] none s t) : Idle s t :=
  ⟨h.store, h.events.trans (List.append_nil _)⟩

theorem Sweeps.idle {now : Instant} (h : Sweeps now [] s t) : Idle s t :=
  ⟨h.store, h.events.trans (List.append_nil _)⟩

theorem Idle.trans {u : EngineState} (h : Idle s t) (h' : Idle t u) : Idle s u :=
  ⟨h'.store.trans h.store, h'.events.trans h.events⟩

theorem Serving.enqueueDue_idle (h : s.Serving) (hnone : s.store.NoneDue s.now) :
    ∃ t, s.enqueueDue = (.ok (), t) ∧ Steady s t ∧ Idle s t := by
  obtain ⟨t, ht, hsteady, hstore, hevents⟩ := h.enqueueDue
  rw [hnone.enqueueJobs] at hstore hevents
  exact ⟨t, ht, hsteady, hstore, hevents.trans (List.append_nil _)⟩

theorem Serving.fireDueCrons_idle (h : s.Serving) (hf : s.store.CronsFiled)
    (hnone : s.store.NoneMovable s.now) : ∃ t, s.fireDueCrons = (.ok (), t) ∧ Steady s t ∧ Idle s t := by
  obtain ⟨t, ht, hsteady, hfires⟩ := h.fireDueCrons
  rw [hnone.movable hf] at hfires
  exact ⟨t, ht, hsteady, hfires.idle⟩

theorem Serving.rescueStale_idle (h : s.Serving) (hf : s.store.Filed)
    (hnone : s.store.NoneStale s.now) (batch : Nat) :
    ∃ t, EngineState.rescueStale batch s = (.ok (), t) ∧ Steady s t ∧ Idle s t := by
  obtain ⟨t, ht, hsteady, hswept⟩ := h.rescueStale hf batch
  rw [hf.noneStale_iff.1 hnone] at hswept
  exact ⟨t, ht, hsteady, hswept.idle⟩

theorem Serving.deleteExpired_idle (h : s.Serving) (hnone : s.store.NoneExpired s.now retention) :
    ∃ t, EngineState.deleteExpired retention s = (.ok (), t) ∧ Steady s t ∧ Idle s t := by
  cases retention with
  | none => exact ⟨s, rfl, h.steady, rfl, rfl⟩
  | some period =>
    obtain ⟨t, ht, hsteady, hstore, hevents⟩ := h.deleteExpired period
    rw [Store.deleteJobs_of_none_expired (hnone period rfl)] at hstore hevents
    exact ⟨t, ht, hsteady, hstore, hevents.trans (List.append_nil _)⟩

/-! ## Commands that end their work -/

theorem Serving.fireDueCrons_clears (h : s.Serving) (hjobs : s.store.Filed)
    (hcrons : s.store.CronsFiled) :
    ∃ t, s.fireDueCrons = (.ok (), t) ∧ Steady s t ∧ t.store.Filed ∧ t.store.CronsFiled ∧
      t.store.NoneMovable t.now := by
  obtain ⟨t, ht, hsteady, hfires⟩ := h.fireDueCrons
  have hstore : t.store = s.store.fire _ := hfires.store
  refine ⟨t, ht, hsteady, ?_, ?_, ?_⟩
  · rw [hstore]
    exact hjobs.fire
  · rw [hstore]
    exact hcrons.fire
  · rw [hstore, hsteady.now]
    exact hcrons.noneMovable_fire _

theorem Serving.rescueStale_clears (h : s.Serving) (hjobs : s.store.Filed) (batch : Nat) :
    ∃ t, EngineState.rescueStale batch s = (.ok (), t) ∧ Steady s t ∧ t.store.Filed ∧
      t.store.crons = s.store.crons ∧ t.store.NoneStale t.now := by
  obtain ⟨t, ht, hsteady, hswept⟩ := h.rescueStale hjobs batch
  refine ⟨t, ht, hsteady, hswept.filed hjobs, ?_, ?_⟩
  · rw [hswept.store]
    exact Store.crons_reclaim _ _ _
  · rw [hswept.store, hsteady.now]
    exact hjobs.noneStale_reclaim

theorem Serving.deleteExpired_clears (h : s.Serving) (hjobs : s.store.Filed)
    (hnone : s.store.NoneStale s.now) (retention : Option Duration) :
    ∃ t, EngineState.deleteExpired retention s = (.ok (), t) ∧ Steady s t ∧ t.store.Filed ∧
      t.store.crons = s.store.crons ∧ t.store.NoneStale t.now ∧
      t.store.NoneExpired t.now retention := by
  cases retention with
  | none =>
    have hkept : s.store.NoneExpired s.now none := fun _ hperiod => by cases hperiod
    exact ⟨s, rfl, h.steady, hjobs, rfl, hnone, hkept⟩
  | some period =>
    obtain ⟨t, ht, hsteady, hstore, -⟩ := h.deleteExpired period
    refine ⟨t, ht, hsteady, ?_, ?_, ?_, ?_⟩
    · rw [hstore]
      exact hjobs.deleteJobs
    · rw [hstore, Store.crons_deleteJobs]
    · rw [hstore, hsteady.now]
      exact hnone.of_deleteJobs
    · rw [hstore, hsteady.now]
      exact Store.noneExpired_deleteJobs

end EngineState

end JobEngine
