-- SUMMARY: In every interleaving the times and the budget of a job fit its state.
import JobEngine.Proofs.Interleaving.Change

/-!
# The lifecycle of jobs

A record is coherent if the times it carries are those of its state, and if its budget covers the
retries that it waits for. Every transition of the engine keeps coherence where the engine applies
it: a pick to a ready job, an outcome to what a worker picked, a rescue to anything at all. Outdated
records may overwrite newer ones; they are coherent themselves, so every store stays coherent.
-/

namespace JobEngine

/-! ## Records -/

/-- The times of a job are those of its state, and its budget covers the retry it waits for. -/
structure Job.Coherent (j : Job) : Prop where
  /-- An active job has not ended. -/
  active : j.state.isActive → j.completedAt = none ∧ j.failedAt = none ∧ j.discardedAt = none
  completed : j.state = .completed →
    j.completedAt.isSome ∧ j.failedAt = none ∧ j.discardedAt = none
  failed : j.state = .failed → j.failedAt.isSome ∧ j.completedAt = none ∧ j.discardedAt = none
  waiting : j.state = .scheduled ∨ j.state = .enqueued ∨ j.state = .retryable →
    j.executingAt = none
  begun : j.state = .executing ∨ j.state = .completed ∨ j.state = .failed → j.executingAt.isSome
  retryable : j.state = .retryable → 1 ≤ j.retries.val ∧ j.retries ≤ j.maxRetries

/-- How clients and cron definitions build jobs: a new or derived job, perhaps put off, with the
client's own settings. -/
inductive Job.Built : Job → Prop where
  | new (id : JobId) (handler : String) (queue : Queue) (now : Instant) :
    Built (.new id handler queue now)
  | derived (c : CronDefinition) (id : JobId) (now : Instant) : Built (c.toJob id now)
  | scheduleFor {j : Job} (h : Built j) (time : Instant) : Built (j.scheduleFor time)
  | adjusted {j : Job} (h : Built j) (identifier : Option String) (data : Json)
    (retries maxRetries : Count) (timeout : Duration) (tags : TagSet) (createdAt : Instant) :
    Built { j with identifier, data, retries, maxRetries, timeout, tags, createdAt }

namespace Job

variable {j : Job} {now : Instant}

/-- A job that was just built waits or is ready, and no time of its lifecycle is set. -/
theorem Built.untouched (h : j.Built) :
    (j.state = .scheduled ∨ j.state = .enqueued) ∧ j.executingAt = none ∧ j.completedAt = none ∧
      j.failedAt = none ∧ j.discardedAt = none := by
  induction h with
  | new id handler queue now => simp [Job.new]
  | derived c id now => simp [CronDefinition.toJob]
  | scheduleFor _ time ih => exact ⟨.inl rfl, ih.2⟩
  | adjusted _ _ _ _ _ _ _ _ ih => exact ih

theorem Built.coherent (h : j.Built) : j.Coherent := by
  obtain ⟨hs | hs, hx, hc, hf, hd⟩ := h.untouched
  all_goals constructor <;> simp [hs, hx, hc, hf, hd]

theorem Coherent.enqueue (h : j.Coherent) (hw : j.state.isAwaiting) : j.enqueue.Coherent := by
  have hstate : j.state = .scheduled ∨ j.state = .retryable := by
    cases hs : j.state <;> simp_all [JobState.isAwaiting]
  have hends := h.active (by rcases hstate with hs | hs <;> rw [hs] <;> rfl)
  have hwait := h.waiting (by rcases hstate with hs | hs <;> simp [hs])
  constructor <;> simp [Job.enqueue, hends, hwait]

theorem Coherent.execute (h : j.Coherent) (hq : j.state = .enqueued) (now : Instant) :
    (j.execute now).Coherent := by
  have hends := h.active (by rw [hq]; rfl)
  constructor <;> simp [Job.execute, hends]

/-- What a worker has in hand is coherent and executing. -/
theorem Coherent.of_executing (h : j.Coherent) (he : j.state = .executing) :
    j.executingAt.isSome ∧ j.completedAt = none ∧ j.failedAt = none ∧ j.discardedAt = none :=
  ⟨h.begun (.inl he), h.active (by rw [he]; rfl)⟩

theorem Coherent.complete (h : j.Coherent) (he : j.state = .executing) (now : Instant) :
    (j.complete now).Coherent := by
  obtain ⟨hx, -⟩ := h.of_executing he
  constructor <;> simp [Job.complete, JobState.isActive, JobState.isTerminal, hx]

theorem Coherent.fail (h : j.Coherent) (he : j.state = .executing) (now : Instant) :
    (j.fail now).Coherent := by
  obtain ⟨hx, -⟩ := h.of_executing he
  constructor <;> simp [Job.fail, JobState.isActive, JobState.isTerminal, hx]

theorem one_le_succ (n : Count) : 1 ≤ n.succ.val := by
  simp only [Count.val_succ, UInt32.size]
  omega

theorem succ_le_of_lt {n m : Count} (h : n < m) : n.succ ≤ m := by
  have hlt : n.val < m.val := h
  change min (n.val + 1) _ ≤ m.val
  omega

theorem Coherent.retryAt (h : j.Coherent) (he : j.state = .executing)
    (hl : j.hasRetriesLeft = true) (next : Instant) : (j.retryAt next).Coherent := by
  obtain ⟨-, hends⟩ := h.of_executing he
  have hbudget : j.retries.succ ≤ j.maxRetries := succ_le_of_lt (hasRetriesLeft_eq_true.1 hl)
  constructor <;> simp [Job.retryAt, hends, one_le_succ, hbudget]

/-- Whatever is rescued is coherent after it. -/
theorem coherent_rescue (j : Job) (now : Instant) : (j.rescue now).Coherent := by
  have hbudget : j.retries.succ ≤
      if j.maxRetries ≤ j.retries then j.retries.succ else j.maxRetries := by
    split
    · exact Nat.le_refl _
    · rename_i hlt
      exact succ_le_of_lt (Nat.lt_of_not_le hlt)
  constructor <;> simp [Job.rescue, one_le_succ, hbudget]

end Job

/-! ## Worlds -/

namespace World

variable {x : World} {a : Act}

/-- Every record is coherent, those in the workers' hands included. -/
structure Coherent (x : World) : Prop where
  filed : x.engine.store.Filed
  stored : ∀ id j, x.job? id = some j → j.Coherent
  held : ∀ w j, x.held w = some j → j.Coherent ∧ j.state = .executing

theorem Change.coherent {id : JobId} {k : Job} (hx : x.Coherent) (h : Change x id a (some k)) :
    k.Coherent := by
  cases h with
  | picked stored ready => exact (hx.stored id _ stored).execute ready _
  | completed held _ =>
    obtain ⟨hc, he⟩ := hx.held _ _ held
    exact hc.complete he _
  | retried held _ left =>
    obtain ⟨hc, he⟩ := hx.held _ _ held
    exact hc.retryAt he left _
  | failed held _ _ =>
    obtain ⟨hc, he⟩ := hx.held _ _ held
    exact hc.fail he _
  | promoted stored due =>
    exact (hx.stored id _ stored).enqueue (Job.isAwaiting_of_isPromotable due)
  | derived hid => exact (Job.Built.derived _ id _).coherent
  | swept stored _ => exact Job.coherent_rescue _ _
  | rescued _ _ _ => exact Job.coherent_rescue _ _

theorem Coherent.after (hx : x.Coherent) (h : x.Possible a) : (x.after a).Coherent where
  filed := filed_after hx.filed h
  stored := by
    intro id k hk
    rcases job?_after hx.filed h id with hsame | ⟨r, hr, hchange⟩
    · exact hx.stored id k (hsame.symm.trans hk)
    · obtain rfl : r = some k := hr.symm.trans hk
      exact hchange.coherent hx
  held := by
    intro w k hk
    rcases held_after hx.filed hk with ⟨hbefore, -⟩ | ⟨-, j, hj, hq, rfl, -⟩
    · exact hx.held w k hbefore
    · exact ⟨(hx.stored j.id j hj).execute hq _, rfl⟩

/-- Whatever the order in which workers, cron firings, janitor runs and the other commands make
their calls, and whatever calls fail, every job is filed under its own identifier and coherent. -/
theorem jobs_coherent_of_runs {s : EngineState}
    (hbuilt : ∀ id j, s.store.job? id = some j → j.id = id ∧ j.Built) {acts : List Act}
    (h : Runs Possible (start s) acts) (id : JobId) (j : Job)
    (hj : ((start s).afterAll acts).job? id = some j) : j.id = id ∧ j.Coherent := by
  have hstart : (start s).Coherent := {
    filed := fun id j hj => (hbuilt id j hj).1
    stored := fun id j hj => (hbuilt id j hj).2.coherent
    held := fun w j hj => by cases hj }
  have hend : ((start s).afterAll acts).Coherent :=
    h.preserves (fun _ _ => Coherent.after) hstart
  exact ⟨hend.filed id j hj, hend.stored id j hj⟩

theorem overtaken_job_coherent :
    ∃ j, ((start loneEngine).afterAll overtaking).job? loneJob.id = some j ∧
      j.state = .retryable ∧ j.id = loneJob.id ∧ j.Coherent := by
  have hbuilt : ∀ id j, loneEngine.store.job? id = some j → j.id = id ∧ j.Built := by
    intro id j hj
    obtain ⟨rfl, hid⟩ := job?_loneEngine hj
    exact ⟨hid, .new _ _ _ _⟩
  have hpossible : Runs Possible (start loneEngine) overtaking :=
    overtaking_lawful.mono fun _ _ => And.left
  have hstate : (((start loneEngine).afterAll overtaking).job? loneJob.id).map Job.state =
      some .retryable := by
    decide +kernel
  obtain ⟨j, hj, hs⟩ := Option.map_eq_some_iff.1 hstate
  exact ⟨j, hj, hs, jobs_coherent_of_runs hbuilt hpossible loneJob.id j hj⟩

end World

end JobEngine
