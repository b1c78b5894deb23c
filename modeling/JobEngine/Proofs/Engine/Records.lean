-- SUMMARY: What the steps of workers and of maintenance do to the records of the store.
import JobEngine.Engine.Execution
import JobEngine.Proofs.Engine.Calls
import JobEngine.Proofs.Store.Records
import JobEngine.Scheduler.Maintenance

/-!
# Records under the engine's steps

Each step of the engine is described by what it does to the store, whatever fails on the way. A step
of a worker or of a maintenance command saves at most one job at a time; only promotion and deletion
work on several records, and a janitor run changes each record at most once.
-/

namespace JobEngine

/-! ## Transitions of a job -/

namespace Job

variable {j : Job} {now : Instant}

@[simp] theorem id_enqueue : j.enqueue.id = j.id := rfl
@[simp] theorem id_execute : (j.execute now).id = j.id := rfl
@[simp] theorem id_complete : (j.complete now).id = j.id := rfl
@[simp] theorem id_retryAt : (j.retryAt now).id = j.id := rfl
@[simp] theorem id_fail : (j.fail now).id = j.id := rfl
@[simp] theorem id_rescue : (j.rescue now).id = j.id := rfl

theorem executing_of_isStale (h : j.isStale now) : j.state = .executing := by
  by_cases hex : j.state = .executing
  · exact hex
  · simp [isStale, hex] at h

theorem isAwaiting_of_isPromotable (h : j.isPromotable now) : j.state.isAwaiting := by
  simp only [isPromotable, Bool.and_eq_true] at h
  exact h.1

theorem isTerminal_of_isExpired (h : j.isExpired now) : j.state.isTerminal := by
  simp only [isExpired, Bool.and_eq_true] at h
  exact h.1

/-! ## Counters -/

theorem hasRetriesLeft_eq_true : j.hasRetriesLeft = true ↔ j.retries.val < j.maxRetries.val := by
  simp only [hasRetriesLeft, mayRetry, decide_eq_true_eq]
  exact Iff.rfl

theorem hasRetriesLeft_eq_false_iff :
    j.hasRetriesLeft = false ↔ j.maxRetries.val ≤ j.retries.val := by
  rw [← Bool.not_eq_true, hasRetriesLeft_eq_true, Nat.not_lt]

theorem val_retries_retryAt (j : Job) (now : Instant) :
    (j.retryAt now).retries.val = min (j.retries.val + 1) (UInt32.size - 1) :=
  Count.val_succ _

theorem val_retries_rescue (j : Job) (now : Instant) :
    (j.rescue now).retries.val = min (j.retries.val + 1) (UInt32.size - 1) :=
  Count.val_succ _

theorem maxRetries_rescue_of_left (h : j.hasRetriesLeft = true) (now : Instant) :
    (j.rescue now).maxRetries = j.maxRetries := by
  have hlt := hasRetriesLeft_eq_true.1 h
  exact if_neg fun hle => absurd hlt (Nat.not_lt.2 hle)

/-- The rescue of a job whose budget is spent raises the budget to what it then charged. -/
theorem maxRetries_rescue_of_spent (h : j.hasRetriesLeft = false) (now : Instant) :
    (j.rescue now).maxRetries = (j.rescue now).retries :=
  if_pos (hasRetriesLeft_eq_false_iff.1 h)

end Job

namespace EngineState

variable {s : EngineState} {id : JobId} {j : Job}

/-! ## Workers -/

/-- A pick leaves the store alone, or it begins the attempt of a ready job and answers that job. -/
theorem pick_cases (h : s.store.Filed) :
    (∃ t, s.pick = (none, t) ∧ t.store = s.store) ∨
      ∃ j t, s.store.job? j.id = some j ∧ j.state = .enqueued ∧
        s.pick = (some (j.execute s.now), t) ∧ t.store = s.store.saveJob (j.execute s.now) := by
  rcases s.guarded_perform .pickJob (·.pickJob s.now) with ⟨e, t, ht, hs, -⟩ | ⟨t, ht, hs, -⟩
  · exact .inl ⟨t, by simp only [pick, Backend.pickJob, ht], hs⟩
  · rcases h.pickJob_cases s.now with hp | ⟨j, hj, hq, hp⟩
    · rw [hp] at ht hs
      exact .inl ⟨t, by simp only [pick, Backend.pickJob, ht], hs⟩
    · rw [hp] at ht hs
      refine .inr ⟨j, t.dispatch (.jobSelected (j.execute s.now)), hj, hq, ?_, hs⟩
      simp only [pick, Backend.pickJob, ht]

theorem filed_pick (h : s.store.Filed) : s.pick.2.store.Filed := by
  rcases pick_cases h with ⟨t, ht, hs⟩ | ⟨j, t, -, -, ht, hs⟩ <;> rw [ht, hs]
  · exact h
  · exact h.saveJob

theorem saveJob_cases (s : EngineState) (j : Job) :
    (∃ e t, s.saveJob j = (.error e, t) ∧ t.store = s.store) ∨
      ∃ t, s.saveJob j = (.ok (), t) ∧ t.store = s.store.saveJob j := by
  rcases s.guarded_perform .saveJob (fun s => ((), s.saveJob j)) with
    ⟨e, t, ht, hs, -⟩ | ⟨t, ht, hs, -⟩
  · exact .inl ⟨e, t, ht, hs⟩
  · exact .inr ⟨t, ht, hs⟩

theorem handleSuccess_store (s : EngineState) (j : Job) :
    (s.handleSuccess j).2.store = s.store ∨
      (s.handleSuccess j).2.store = s.store.saveJob (j.complete s.now) := by
  rcases s.saveJob_cases (j.complete s.now) with ⟨e, t, ht, hs⟩ | ⟨t, ht, hs⟩
  · refine .inl ?_
    simp only [handleSuccess, ht, hs]
  · refine .inr ?_
    simp only [handleSuccess, ht]
    exact hs

/-- Drawing a factor changes nothing but the dice. -/
theorem exists_dice_drawFactor (s : EngineState) (strategy : RetryStrategy) :
    ∃ dice, (s.drawFactor strategy).2 = { s with dice } := by
  cases strategy with
  | jitter => exact ⟨nextSeed s.dice, rfl⟩
  | _ => exact ⟨s.dice, rfl⟩

/-- A failed attempt may use up a random factor, and changes nothing else before it is stored. -/
theorem exists_dice_afterFailure (s : EngineState) (j : Job) (strategy : RetryStrategy) :
    ∃ dice, (s.afterFailure j strategy).2 = { s with dice } := by
  unfold afterFailure
  split
  · exact s.exists_dice_drawFactor strategy
  · exact ⟨s.dice, rfl⟩

theorem afterFailure_backend (s : EngineState) (j : Job) (strategy : RetryStrategy) :
    (s.afterFailure j strategy).2.backend = s.backend := by
  obtain ⟨dice, h⟩ := s.exists_dice_afterFailure j strategy
  rw [h]

theorem afterFailure_breaker (s : EngineState) (j : Job) (strategy : RetryStrategy) :
    (s.afterFailure j strategy).2.breaker = s.breaker := by
  obtain ⟨dice, h⟩ := s.exists_dice_afterFailure j strategy
  rw [h]

theorem afterFailure_events (s : EngineState) (j : Job) (strategy : RetryStrategy) :
    (s.afterFailure j strategy).2.events = s.events := by
  obtain ⟨dice, h⟩ := s.exists_dice_afterFailure j strategy
  rw [h]

/-- The record that a failed attempt leaves. -/
theorem afterFailure_cases (s : EngineState) (j : Job) (strategy : RetryStrategy) :
    (j.hasRetriesLeft = true ∧ ∃ next, (s.afterFailure j strategy).1 = j.retryAt next) ∨
      (j.hasRetriesLeft = false ∧ (s.afterFailure j strategy).1 = j.fail s.now) := by
  unfold afterFailure
  split
  · rename_i h
    exact .inl ⟨h, _, rfl⟩
  · rename_i h
    exact .inr ⟨by simpa using h, rfl⟩

theorem id_afterFailure (s : EngineState) (j : Job) (strategy : RetryStrategy) :
    (s.afterFailure j strategy).1.id = j.id := by
  rcases s.afterFailure_cases j strategy with ⟨-, next, h⟩ | ⟨-, h⟩ <;> rw [h] <;> rfl

theorem guarded_saveMessage_jobs (s : EngineState) (m : JobMessage) :
    (s.guarded (·.saveMessage m)).2.store.jobs = s.store.jobs := by
  rcases s.guarded_perform .saveMessage (fun s => ((), s.saveMessage m)) with
    ⟨e, t, ht, hs, -⟩ | ⟨t, ht, hs, -⟩
  · simp only [Backend.saveMessage, ht, hs]
  · simp only [Backend.saveMessage, ht, hs]
    rfl

/-- A failure cannot be applied, and the store stays as it is, or the record that the failure leaves
is saved and answered. -/
theorem handleFailure_cases (s : EngineState) (j : Job) (error : TaskError)
    (strategy : RetryStrategy) :
    (∃ e t, s.handleFailure j error strategy = (.error e, t) ∧ t.store = s.store) ∨
      ∃ t, s.handleFailure j error strategy = (.ok (s.afterFailure j strategy).1, t) ∧
        t.store.jobs = (s.store.saveJob (s.afterFailure j strategy).1).jobs := by
  have hb := s.afterFailure_backend j strategy
  rcases (s.afterFailure j strategy).2.saveJob_cases (s.afterFailure j strategy).1 with
    ⟨e, t, ht, hs⟩ | ⟨t, ht, hs⟩
  · refine .inl ⟨e, t, ?_, ?_⟩
    · simp only [handleFailure, ht]
    · rw [hs, store, hb]
  · refine .inr ⟨_, by simp only [handleFailure, ht]; rfl, ?_⟩
    refine (guarded_saveMessage_jobs t _).trans ?_
    rw [hs, store, hb]

/-- Applying a failure leaves the jobs alone, or it saves the record that the failure leaves. -/
theorem handleFailure_jobs (s : EngineState) (j : Job) (error : TaskError)
    (strategy : RetryStrategy) :
    (s.handleFailure j error strategy).2.store.jobs = s.store.jobs ∨
      (s.handleFailure j error strategy).2.store.jobs =
        (s.store.saveJob (s.afterFailure j strategy).1).jobs := by
  rcases s.handleFailure_cases j error strategy with ⟨e, t, ht, hs⟩ | ⟨t, ht, hs⟩ <;> rw [ht]
  · exact .inl (congrArg Store.jobs hs)
  · exact .inr hs

/-! ## Workers of a storage that serves -/

theorem Serving.saveJob (h : s.Serving) (j : Job) :
    ∃ t, s.saveJob j = (.ok (), t) ∧ t.store = s.store.saveJob j ∧ t.Serving := by
  obtain ⟨t, ht, hs, -, hserving⟩ := h.perform .saveJob (fun s => ((), s.saveJob j))
  exact ⟨t, ht, hs, hserving⟩

theorem Serving.handleSuccess (h : s.Serving) (j : Job) :
    (s.handleSuccess j).2.store = s.store.saveJob (j.complete s.now) := by
  obtain ⟨t, ht, hs, -⟩ := h.saveJob (j.complete s.now)
  simp only [EngineState.handleSuccess, ht]
  exact hs

theorem Serving.afterFailure (h : s.Serving) (j : Job) (strategy : RetryStrategy) :
    (s.afterFailure j strategy).2.Serving := by
  have hbackend := s.afterFailure_backend j strategy
  have hbreaker := s.afterFailure_breaker j strategy
  exact ⟨hbackend ▸ h.available, hbackend ▸ h.faultless, hbreaker ▸ h.closed⟩

/-- While the storage serves, a failure is applied to the job and noted. -/
theorem Serving.handleFailure (h : s.Serving) (j : Job) (error : TaskError)
    (strategy : RetryStrategy) :
    (s.handleFailure j error strategy).2.store =
      (s.store.saveJob (s.afterFailure j strategy).1).saveMessage
        (.ofFailure j.id error j.attempt strategy.name s.now) := by
  obtain ⟨t, ht, hs, hserving⟩ :=
    (h.afterFailure j strategy).saveJob (s.afterFailure j strategy).1
  obtain ⟨u, hu, hs', -, -⟩ := hserving.perform .saveMessage
    (fun x => ((), x.saveMessage (.ofFailure j.id error j.attempt strategy.name s.now)))
  simp only [EngineState.handleFailure, ht, Backend.saveMessage, hu]
  change u.store = _
  rw [hs', hs, store, s.afterFailure_backend j strategy]

theorem Serving.handleFailure_fst (h : s.Serving) (j : Job) (error : TaskError)
    (strategy : RetryStrategy) :
    (s.handleFailure j error strategy).1 = .ok (s.afterFailure j strategy).1 := by
  obtain ⟨t, ht, -, -⟩ := (h.afterFailure j strategy).saveJob (s.afterFailure j strategy).1
  simp only [EngineState.handleFailure, ht]

/-! ## Enqueue, cron, delete -/

/-- Events do not touch the store. -/
theorem foldl_dispatch_store {α : Type} (event : α → EngineEvent) (l : List α) (s : EngineState) :
    (l.foldl (fun s a => s.dispatch (event a)) s).store = s.store := by
  induction l generalizing s with
  | nil => rfl
  | cons a rest ih => exact ih _

theorem enqueueDue_store (s : EngineState) :
    s.enqueueDue.2.store = s.store ∨ s.enqueueDue.2.store = (s.store.enqueueJobs s.now).2 := by
  rcases s.guarded_perform .enqueueJobs (·.enqueueJobs s.now) with
    ⟨e, t, ht, hs, -⟩ | ⟨t, ht, hs, -⟩
  · refine .inl ?_
    simp only [enqueueDue, Backend.enqueueJobs, ht, hs]
  · refine .inr ?_
    simp only [enqueueDue, Backend.enqueueJobs, ht]
    exact (foldl_dispatch_store _ _ t).trans hs

/-- The identifier that the next derived job gets. -/
def nextJobId (s : EngineState) : JobId := Uuid.ofNat s.backend.nextId

/-- Firing a definition leaves the jobs alone, or it saves a derived job under the next identifier.
-/
theorem fireCron_jobs (s : EngineState) (c : CronDefinition) (now next : Instant) :
    (s.fireCron c now next).2.store.jobs = s.store.jobs ∨
      (s.fireCron c now next).2.store.jobs =
        (s.store.saveJob ({ c with nextRunAt := some next }.toJob s.nextJobId now)).jobs := by
  rcases s.guarded_perform .saveCron
      (fun s => ((), s.saveCron { c with nextRunAt := some next })) with
    ⟨e, t, ht, hs, -⟩ | ⟨t, ht, hs, -, hi⟩
  · refine .inl ?_
    simp only [fireCron, Backend.saveCron, ht, hs]
  · have hjobs : t.store.jobs = s.store.jobs := by
      rw [hs]
      rfl
    rcases t.guarded_saveNewJob
        (fun id => { c with nextRunAt := some next }.toJob id now) with
      ⟨e, u, hu, hs'⟩ | ⟨u, hu, hs', -⟩
    · refine .inl ?_
      simp only [fireCron, Backend.saveCron, ht, hu, hs', hjobs]
    · refine .inr ?_
      simp only [fireCron, Backend.saveCron, ht, hu]
      change u.store.jobs = _
      rw [hs']
      simp only [Store.saveJob, hjobs, hi, nextJobId]

theorem deleteExpired_store (retention : Option Duration) (s : EngineState) :
    (s.deleteExpired retention).2.store = s.store ∨
      ∃ time, (s.deleteExpired retention).2.store = (s.store.deleteJobs time).2 := by
  cases retention with
  | none => exact .inl rfl
  | some period =>
    rcases s.guarded_perform .deleteJobs (·.deleteJobs (s.now.sub period)) with
      ⟨e, t, ht, hs, -⟩ | ⟨t, ht, hs, -⟩
    · refine .inl ?_
      simp only [deleteExpired, Backend.deleteJobs, ht, hs]
    · refine .inr ⟨s.now.sub period, ?_⟩
      simp only [deleteExpired, Backend.deleteJobs, ht]
      split
      · exact hs
      · exact hs

end EngineState

/-! ## A small engine -/

/-- A ready job. -/
def loneJob : Job :=
  .new (Uuid.ofNat 1) "report" { id := Uuid.ofNat 0, name := "default" } .epoch

/-- An engine that holds this job and nothing else. -/
def loneEngine : EngineState where
  now := .epoch
  backend := { store := Store.saveJob {} loneJob }
  breaker := { name := "storage", settings := .default }

theorem job?_loneEngine {id : JobId} {j : Job} (h : loneEngine.store.job? id = some j) :
    j = loneJob ∧ j.id = id := by
  rw [show loneEngine.store = Store.saveJob {} loneJob from rfl, Store.job?_saveJob] at h
  split at h
  · rename_i hid
    obtain rfl := Option.some.inj h
    exact ⟨rfl, hid.symm⟩
  · cases h

theorem filed_loneEngine : loneEngine.store.Filed := fun _ _ h => (job?_loneEngine h).2

end JobEngine
