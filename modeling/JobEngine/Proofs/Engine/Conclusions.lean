-- SUMMARY: What becomes of a picked job, for every verdict on its attempt.
import JobEngine.Proofs.Engine.Accounting
import JobEngine.Proofs.Engine.Serving
import JobEngine.Proofs.Engine.Verdicts
import JobEngine.Proofs.Store.Draining

/-!
# Conclusions of attempts

While the storage serves, an iteration takes the first ready job, and the verdict on its attempt
decides alone what becomes of the job. A success completes it. A failure makes it due again after
the delay of the next attempt while its budget lasts, and fails it otherwise; the note on the job
and the event tell the error. No other job is touched.
-/

namespace JobEngine

open Activity

/-! ## Conclusions -/

/-- After the verdict on the attempt of `j`, which came out when the clock showed `now`, the record
is stored, the event is dispatched and the notes are added. -/
inductive Execution.Concludes (x : Execution) (j : Job) (now : Instant) :
    Verdict → Job → EngineEvent → List JobMessage → Prop where
  | completed {v : Verdict} {k : Job} (succeeded : v.error? j.handler = none)
    (record : k = { j with
      state := .completed, completedAt := some now, failedAt := none, discardedAt := none }) :
    Concludes x j now v k (.jobCompleted k) []
  | retrying {v : Verdict} {e : TaskError} {strategy : RetryStrategy} {factor : Nat} {count : Count}
    {due : Instant} {k : Job} (failed : v.error? j.handler = some e)
    (left : j.retries.val < j.maxRetries.val) (governed : x.GovernedBy j strategy)
    (chance : 1 ≤ factor ∧ factor ≤ 30) (charged : count.val = j.retries.val + 1)
    (delayed : due.nanos = min (now.nanos + (strategy.delay factor count).nanos) Instant.maxNanos)
    (record : k = { j with
      state := .retryable, retries := count, scheduledAt := some due, executingAt := none }) :
    Concludes x j now v k (.jobRetrying k e) [.ofFailure j.id e j.attempt strategy.name now]
  | failed {v : Verdict} {e : TaskError} {strategy : RetryStrategy} {k : Job}
    (failed : v.error? j.handler = some e) (spent : j.maxRetries.val ≤ j.retries.val)
    (governed : x.GovernedBy j strategy)
    (record : k = { j with
      state := .failed, failedAt := some now, completedAt := none, discardedAt := none }) :
    Concludes x j now v k (.jobFailed k e) [.ofFailure j.id e j.attempt strategy.name now]

/-- Only a success completes the job. -/
theorem Execution.Concludes.completed_iff {x : Execution} {j k : Job} {now : Instant} {v : Verdict}
    {event : EngineEvent} {notes : List JobMessage} (h : x.Concludes j now v k event notes) :
    k.state = .completed ↔ v = .ended (.done (.ok ())) := by
  rw [← @Verdict.error?_eq_none_iff j.handler]
  cases h with
  | completed succeeded record => simp [succeeded, record]
  | retrying failed left governed chance charged delayed record => simp [failed, record]
  | failed failed spent governed record => simp [failed, record]

theorem Execution.Concludes.id_eq {x : Execution} {j k : Job} {now : Instant} {v : Verdict}
    {event : EngineEvent} {notes : List JobMessage} (h : x.Concludes j now v k event notes) :
    k.id = j.id := by
  cases h with
  | completed succeeded record => rw [record]
  | retrying failed left governed chance charged delayed record => rw [record]
  | failed failed spent governed record => rw [record]

namespace EngineState

variable {s t u : EngineState} {j : Job} {x : Execution}

/-! ## Applying outcomes -/

theorem drawFactor_bounds (s : EngineState) (strategy : RetryStrategy) :
    1 ≤ (s.drawFactor strategy).1 ∧ (s.drawFactor strategy).1 ≤ 30 := by
  cases strategy with
  | jitter =>
    change 1 ≤ 1 + s.dice % 30 ∧ 1 + s.dice % 30 ≤ 30
    omega
  | _ =>
    change 1 ≤ 1 ∧ 1 ≤ 30
    decide

/-- A job that is retried is due when its next attempt is, for some random factor. -/
theorem exists_factor_afterFailure (hleft : j.hasRetriesLeft = true) (s : EngineState)
    (strategy : RetryStrategy) :
    ∃ factor, (1 ≤ factor ∧ factor ≤ 30) ∧ (s.afterFailure j strategy).1 =
      j.retryAt (strategy.nextAttemptAt factor j.retries.succ s.now) := by
  obtain ⟨dice, hdrawn⟩ := s.exists_dice_drawFactor strategy
  refine ⟨_, s.drawFactor_bounds strategy, ?_⟩
  simp only [afterFailure, hleft, if_true, hdrawn]

/-- Before the outcome of an attempt is applied the attempt is counted, and that is all. -/
theorem Serving.settle_eq (h : s.Serving) (x : Execution) (j : Job) (result : TaskResult)
    (elapsed : Nat) :
    ∃ t : EngineState, t.Serving ∧ t.now = s.now ∧ t.store = s.store ∧ t.events = s.events ∧
      x.settle j result elapsed s =
        match result with
        | .ok () => (t.handleSuccess j).2
        | .error e => (t.handleFailure j e (x.strategyOf j)).2 := by
  let counted := s.metrics.recordExecution j.handler (Execution.outcomeName result).name
    (.ofMillis elapsed)
  refine ⟨{ s with metrics := counted }, ⟨h.available, h.faultless, h.closed⟩, rfl, rfl, rfl, ?_⟩
  cases result <;> rfl

theorem Serving.handleSuccess_events (h : s.Serving) (j : Job) :
    (s.handleSuccess j).2.events = s.events ++ [.jobCompleted (j.complete s.now)] := by
  obtain ⟨t, ht, -, -, hevents⟩ := h.call .saveJob fun x => ((), x.saveJob (j.complete s.now))
  have ht : s.saveJob (j.complete s.now) = (.ok (), t) := ht
  simp only [EngineState.handleSuccess, ht]
  exact congrArg (· ++ _) hevents

theorem Serving.handleFailure_events (h : s.Serving) (j : Job) (e : TaskError)
    (strategy : RetryStrategy) :
    (s.handleFailure j e strategy).2.events =
      s.events ++ [failureEvent j.hasRetriesLeft (s.afterFailure j strategy).1 e] := by
  obtain ⟨t, ht, hsteady, -, hsaved⟩ := (h.afterFailure j strategy).call .saveJob
    fun x => ((), x.saveJob (s.afterFailure j strategy).1)
  have ht : (s.afterFailure j strategy).2.saveJob (s.afterFailure j strategy).1 = (.ok (), t) := ht
  obtain ⟨u, hu, -, -, hnoted⟩ := hsteady.serving.call .saveMessage
    fun x => ((), x.saveMessage (.ofFailure j.id e j.attempt strategy.name s.now))
  have hevents : u.events = s.events := by rw [hnoted, hsaved, afterFailure_events]
  simp only [EngineState.handleFailure, ht, Backend.saveMessage, hu]
  exact congrArg (· ++ _) hevents

/-- A failure of a job is charged to its budget, or it fails the job. -/
theorem Serving.concludes_failure (h : s.Serving) (x : Execution) (j : Job) {v : Verdict}
    {e : TaskError} (hv : v.error? j.handler = some e) :
    ∃ k event notes, x.Concludes j s.now v k event notes ∧
      (s.handleFailure j e (x.strategyOf j)).2.store = { s.store.saveJob k with
        messages := s.store.messages ++ notes } ∧
      (s.handleFailure j e (x.strategyOf j)).2.events = s.events ++ [event] := by
  have hstore := h.handleFailure j e (x.strategyOf j)
  have hevents := h.handleFailure_events j e (x.strategyOf j)
  have governed := x.governedBy_strategyOf j
  cases hleft : j.hasRetriesLeft with
  | true =>
    have left := Job.hasRetriesLeft_eq_true.1 hleft
    obtain ⟨factor, chance, hk⟩ := s.exists_factor_afterFailure hleft (x.strategyOf j)
    rw [hleft, hk] at hevents
    rw [hk] at hstore
    exact ⟨_, _, _, .retrying hv left governed chance (Count.val_succ_of_lt left)
      (Instant.nanos_add _ _) rfl, hstore, hevents⟩
  | false =>
    have spent := Job.hasRetriesLeft_eq_false_iff.1 hleft
    have hk : (s.afterFailure j (x.strategyOf j)).1 = j.fail s.now := by
      simp only [EngineState.afterFailure, hleft, Bool.false_eq_true, if_false]
    rw [hleft, hk] at hevents
    rw [hk] at hstore
    exact ⟨_, _, _, .failed hv spent governed rfl, hstore, hevents⟩

/-- The outcome of an attempt is stored and told as its verdict demands. -/
theorem Serving.concludes (h : s.Serving) (x : Execution) (j : Job) (v : Verdict) (elapsed : Nat) :
    ∃ k event notes, x.Concludes j s.now v k event notes ∧
      (x.settle j (v.result j.handler) elapsed s).store = { s.store.saveJob k with
        messages := s.store.messages ++ notes } ∧
      (x.settle j (v.result j.handler) elapsed s).events = s.events ++ [event] := by
  obtain ⟨t, hserving, hnow, hstore, hevents, hsettle⟩ :=
    h.settle_eq x j (v.result j.handler) elapsed
  rw [hsettle, ← hnow, ← hstore, ← hevents]
  cases hv : v.error? j.handler with
  | none =>
    have hresult : v.result j.handler = .ok () := by rw [Verdict.result, hv]
    rw [hresult]
    refine ⟨_, _, [], .completed hv rfl, ?_, hserving.handleSuccess_events j⟩
    rw [List.append_nil]
    exact hserving.handleSuccess j
  | some e =>
    have hresult : v.result j.handler = .error e := by rw [Verdict.result, hv]
    rw [hresult]
    exact hserving.concludes_failure x j hv

/-! ## Iterations -/

theorem Serving.aside (h : s.Serving) (ha : Aside s t) : t.Serving :=
  ⟨ha.backend ▸ h.available, ha.backend ▸ h.faultless, ha.breaker ▸ h.closed⟩

/-- The first ready job is picked. -/
theorem Serving.pick_of_queued (h : s.Serving) (hf : s.store.Filed) {q : List Job}
    (hq : s.store.Queued (j :: q)) :
    ∃ u, s.pick = (some (j.execute s.now), u) ∧ u.Serving ∧
      u.store = s.store.saveJob (j.execute s.now) := by
  obtain ⟨t, ht, hsteady, hstore, -⟩ := h.call .pickJob (·.pickJob s.now)
  rw [hf.pickJob_cons hq] at ht hstore
  refine ⟨t.dispatch (.jobSelected (j.execute s.now)), ?_, (hsteady.dispatch _).serving, hstore⟩
  simp only [EngineState.pick, Backend.pickJob, ht]

end EngineState

namespace Execution

variable {s t : EngineState} {j k : Job} {x : Execution} {now later : Nat} {v : Verdict}
  {waits : List (Nat × EngineState)}

theorem Attempted.aside (hx : x.Discreet) (h : Attempted Aside x j now s waits v later t) :
    Aside s t := by
  cases h with
  | ended task limited inTime course =>
    exact course.preserves Aside.trans id Aside.refl (hx _ _ task _)
  | overran task limited overruns =>
    exact overruns.preserves Aside.trans id (hx _ _ task _)
  | unregistered missing => exact ⟨rfl, rfl⟩

/-- While the storage serves and a job is ready, an iteration processes the job that is first,
unless its handler waits for ever and has no limit. There is a course of the iteration for each way
in which the attempt can come out. It leaves the record, the event and the notes that the verdict
demands, and no other record is changed. -/
theorem picked_job_concluded (hx : x.Discreet) (hs : s.Serving) (hf : s.store.Filed)
    (hk : s.store.job? k.id = some k) (hready : k.state = .enqueued) (now : Nat) :
    ∃ j q u, s.store.Queued (j :: q) ∧ s.pick = (some (j.execute s.now), u) ∧
      ((∀ d, x.tasks.get? j.handler = some d → d.LimitedBy (j.execute s.now) none →
          ∃ e w, (d.handler { job := j.execute s.now, env := x.env }).run now u = (some e, w)) →
        ∃ later t, x.iterate.run now s = (some (.done .processed, later), t)) ∧
      (∀ waits v later w, Attempted Aside x (j.execute s.now) now u waits v later w →
        ∃ t, Course Aside x.iterate now s waits (.done .processed) later t) ∧
      ∀ waits e later t, Course Aside x.iterate now s waits e later t →
        e = .done .processed ∧ ∃ v w k event notes,
          Attempted Aside x (j.execute s.now) now u waits v later w ∧
          (∀ v' later' w', Attempted Aside x (j.execute s.now) now u waits v' later' w' → v' = v) ∧
          x.Concludes (j.execute s.now) w.now v k event notes ∧
          (k.state = .completed ↔ v = .ended (.done (.ok ()))) ∧
          t.store.job? j.id = some k ∧ t.events = w.events ++ [event] ∧
          t.store.messages = s.store.messages ++ notes ∧
          ∀ id, id ≠ j.id → t.store.job? id = s.store.job? id := by
  obtain ⟨q, hq⟩ := hf.exists_queued
  obtain ⟨j, q, rfl⟩ : ∃ j q', q = j :: q' :=
    List.exists_cons_of_ne_nil (List.ne_nil_of_mem ((hq.mem_iff k).2 ⟨hk, hready⟩))
  obtain ⟨u, hpick, hserving, hstore⟩ := hs.pick_of_queued hf hq
  refine ⟨j, q, u, hq, hpick, exists_run_iterate hpick, ?courses, ?conclusions⟩
  case courses =>
    exact fun waits v later w h => ⟨_, (course_iterate hpick).2 ⟨v, w, rfl, rfl, h⟩⟩
  case conclusions =>
    intro waits e later t hcourse
    obtain ⟨v, w, rfl, rfl, hattempted⟩ := (course_iterate hpick).1 hcourse
    have haside := hattempted.aside hx
    obtain ⟨k, event, notes, hconcludes, hsettled, hevents⟩ :=
      (hserving.aside haside).concludes x (j.execute s.now) v (later - now)
    have hwstore : w.store = s.store.saveJob (j.execute s.now) := by
      rw [← hstore, EngineState.store, haside.backend]
    have hid : k.id = j.id := hconcludes.id_eq
    rw [hwstore] at hsettled
    refine ⟨rfl, v, w, k, event, notes, hattempted, fun v' later' w' h => (h.unique hattempted).1,
      hconcludes, hconcludes.completed_iff, ?_, hevents, ?_, fun id hne => ?_⟩
    · rw [hsettled, ← hid]
      exact Store.job?_saveJob_self
    · rw [hsettled]
      rfl
    · rw [hsettled]
      exact (Store.job?_saveJob_of_ne (hid ▸ hne)).trans (Store.job?_saveJob_of_ne hne)

end Execution

/-! ## A handler that takes its time -/

/-- The only handler sleeps for ten minutes. -/
def dawdling : Execution where
  tasks := (∅ : TaskRegistry).register
    { name := "report", handler := fun _ => .sleep 600000 (.done (.ok ())) }

theorem discreet_dawdling : dawdling.Discreet := by
  intro name d hd ctx
  rw [TaskRegistry.eq_of_get?_single hd]
  exact fun _ => trivial

/-- The attempt is stopped after five minutes, and the job waits for the next one. -/
theorem dawdler_retried :
    ∃ (v : Verdict) (k : Job) (e : TaskError) (t : EngineState),
      dawdling.iterate.run 0 loneEngine = (some (.done .processed, 300000), t) ∧
      v ≠ .ended (.done (.ok ())) ∧ v.error? loneJob.handler = some e ∧
      e.message = "Task exceeded its timeout of 300s" ∧ k.state = .retryable ∧ k.retries = 1 ∧
      t.store.job? loneJob.id = some k ∧ t.events.getLast? = some (.jobRetrying k e) := by
  have hserving : loneEngine.Serving :=
    ⟨by decide +kernel, by unfold Backend.Faultless; decide +kernel, by decide +kernel⟩
  obtain ⟨j, q, u, hq, hpick, -, -, hconclusions⟩ :=
    Execution.picked_job_concluded discreet_dawdling hserving filed_loneEngine
      (show _ = some loneJob by decide +kernel) rfl 0
  have hfirst : loneEngine.pick.1 = some (loneJob.execute .epoch) := by decide +kernel
  have hj : j.execute loneEngine.now = loneJob.execute .epoch := by
    rw [hpick] at hfirst
    exact Option.some.inj hfirst
  have hid : (j.execute loneEngine.now).id = (loneJob.execute .epoch).id := congrArg Job.id hj
  have hid : j.id = loneJob.id := hid
  have hrun : dawdling.iterate.run 0 loneEngine =
      (some (.done .processed, 300000), (dawdling.iterate.run 0 loneEngine).2) :=
    Prod.ext (by decide +kernel) rfl
  obtain ⟨waits, hcourse⟩ := Course.of_run Aside.refl hrun
  obtain ⟨-, v, w, k, event, notes, -, -, hconcludes, hcompleted, hrecord, hevents, hnotes, -⟩ :=
    hconclusions waits _ _ _ hcourse
  generalize ht : (dawdling.iterate.run 0 loneEngine).2 = t at *
  have hstate : (t.store.job? loneJob.id).map (fun k => (k.state, k.retries)) =
      some (.retryable, 1) := by
    rw [← ht]
    decide +kernel
  have hmessage : t.store.messages.map JobMessage.message =
      ["Task exceeded its timeout of 300s"] := by
    rw [← ht]
    decide +kernel
  rw [hid] at hrecord
  rw [hrecord, Option.map_some, Option.some.injEq, Prod.mk.injEq] at hstate
  obtain ⟨hstate, hretries⟩ := hstate
  rw [hj] at hconcludes
  cases hconcludes with
  | completed succeeded record => simp [record] at hstate
  | failed failed spent governed record => simp [record] at hstate
  | retrying failed left governed chance charged delayed record =>
    rename_i e strategy factor count due
    have hnone : loneEngine.store.messages = [] := by decide +kernel
    rw [hnotes, hnone] at hmessage
    have htext : e.message = "Task exceeded its timeout of 300s" := (List.cons.inj hmessage).1
    refine ⟨v, k, e, t, hrun, ?_, failed, htext, hstate, hretries, hrecord, ?_⟩
    · rw [Ne, ← hcompleted, hstate]
      decide
    · rw [hevents, List.getLast?_concat]

end JobEngine
