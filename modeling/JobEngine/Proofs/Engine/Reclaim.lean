-- SUMMARY: A job whose outcome is lost stays as it was picked until the janitor reclaims it.
import JobEngine.Proofs.Attempts.History
import JobEngine.Proofs.Engine.Telling
import JobEngine.Proofs.Time.Saturation

/-!
# Outcomes that are lost

`Routine.process` is the work on a picked job, up to the storage call that decides whether its
outcome is kept. If that call fails, the record is still the one that was picked. Whether a janitor
run ever reclaims it depends on the job's timeout: it has to count, and to end before the calendar
does. Then every run of a later time reclaims the job, however many others it passes on the way.
-/

namespace JobEngine

open Activity

/-! ## Staleness -/

/-- An attempt of `j` that began at `started` can come to take too long. -/
structure Job.CanLapse (j : Job) (started : Instant) : Prop where
  bounded : j.timeout.isZero = false
  ends : started.nanos + j.timeout.nanos < Instant.maxNanos

namespace Job

variable {j : Job} {now started : Instant}

instance : Decidable (j.CanLapse started) :=
  decidable_of_iff (j.timeout.isZero = false ∧ started.nanos + j.timeout.nanos < Instant.maxNanos)
    ⟨fun h => ⟨h.1, h.2⟩, fun h => ⟨h.1, h.2⟩⟩

theorem isStale_iff (hs : j.state = .executing) (hat : j.executingAt = some started) :
    j.isStale now ↔
      j.timeout.isZero = false ∧ started.nanos + j.timeout.nanos < now.nanos := by
  rw [← Instant.add_lt_iff]
  cases hzero : j.timeout.isZero <;> simp [isStale, hs, hat, hzero]

/-- An attempt that can come to take too long does so at some time, and from then on has. -/
theorem CanLapse.isStale (h : j.CanLapse started) (hs : j.state = .executing)
    (hat : j.executingAt = some started) : ∃ T, ∀ now, T ≤ now → j.isStale now := by
  obtain ⟨hbounded, hends⟩ := h
  have hfirst : Instant.minNanos ≤ started.nanos + j.timeout.nanos + 1 := by
    have hmin := started.min_le
    omega
  refine ⟨⟨started.nanos + j.timeout.nanos + 1, hfirst, hends⟩, fun now hnow => ?_⟩
  have hlate : started.nanos + j.timeout.nanos + 1 ≤ now.nanos := hnow
  exact (isStale_iff hs hat).2 ⟨hbounded, by omega⟩

theorem not_isStale_of_not_canLapse (h : ¬ j.CanLapse started) (hs : j.state = .executing)
    (hat : j.executingAt = some started) (now : Instant) : ¬ j.isStale now := by
  intro hstale
  obtain ⟨hbounded, hlate⟩ := (isStale_iff hs hat).1 hstale
  have hlast := now.le_max
  exact h ⟨hbounded, by omega⟩

end Job

/-! ## The work on a job -/

/-- What happens from `s` to `t` leaves the record of a job as it is. -/
structure KeepsRecord (id : JobId) (s t : EngineState) : Prop where
  filed : s.store.Filed → t.store.Filed
  record : t.store.job? id = s.store.job? id

namespace KeepsRecord

variable {id : JobId} {s t u : EngineState} {log : List (EngineState × EngineState)}

theorem of_store_eq (h : t.store = s.store) : KeepsRecord id s t :=
  ⟨fun hf => h ▸ hf, by rw [h]⟩

theorem refl (s : EngineState) : KeepsRecord id s s := .of_store_eq rfl

theorem trans (h : KeepsRecord id s t) (h' : KeepsRecord id t u) : KeepsRecord id s u :=
  ⟨fun hf => h'.filed (h.filed hf), h'.record.trans h.record⟩

theorem of_linked (h : Linked (KeepsRecord id) s log t)
    (hsteps : ∀ x ∈ log, KeepsRecord id x.1 x.2) : KeepsRecord id s t := by
  induction log generalizing s with
  | nil => exact h
  | cons x rest ih =>
    obtain ⟨hfirst, hrest⟩ := List.forall_mem_cons.1 hsteps
    exact (h.1.trans hfirst).trans (ih h.2 hrest)

end KeepsRecord

namespace Routine

variable {α β γ : Type} {R : EngineState → EngineState → Prop} {s t : EngineState}
  {log : List (EngineState × EngineState)} {id : JobId} {j k : Job} {e : EngineError}

theorem bind_assoc (r : Routine α) (f : α → Routine β) (g : β → Routine γ) :
    (r.bind f).bind g = r.bind fun a => (f a).bind g := by
  induction r with
  | done a => rfl
  | panic p => rfl
  | step change next ih => exact congrArg _ (funext ih)
  | wait limit ready next ih => exact congrArg _ (funext ih)
  | call c after next ih => exact congrArg _ (funext ih)

/-- Count an attempt on the metrics. -/
def countAttempt (j : Job) (result : TaskResult) (elapsed : Nat) (s : EngineState) : EngineState :=
  { s with
    metrics := s.metrics.recordExecution j.handler (Execution.outcomeName result).name
      (.ofMillis elapsed) }

/-- Count an attempt and store its outcome. The answer is the error if the outcome is lost. -/
def conclude (x : Execution) (j : Job) (result : TaskResult) (elapsed : Nat) :
    Routine (Except EngineError Job) :=
  .step (countAttempt j result elapsed) fun _ =>
    match result with
    | .ok () => handleSuccess j
    | .error e => handleFailure j e (x.strategyOf j)

/-- The work on a picked job. The answer is the error if the outcome is lost. -/
def process (x : Execution) (j : Job) : Routine (Except EngineError Job) :=
  (ofActivity ((x.attempt j).timed 0)).bind fun (result, elapsed) => conclude x j result elapsed

theorem settle_eq (x : Execution) (j : Job) (result : TaskResult) (elapsed : Nat) :
    settle x j result elapsed = (conclude x j result elapsed).bind fun _ => .done () := by
  cases result <;> rfl

/-- An iteration works on the job that it picks, and does not mind if the outcome is lost. -/
theorem iterate_eq (x : Execution) :
    iterate x = pick.bind fun
      | none => .done .skipped
      | some j => (process x j).bind fun _ => .done .processed := by
  refine congrArg pick.bind (funext fun picked => ?_)
  cases picked with
  | none => rfl
  | some j => simp only [process, bind_assoc, settle_eq, Routine.bind]

theorem process_alone (x : Execution) (j : Job) :
    ((process x j).work.bind fun _ => .done ()).SameAlone (x.process j) := by
  have hsettle : ((process x j).bind fun _ => .done ()) =
      (ofActivity ((x.attempt j).timed 0)).bind fun (result, elapsed) =>
        settle x j result elapsed := by
    simp only [process, bind_assoc, settle_eq]
  have hwork := congrArg work hsettle
  simp only [work_bind, work_ofActivity, work] at hwork
  rw [hwork]
  exact (SameAlone.refl _).bind fun r => settle_alone x j r.1 r.2

/-! ## Losing the outcome -/

/-- A call was answered and the work went on, or it failed and left the records. -/
theorem interrupted_ask {c : StorageCall} {after : c.Answer → EngineState → EngineState}
    {next : c.Answer → Routine (Except EngineError β)} {r : Except EngineError β}
    (h : Interrupted R (ask c after next).work s log r t) :
    (∃ u v, R s u ∧ v.store = u.store ∧ R v t) ∨
      ∃ a v later, Interrupted R (next a).work v later r t := by
  obtain ⟨u, later, hbefore, -, hlater⟩ := interrupted_call h
  rcases u.request_cases c with ⟨e, v, hv, hstore, -⟩ | ⟨v, hv, -, -⟩
  · rw [hv] at hlater
    cases hlater with
    | done around => exact .inl ⟨u, v, hbefore, hstore, around⟩
  · rw [hv] at hlater
    exact .inr ⟨_, _, later, hlater⟩

/-- If saving a job is all that can fail, an error means that the records are as they were. -/
theorem keeps_of_save_lost {next : Unit → Routine (Except EngineError Job)}
    {after : Unit → EngineState → EngineState}
    (hnext : ∀ v later, ¬ Interrupted (KeepsRecord id) (next ()).work v later (.error e) t)
    (h : Interrupted (KeepsRecord id) (ask (.saveJob k) after next).work s log (.error e) t) :
    KeepsRecord id s t := by
  rcases interrupted_ask h with ⟨u, v, hbefore, hstore, hafter⟩ | ⟨a, v, later, hlater⟩
  · exact (hbefore.trans (.of_store_eq hstore)).trans hafter
  · exact absurd hlater (hnext v later)

theorem keeps_of_success_lost
    (h : Interrupted (KeepsRecord id) (handleSuccess j).work s log (.error e) t) :
    KeepsRecord id s t := by
  cases h with
  | step around later =>
    refine around.trans (keeps_of_save_lost (fun v later hdone => ?_) later)
    cases hdone

theorem keeps_of_failure_lost {error : TaskError} {strategy : RetryStrategy}
    (h : Interrupted (KeepsRecord id) (handleFailure j error strategy).work s log (.error e) t) :
    KeepsRecord id s t := by
  cases h with
  | @step _ _ _ u _ _ _ around later =>
    have hdraw : KeepsRecord id u (u.afterFailure j strategy).2 :=
      .of_store_eq (congrArg Backend.store (u.afterFailure_backend j strategy))
    refine (around.trans hdraw).trans (keeps_of_save_lost (fun v later hnote => ?_) later)
    obtain ⟨w, rest, -, -, hdone⟩ := interrupted_call hnote
    cases hdone

theorem keeps_of_outcome_lost {x : Execution} (hwork : (x.attempt j).Always (KeepsRecord id))
    (h : Interrupted (KeepsRecord id) (process x j).work s log (.error e) t) :
    KeepsRecord id s t := by
  rw [process, work_bind, work_ofActivity] at h
  obtain ⟨u, ⟨result, elapsed⟩, first, rest, -, hattempt, hconclude⟩ := h.of_bind .refl
  have hhandler : KeepsRecord id s u := .of_linked hattempt.linked (hattempt.always (hwork.timed 0))
  cases hconclude with
  | @step _ _ _ v _ _ _ around later =>
    have hcount : KeepsRecord id v (countAttempt j result elapsed v) := .of_store_eq rfl
    refine ((hhandler.trans around).trans hcount).trans ?_
    cases result with
    | ok value =>
      have hsave : Interrupted _ (handleSuccess j).work _ _ _ t := later
      exact keeps_of_success_lost hsave
    | error failure =>
      have hsave : Interrupted _ (handleFailure j failure (x.strategyOf j)).work _ _ _ t := later
      exact keeps_of_failure_lost hsave

end Routine

/-! ## Reclaiming the job -/

namespace EngineState

variable {s t v : EngineState} {j : Job}

/-- A janitor run on a storage that serves reclaims each stale job. -/
theorem rescueStale_of_isStale (h : v.Serving) (hf : v.store.Filed) (hj : v.store.job? j.id = some j)
    (hstale : j.isStale v.now) (batch : Nat) :
    ∃ w, rescueStale batch v = (.ok (), w) ∧ w.store.job? j.id = some (j.rescue v.now) := by
  obtain ⟨w, hw, -, hsweeps⟩ := h.rescueStale hf batch
  refine ⟨w, hw, ?_⟩
  rw [hsweeps.store]
  exact Store.job?_reclaim_of_mem hf.stale_ids_nodup (hf.mem_stale.2 ⟨hj, hstale⟩)

/-- A janitor run passes over a job that is not stale, whatever else happens to it. -/
theorem job?_rescueStale_of_not_isStale (hf : v.store.Filed) (hj : v.store.job? j.id = some j)
    (hstale : ¬ j.isStale v.now) (batch : Nat) :
    (rescueStale batch v).2.store.job? j.id = some j := by
  rcases rescueStale_records hf batch j.id with hsame | ⟨k, hk, hlapsed, -⟩
  · exact hsame.trans hj
  · obtain rfl : k = j := Option.some.inj (hk.symm.trans hj)
    exact absurd hlapsed hstale

/-- From some time on, every janitor run on a storage that serves makes a job retryable that is left
as it is at `t`. -/
def Recovers (j : Job) (t : EngineState) : Prop :=
  ∃ T, ∀ (v : EngineState) (batch : Nat), KeepsRecord j.id t v → v.Serving → T ≤ v.now →
    ∃ w k, rescueStale batch v = (.ok (), w) ∧ w.store.job? j.id = some k ∧
      k = j.rescue v.now ∧ k.state = .retryable

/-- A job whose outcome is lost is stored just as it was picked. If its timeout counts and ends
before the calendar does, the janitor makes it retryable sooner or later; no janitor run touches it
otherwise. -/
theorem lost_outcome_recovers {x : Execution} {log : List (EngineState × EngineState)}
    {e : EngineError} (hf : s.store.Filed) (hj : s.pick.1 = some j)
    (hwork : (x.attempt j).Always (KeepsRecord j.id))
    (h : Interrupted (KeepsRecord j.id) (Routine.process x j).work s.pick.2 log (.error e) t) :
    ((Routine.process x j).work.bind fun _ => .done ()).SameAlone (x.process j) ∧
      t.store.job? j.id = some j ∧ j.state = .executing ∧ j.executingAt = some s.now ∧
      (j.CanLapse s.now → Recovers j t) ∧
      (¬ j.CanLapse s.now → ∀ (v : EngineState) (batch : Nat), KeepsRecord j.id t v →
        (rescueStale batch v).2.store.job? j.id = some j) := by
  obtain ⟨k, -, -, hexecute, hpicked, -⟩ := pick_record hf hj
  have hstate : j.state = .executing := by rw [hexecute]; rfl
  have hat : j.executingAt = some s.now := by rw [hexecute]; rfl
  have hlost := Routine.keeps_of_outcome_lost hwork h
  have hstored : t.store.job? j.id = some j := hlost.record.trans hpicked
  have hfiled : t.store.Filed := hlost.filed (filed_pick hf)
  refine ⟨Routine.process_alone x j, hstored, hstate, hat, fun hlapse => ?_,
    fun hlapse v batch hv => ?_⟩
  · obtain ⟨T, hT⟩ := hlapse.isStale hstate hat
    refine ⟨T, fun v batch hv hserving hnow => ?_⟩
    obtain ⟨w, hw, hrecord⟩ := rescueStale_of_isStale hserving (hv.filed hfiled)
      (hv.record.trans hstored) (hT v.now hnow) batch
    exact ⟨w, _, hw, hrecord, rfl, rfl⟩
  · exact job?_rescueStale_of_not_isStale (hv.filed hfiled) (hv.record.trans hstored)
      (Job.not_isStale_of_not_canLapse hlapse hstate hat v.now) batch

/-! ## A storage that loses an outcome -/

/-- A ready job, and a storage that will fail to save the outcome of its first attempt. -/
def forgetful (j : Job) : EngineState where
  now := .epoch
  backend := { store := Store.saveJob {} j, faults := [⟨.saveJob, 0, 1, "no space left"⟩] }
  breaker := { name := "storage", settings := .default }

/-- The state after an attempt for which there is no handler. -/
def forgotten (j : Job) : EngineState :=
  ((Routine.process {} (j.execute .epoch)).work.run 0 (forgetful j).pick.2).2

/-- The last moment of the calendar, with nothing done since. -/
def waitedFor (j : Job) : EngineState := { forgotten j with now := .max }

/-- A ready job whose attempts are not bounded. -/
def untimedJob : Job := { loneJob with timeout := .zero }

theorem filed_forgetful (j : Job) : (forgetful j).store.Filed :=
  Store.Filed.saveJob fun _ _ h => by cases h

theorem forgotten_of_forgetful {j : Job} {e : EngineError}
    (h : ((Routine.process {} (j.execute .epoch)).work.run 0 (forgetful j).pick.2).1 =
      some (.done (.error e), 0)) :
    ∃ log, Interrupted (KeepsRecord (j.execute .epoch).id)
      (Routine.process {} (j.execute .epoch)).work (forgetful j).pick.2 log (.error e)
      (forgotten j) :=
  interrupted_of_run .refl (Prod.ext h rfl)

theorem keeps_unhandled (j : Job) : (Execution.attempt {} j).Always (KeepsRecord j.id) :=
  fun _ => ⟨.of_store_eq rfl, trivial⟩

/-- A job that waited for the janitor until the last moment of the calendar. -/
theorem forgotten_job_recovers :
    ∃ w k, rescueStale 1000 (waitedFor loneJob) = (.ok (), w) ∧
      w.store.job? loneJob.id = some k ∧ k.state = .retryable := by
  have hpicked : (forgetful loneJob).pick.1 = some (loneJob.execute .epoch) := by decide +kernel
  have hlost : ((Routine.process {} (loneJob.execute .epoch)).work.run 0
      (forgetful loneJob).pick.2).1 = some (.done (.error (.storage "no space left")), 0) := by
    decide +kernel
  obtain ⟨log, hrun⟩ := forgotten_of_forgetful hlost
  obtain ⟨-, -, -, -, hrecovers, -⟩ :=
    lost_outcome_recovers (filed_forgetful loneJob) hpicked (keeps_unhandled _) hrun
  have hserving : (waitedFor loneJob).Serving :=
    ⟨by decide +kernel, by unfold Backend.Faultless; decide +kernel, by decide +kernel⟩
  obtain ⟨T, hT⟩ := hrecovers (by decide +kernel)
  obtain ⟨w, k, hw, hk, -, hstate⟩ :=
    hT (waitedFor loneJob) 1000 (.of_store_eq rfl) hserving T.le_max
  exact ⟨w, k, hw, hk, hstate⟩

/-- The janitor never comes for a job whose timeout is zero. -/
theorem forgotten_job_stays :
    ¬ ∀ (x : Execution) (s t : EngineState) (j : Job) (log : List (EngineState × EngineState))
      (e : EngineError), s.store.Filed → s.pick.1 = some j →
      (x.attempt j).Always (KeepsRecord j.id) →
      Interrupted (KeepsRecord j.id) (Routine.process x j).work s.pick.2 log (.error e) t →
      t.store.job? j.id = some j ∧ Recovers j t := by
  intro hclaim
  have hpicked : (forgetful untimedJob).pick.1 = some (untimedJob.execute .epoch) := by
    decide +kernel
  have hlost : ((Routine.process {} (untimedJob.execute .epoch)).work.run 0
      (forgetful untimedJob).pick.2).1 = some (.done (.error (.storage "no space left")), 0) := by
    decide +kernel
  obtain ⟨log, hrun⟩ := forgotten_of_forgetful hlost
  obtain ⟨-, T, hT⟩ := hclaim {} (forgetful untimedJob) (forgotten untimedJob) _ log _
    (filed_forgetful untimedJob) hpicked (keeps_unhandled _) hrun
  have hserving : (waitedFor untimedJob).Serving :=
    ⟨by decide +kernel, by unfold Backend.Faultless; decide +kernel, by decide +kernel⟩
  obtain ⟨w, k, hw, hk, -, hstate⟩ :=
    hT (waitedFor untimedJob) 1000 (.of_store_eq rfl) hserving T.le_max
  have hstays : ((rescueStale 1000 (waitedFor untimedJob)).2.store.job? untimedJob.id).map
      Job.state = some .executing := by
    decide +kernel
  rw [hw, show w.store.job? untimedJob.id = some k from hk, Option.map_some, hstate] at hstays
  cases hstays

end EngineState

end JobEngine
