-- SUMMARY: Every way in which an act can change a record or what a worker has in hand.
import JobEngine.Proofs.Interleaving.World

/-!
# Changes

`Change x id a r` lists the ways in which act `a` can leave `r` as the record of `id`. It is read
off the engine's steps once; what holds of all interleavings is then proved by cases on it.
-/

namespace JobEngine

/-- The worker that an act relieves of its job. -/
def Act.relieved? : Act → Option Nat
  | .succeed w | .fail w _ _ | .lose w => some w
  | _ => none

/-- The acts of janitor runs that may write a job. -/
def Act.ofJanitor : Act → Bool
  | .sweep _ | .examine _ _ => true
  | _ => false

namespace World

/-- Act `a` leaves `r` as the record of `id`, other than by leaving it as it is. -/
inductive Change (x : World) (id : JobId) : Act → Option Job → Prop where
  | picked {w : Nat} {j : Job} (stored : x.job? id = some j) (ready : j.state = .enqueued) :
    Change x id (.pick w) (some (j.execute x.engine.now))
  | completed {w : Nat} {j : Job} (held : x.held w = some j) (hid : j.id = id) :
    Change x id (.succeed w) (some (j.complete x.engine.now))
  | retried {w : Nat} {j : Job} {error : TaskError} {strategy : RetryStrategy} {next : Instant}
    (held : x.held w = some j) (hid : j.id = id) (left : j.hasRetriesLeft = true) :
    Change x id (.fail w error strategy) (some (j.retryAt next))
  | failed {w : Nat} {j : Job} {error : TaskError} {strategy : RetryStrategy}
    (held : x.held w = some j) (hid : j.id = id) (left : j.hasRetriesLeft = false) :
    Change x id (.fail w error strategy) (some (j.fail x.engine.now))
  | promoted {j : Job} (stored : x.job? id = some j) (due : j.isPromotable x.engine.now) :
    Change x id .enqueue (some j.enqueue)
  | derived {c : CronDefinition} {now next : Instant} (hid : x.engine.nextJobId = id) :
    Change x id (.fire c now next)
      (some ({ c with nextRunAt := some next }.toJob id now))
  | swept {batch : Nat} {j : Job} (stored : x.job? id = some j) (stale : j.isStale x.engine.now) :
    Change x id (.sweep batch) (some (j.rescue x.engine.now))
  | rescued {now : Instant} {j : Job} (seen : j ∈ x.seen) (hid : j.id = id)
    (stale : j.isStale now) :
    Change x id (.examine now j) (some (j.rescue now))
  | deleted {retention : Option Duration} {j : Job} (stored : x.job? id = some j)
    (terminal : j.state.isTerminal) :
    Change x id (.delete retention) none

variable {x : World} {a : Act} {id : JobId}

theorem job?_after_eq : (x.after a).job? id = (x.perform a).engine.store.job? id := rfl

theorem job?_of_jobs_eq {s t : Store} (h : s.jobs = t.jobs) (id : JobId) :
    s.job? id = t.job? id := by
  rw [Store.job?, h, Store.job?]

/-- Saving a job changes its own record and no other. -/
theorem job?_of_saved {s t : Store} {k : Job} (h : t.jobs = (s.saveJob k).jobs) (id : JobId) :
    t.job? id = s.job? id ∨ k.id = id ∧ t.job? id = some k := by
  rw [job?_of_jobs_eq h, Store.job?_saveJob]
  split
  · rename_i hid
    exact .inr ⟨hid.symm, rfl⟩
  · exact .inl rfl

/-! ## One act -/

/-- Act `a` leaves the record of `id` as it is, or changes it in one of the listed ways. -/
def Leaves (x : World) (a : Act) (id : JobId) : Prop :=
  (x.after a).job? id = x.job? id ∨ ∃ r, (x.after a).job? id = r ∧ Change x id a r

namespace Leaves

theorem of_jobs_eq (h : (x.perform a).engine.store.jobs = x.engine.store.jobs) : x.Leaves a id :=
  .inl (job?_of_jobs_eq h id)

theorem of_saved {k : Job} (h : (x.perform a).engine.store.jobs = (x.engine.store.saveJob k).jobs)
    (hchange : k.id = id → Change x id a (some k)) : x.Leaves a id := by
  rcases job?_of_saved h id with hsame | ⟨hid, hk⟩
  · exact .inl hsame
  · exact .inr ⟨some k, hk, hchange hid⟩

theorem pick (hf : x.engine.store.Filed) (w : Nat) : x.Leaves (.pick w) id := by
  rcases EngineState.pick_cases hf with ⟨t, ht, hs⟩ | ⟨j, t, hj, hq, ht, hs⟩
  · exact of_jobs_eq (by simp only [perform, hold, ht, hs])
  · exact of_saved (by simp only [perform, hold, ht, hs]) fun hid => .picked (hid ▸ hj) hq

theorem succeed (w : Nat) : x.Leaves (.succeed w) id := by
  cases hw : x.held w with
  | none => exact of_jobs_eq (by simp only [perform, hw])
  | some j =>
    rcases x.engine.handleSuccess_store j with hs | hs
    · exact of_jobs_eq (by simp only [perform, hw, hold, hs])
    · exact of_saved (by simp only [perform, hw, hold, hs]) fun hid => .completed hw hid

theorem fail (w : Nat) (error : TaskError) (strategy : RetryStrategy) :
    x.Leaves (.fail w error strategy) id := by
  cases hw : x.held w with
  | none => exact of_jobs_eq (by simp only [perform, hw])
  | some j =>
    rcases x.engine.handleFailure_jobs j error strategy with hs | hs
    · exact of_jobs_eq (by simp only [perform, hw, hold, hs])
    · refine of_saved (by simp only [perform, hw, hold]; exact hs) fun hid => ?_
      rw [EngineState.id_afterFailure] at hid
      rcases x.engine.afterFailure_cases j strategy with ⟨hl, next, hk⟩ | ⟨hl, hk⟩
      · exact hk ▸ .retried hw hid hl
      · exact hk ▸ .failed hw hid hl

theorem enqueue : x.Leaves .enqueue id := by
  rcases x.engine.enqueueDue_store with hs | hs
  · exact of_jobs_eq (by simp only [perform, hs])
  rw [Leaves, job?_after_eq]
  simp only [perform, hs, Store.job?_enqueueJobs]
  cases hj : x.engine.store.job? id with
  | none => exact .inl hj.symm
  | some j =>
    simp only [Option.map_some]
    split
    · rename_i hdue
      exact .inr ⟨_, rfl, .promoted hj hdue⟩
    · exact .inl hj.symm

theorem fire (c : CronDefinition) (now next : Instant) : x.Leaves (.fire c now next) id := by
  rcases x.engine.fireCron_jobs c now next with hs | hs
  · exact of_jobs_eq hs
  · refine of_saved hs fun hid => ?_
    obtain rfl : x.engine.nextJobId = id := hid
    exact .derived rfl

theorem sweep (hf : x.engine.store.Filed) (batch : Nat) : x.Leaves (.sweep batch) id := by
  rcases EngineState.rescueStale_records hf batch id with h | ⟨j, hj, hstale, h⟩
  · exact .inl h
  · exact .inr ⟨_, h, .swept hj hstale⟩

theorem read (page : Page) : x.Leaves (.read page) id := by
  rcases x.engine.guarded_perform .getJobs
      (fun s => (s.getJobs { states := [.executing] } page, s)) with
    ⟨e, t, ht, hs, -⟩ | ⟨t, ht, hs, -⟩ <;>
  exact of_jobs_eq (by simp only [perform, Backend.getJobs, ht, hs])

theorem examine {j : Job} (hseen : j ∈ x.seen) (now : Instant) : x.Leaves (.examine now j) id := by
  rcases EngineState.rescuePage_single_store now j 0 x.engine with hs | ⟨hstale, hs⟩
  · exact of_jobs_eq (congrArg Store.jobs hs)
  · exact of_saved (congrArg Store.jobs hs) fun hid => .rescued hseen hid hstale

theorem delete (retention : Option Duration) : x.Leaves (.delete retention) id := by
  rcases EngineState.deleteExpired_store retention x.engine with hs | ⟨time, hs⟩
  · exact of_jobs_eq (congrArg Store.jobs hs)
  rw [Leaves, job?_after_eq]
  simp only [perform, hs, Store.job?_deleteJobs]
  cases hj : x.engine.store.job? id with
  | none => exact .inl hj.symm
  | some j =>
    cases he : j.isExpired time with
    | true =>
      exact .inr ⟨_, Option.filter_some_neg (by simp [he]),
        .deleted hj (Job.isTerminal_of_isExpired he)⟩
    | false => exact .inl (by rw [Option.filter_some_pos (by simp [he]), job?, hj])

end Leaves

/-- An act leaves a record as it is, or changes it in one of the listed ways. -/
theorem job?_after (hf : x.engine.store.Filed) (h : x.Possible a) (id : JobId) :
    (x.after a).job? id = x.job? id ∨ ∃ r, (x.after a).job? id = r ∧ Change x id a r := by
  change x.Leaves a id
  cases a with
  | pick w => exact .pick hf w
  | succeed w => exact .succeed w
  | fail w error strategy => exact .fail w error strategy
  | lose w => exact .inl rfl
  | enqueue => exact .enqueue
  | fire c now next => exact .fire c now next
  | sweep batch => exact .sweep hf batch
  | read page => exact .read page
  | examine now j => exact .examine h now
  | delete retention => exact .delete retention
  | other s => exact .of_jobs_eq h

/-! ## Filing -/

/-- Every change stores a job under its own identifier. -/
theorem Change.id_eq {k : Job} (hf : x.engine.store.Filed) (h : Change x id a (some k)) :
    k.id = id := by
  cases h with
  | picked stored _ => exact (Job.id_execute).trans (hf id _ stored)
  | completed _ hid => exact hid
  | retried _ hid _ => exact hid
  | failed _ hid _ => exact hid
  | promoted stored _ => exact (Job.id_enqueue).trans (hf id _ stored)
  | derived hid => rfl
  | swept stored _ => exact (Job.id_rescue).trans (hf id _ stored)
  | rescued _ hid _ => exact hid

theorem filed_after (hf : x.engine.store.Filed) (h : x.Possible a) :
    (x.after a).engine.store.Filed := by
  intro id k hk
  rcases job?_after hf h id with hsame | ⟨r, hr, hchange⟩
  · exact hf id k (hsame.symm.trans hk)
  · obtain rfl : r = some k := hr.symm.trans hk
    exact hchange.id_eq hf

theorem filed_afterAll {acts : List Act} (hf : x.engine.store.Filed)
    (h : Runs Possible x acts) : (x.afterAll acts).engine.store.Filed :=
  h.preserves (P := fun x => x.engine.store.Filed) (fun _ _ => filed_after) hf

/-! ## Hands -/

theorem held_of_relieved {w : Nat} (h : a.relieved? = some w) : (x.after a).held w = none := by
  cases a with
  | succeed v | fail v error strategy =>
    obtain rfl : v = w := Option.some.inj h
    cases hv : x.held v with
    | none => simp [after, perform, hv]
    | some j => simp [after, perform, hv, hold]
  | lose v =>
    obtain rfl : v = w := Option.some.inj h
    simp [after, perform, hold]
  | _ => cases h

theorem held_of_not_relieved {w : Nat} (h : a.relieved? ≠ some w) (hp : a ≠ .pick w) :
    (x.after a).held w = x.held w := by
  cases a with
  | pick v =>
    have hw : w ≠ v := fun hw => hp (by rw [hw])
    simp [after, perform, hold, hw]
  | succeed v | fail v error strategy =>
    have hw : w ≠ v := fun hw => h (by rw [hw]; rfl)
    cases hv : x.held v <;> simp [after, perform, hv, hold, hw]
  | lose v =>
    have hw : w ≠ v := fun hw => h (by rw [hw]; rfl)
    simp [after, perform, hold, hw]
  | _ => rfl

/-- A worker with empty hands keeps them empty unless it picks. -/
theorem held_afterAll_eq_none {w : Nat} {acts : List Act} (h : x.held w = none)
    (hacts : .pick w ∉ acts) : (x.afterAll acts).held w = none := by
  induction acts generalizing x with
  | nil => exact h
  | cons a rest ih =>
    obtain ⟨hpick, hrest⟩ := List.ne_and_not_mem_of_not_mem_cons hacts
    refine ih ?_ hrest
    by_cases hrel : a.relieved? = some w
    · exact held_of_relieved hrel
    · rw [held_of_not_relieved hrel hpick.symm, h]

/-- What a worker has in hand after an act it had before, or it has just picked it. -/
theorem held_after {w : Nat} {k : Job} (hf : x.engine.store.Filed)
    (hk : (x.after a).held w = some k) :
    (x.held w = some k ∧ a.relieved? ≠ some w) ∨
      (a = .pick w ∧ ∃ j, x.job? j.id = some j ∧ j.state = .enqueued ∧
        k = j.execute x.engine.now ∧ (x.after a).job? j.id = some k) := by
  by_cases hrel : a.relieved? = some w
  · rw [held_of_relieved hrel] at hk
    cases hk
  by_cases hpick : a = .pick w
  · subst hpick
    rcases EngineState.pick_cases hf with ⟨t, ht, hs⟩ | ⟨j, t, hj, hq, ht, hs⟩
    · simp [after, perform, hold, ht] at hk
    · obtain rfl : j.execute x.engine.now = k := by simpa [after, perform, hold, ht] using hk
      refine .inr ⟨rfl, j, hj, hq, rfl, ?_⟩
      rw [job?_after_eq]
      simp only [perform, hold, ht, hs]
      exact Store.job?_saveJob_self
  · rw [held_of_not_relieved hrel hpick] at hk
    exact .inl ⟨hk, hrel⟩

/-! ## Pages -/

/-- What a janitor run reads is stored and executing. -/
theorem stored_of_mem_page {p : Page} {k : Job} (hf : x.engine.store.Filed) (hk : k ∈ x.page p) :
    x.job? k.id = some k ∧ k.state = .executing := by
  rcases x.engine.guarded_perform .getJobs
      (fun s => (s.getJobs { states := [.executing] } p, s)) with ⟨e, t, ht, -⟩ | ⟨t, ht, -⟩
  · simp only [page, Backend.getJobs, ht] at hk
    cases hk
  · simp only [page, Backend.getJobs, ht] at hk
    obtain ⟨hvalue, hadmits⟩ := Store.mem_of_mem_getJobs hk
    exact ⟨hf.job?_of_mem hvalue, by simpa [JobFilter.admits] using hadmits⟩

/-- What a janitor run has read was read before, or is stored. -/
theorem seen_after {k : Job} (hf : x.engine.store.Filed) (hk : k ∈ (x.after a).seen) :
    k ∈ x.seen ∨ x.job? k.id = some k := by
  cases a with
  | read page => exact (List.mem_append.1 hk).imp_right fun hread => (stored_of_mem_page hf hread).1
  | succeed w | fail w error strategy =>
    cases hw : x.held w <;> simp only [after, perform, hw, hold] at hk <;> exact .inl hk
  | _ => exact .inl hk

/-! ## Identifiers -/

theorem known_of_job?_after {j : Job} (h : (x.after a).job? id = some j) :
    id ∈ (x.after a).known :=
  List.mem_append_right _ (Table.mem_keys.2 ⟨j, h⟩)

theorem known_after (h : id ∈ x.known) : id ∈ (x.after a).known :=
  List.mem_append_left _ h

theorem known_afterAll {acts : List Act} (h : id ∈ x.known) : id ∈ (x.afterAll acts).known := by
  induction acts generalizing x with
  | nil => exact h
  | cons a rest ih => exact ih (known_after h)

/-- Every identifier under which a job is stored was noted. -/
theorem known_of_job?_afterAll {s : EngineState} {acts : List Act} {j : Job}
    (h : ((start s).afterAll acts).job? id = some j) : id ∈ ((start s).afterAll acts).known := by
  rcases List.eq_nil_or_concat acts with rfl | ⟨before, a, rfl⟩
  · exact Table.mem_keys.2 ⟨j, h⟩
  · rw [List.concat_eq_append, afterAll_append] at h ⊢
    exact known_of_job?_after h

/-! ## Causes -/

/-- A worker has the job in hand. -/
def Holds (x : World) (w : Nat) (id : JobId) : Prop := ∃ j, x.held w = some j ∧ j.id = id

/-- What act `a` is, and how the job stands, if it changes the record of a job that is known. -/
inductive Cause (x : World) (id : JobId) : Act → Prop where
  | pick {w : Nat} {k : Job} (stored : x.job? id = some k) (state : k.state = .enqueued) :
    Cause x id (.pick w)
  | outcome {a : Act} {w : Nat} (relieved : a.relieved? = some w) (holds : x.Holds w id) :
    Cause x id a
  | promotion {k : Job} (stored : x.job? id = some k) (awaiting : k.state.isAwaiting) :
    Cause x id .enqueue
  | rescue {a : Act} {k : Job} (janitor : a.ofJanitor) (stored : x.job? id = some k)
    (state : k.state = .executing) : Cause x id a
  /-- A janitor run read the job before its record changed. -/
  | outdated {now : Instant} {k : Job} (hid : k.id = id) (changed : x.job? id ≠ some k) :
    Cause x id (.examine now k)
  | deletion {retention : Option Duration} {k : Job} (stored : x.job? id = some k)
    (terminal : k.state.isTerminal) (gone : (x.after (.delete retention)).job? id = none) :
    Cause x id (.delete retention)

theorem cause_of_change (hf : x.engine.store.Filed) (h : x.Lawful a) (hknown : id ∈ x.known)
    (hne : (x.after a).job? id ≠ x.job? id) : Cause x id a := by
  rcases job?_after hf h.1 id with hsame | ⟨r, hr, hchange⟩
  · exact absurd hsame hne
  cases hchange with
  | picked stored ready => exact .pick stored ready
  | completed held hid => exact .outcome rfl ⟨_, held, hid⟩
  | retried held hid _ => exact .outcome rfl ⟨_, held, hid⟩
  | failed held hid _ => exact .outcome rfl ⟨_, held, hid⟩
  | promoted stored due => exact .promotion stored (Job.isAwaiting_of_isPromotable due)
  | derived hnew => exact absurd (hnew ▸ hknown) h.2
  | swept stored stale => exact .rescue rfl stored (Job.executing_of_isStale stale)
  | @rescued now k _ hid stale =>
    by_cases hk : x.job? id = some k
    · exact .rescue rfl hk (Job.executing_of_isStale stale)
    · exact .outdated hid hk
  | deleted stored terminal => exact .deletion stored terminal hr

end World

end JobEngine
