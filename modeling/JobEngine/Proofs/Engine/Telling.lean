-- SUMMARY: The events of an operation tell just the job records that it stored, in order.
import JobEngine.Proofs.Engine.Firing
import JobEngine.Proofs.Engine.Routines
import JobEngine.Proofs.Engine.Serving

/-!
# Records and events

Picking, applying an outcome, and the enqueue, cron and janitor commands store job records and tell
about them. They tell each record that they stored, as it then stood, and nothing else, whichever of
their storage calls fail or are refused. All but one tell it at once. A failed attempt is told one
call later, after its message was recorded or given up.
-/

namespace JobEngine

open Activity Routine

/-! ## What a storage call does -/

namespace StorageCall

/-- The answer of a call that succeeds, and what it makes of the records. A new job gets `id`. -/
def effect (now : Instant) (id : JobId) : (c : StorageCall) → Store → c.Answer × Store
  | .pickJob, x => x.pickJob now
  | .enqueueJobs, x => x.enqueueJobs now
  | .saveJob j, x => ((), x.saveJob j)
  | .saveNewJob draft, x => (draft id, x.saveJob (draft id))
  | .getJobs f page, x => (x.getJobs f page, x)
  | .getCrons, x => (x.cronList, x)
  | .saveCron c, x => ((), x.saveCron c)
  | .deleteJobs time, x => x.deleteJobs time
  | .saveMessage m, x => ((), x.saveMessage m)

/-- The job records that a call wrote, going by its answer. -/
def written : (c : StorageCall) → c.Answer → List Job
  | .pickJob, j => j.toList
  | .enqueueJobs, jobs => jobs
  | .saveJob j, _ => [j]
  | .saveNewJob _, j => [j]
  | .getJobs _ _, _ | .getCrons, _ | .saveCron _, _ | .deleteJobs _, _ | .saveMessage _, _ => []

end StorageCall

namespace EngineState

variable {s t u : EngineState} {l m : List Job} {j : Job} {e : EngineEvent}

/-- A call of a method fails and leaves the records, or has its effect. It tells nothing either way.
-/
theorem guarded_perform_events {α : Type} (s : EngineState) (method : StorageMethod)
    (op : Store → α × Store) :
    (∃ e t, s.guarded (·.perform method op) = (.error e, t) ∧ t.store = s.store ∧
        t.events = s.events) ∨
      ∃ t, s.guarded (·.perform method op) = (.ok (op s.store).1, t) ∧
        t.store = (op s.store).2 ∧ t.events = s.events := by
  rcases s.guarded_perform method op with ⟨e, t, ht, hs, -⟩ | ⟨t, ht, hs, -⟩
  · exact .inl ⟨e, t, ht, hs, guarded_events ht⟩
  · exact .inr ⟨t, ht, hs, guarded_events ht⟩

theorem dispatch_events (s : EngineState) (e : EngineEvent) :
    (s.dispatch e).events = s.events ++ [e] :=
  rfl

theorem request_events (s : EngineState) (c : StorageCall) : (s.request c).2.events = s.events :=
  guarded_events rfl

/-- A storage call fails and leaves the records, or has its effect. It tells nothing either way. -/
theorem request_cases (s : EngineState) (c : StorageCall) :
    (∃ e t, s.request c = (.error e, t) ∧ t.store = s.store ∧ t.events = s.events) ∨
      ∃ t, s.request c = (.ok (c.effect s.now s.nextJobId s.store).1, t) ∧
        t.store = (c.effect s.now s.nextJobId s.store).2 ∧ t.events = s.events := by
  cases c with
  | saveNewJob draft =>
    rcases s.guarded_saveNewJob draft with ⟨e, t, ht, hs⟩ | ⟨t, ht, hs, -⟩
    · exact .inl ⟨e, t, ht, hs, guarded_events ht⟩
    · exact .inr ⟨t, ht, hs, guarded_events ht⟩
  | pickJob => exact s.guarded_perform_events .pickJob (·.pickJob s.now)
  | enqueueJobs => exact s.guarded_perform_events .enqueueJobs (·.enqueueJobs s.now)
  | saveJob j => exact s.guarded_perform_events .saveJob fun x => ((), x.saveJob j)
  | getJobs f page => exact s.guarded_perform_events .getJobs fun x => (x.getJobs f page, x)
  | getCrons => exact s.guarded_perform_events .getCrons fun x => (x.cronList, x)
  | saveCron c => exact s.guarded_perform_events .saveCron fun x => ((), x.saveCron c)
  | deleteJobs time => exact s.guarded_perform_events .deleteJobs (·.deleteJobs time)
  | saveMessage m => exact s.guarded_perform_events .saveMessage fun x => ((), x.saveMessage m)

/-! ## Records that a step writes -/

/-- A step made a storage call that was answered and wrote these records, or no records changed. -/
inductive WriteCall (s t : EngineState) : List Job → Prop where
  | none (jobs : t.store.jobs = s.store.jobs) : WriteCall s t []
  | answered {c : StorageCall} {a : c.Answer} {u : EngineState} (request : s.request c = (.ok a, u))
    (after : t.store = u.store) : WriteCall s t (c.written a)

/-- From `s` to `t` a call wrote the records `l`: each is stored, and no others changed. -/
structure Writes (s t : EngineState) (l : List Job) : Prop where
  call : WriteCall s t l
  distinct : (l.map Job.id).Nodup
  stored : ∀ j ∈ l, t.store.job? j.id = some j
  others : ∀ id, id ∉ l.map Job.id → t.store.job? id = s.store.job? id

theorem Writes.none (h : t.store.jobs = s.store.jobs) : Writes s t [] where
  call := .none h
  distinct := .nil
  stored := by simp
  others := by
    intro id _
    rw [Store.job?, h]
    rfl

theorem Writes.single (hcall : WriteCall s t [j]) (h : t.store.jobs = (s.store.saveJob j).jobs) :
    Writes s t [j] where
  call := hcall
  distinct := by simp
  stored := by
    rw [List.forall_mem_singleton, Store.job?, h]
    exact Store.job?_saveJob_self
  others := by
    intro id hid
    rw [Store.job?, h]
    exact Store.job?_saveJob_of_ne (by simpa using hid)

/-- The steps of a log wrote the records `l`, in this order. -/
inductive Written : List (EngineState × EngineState) → List Job → Prop where
  | nil : Written [] []
  | cons {u v : EngineState} {log : List (EngineState × EngineState)} {l m : List Job}
    (first : Writes u v l) (later : Written log m) : Written ((u, v) :: log) (l ++ m)

variable {log : List (EngineState × EngineState)}

/-- While others leave the store alone, a record changes only when a step writes it. -/
theorem Written.others (h : Written log l) (hlinked : Linked Lull s log t) :
    ∀ id, id ∉ l.map Job.id → t.store.job? id = s.store.job? id := by
  induction h generalizing s with
  | nil =>
    intro id _
    have hlull : Lull s t := hlinked
    rw [hlull.store]
  | @cons u v log l m first later ih =>
    intro id hid
    rw [List.map_append, List.mem_append, not_or] at hid
    obtain ⟨around, hrest⟩ := hlinked
    rw [ih hrest id hid.2, first.others id hid.1, around.store]

/-- The step tells the records that it writes, and no others. -/
def Prompt (s t : EngineState) : Prop :=
  s.store.Filed → t.store.Filed ∧
    ∃ told, t.events = s.events ++ told ∧ Writes s t (told.filterMap EngineEvent.job?)

/-- Work of which each step tells what it writes tells just what it wrote. -/
theorem told_of_prompt (hlinked : Linked Lull s log t) (hsteps : ∀ x ∈ log, Prompt x.1 x.2)
    (hf : s.store.Filed) :
    ∃ told, t.events = s.events ++ told ∧ Written log (told.filterMap EngineEvent.job?) := by
  induction log generalizing s with
  | nil =>
    have hlull : Lull s t := hlinked
    exact ⟨[], by rw [hlull.events, List.append_nil], .nil⟩
  | cons x rest ih =>
    obtain ⟨around, hrest⟩ := hlinked
    obtain ⟨hx, hlater⟩ := List.forall_mem_cons.1 hsteps
    obtain ⟨hfiled, told, htold, hwrites⟩ := hx (around.store ▸ hf)
    obtain ⟨more, hmore, hwritten⟩ := ih hrest hlater hfiled
    refine ⟨told ++ more, ?_, ?_⟩
    · rw [hmore, htold, around.events, List.append_assoc]
    · rw [List.filterMap_append]
      exact .cons hwrites hwritten

/-! ## Calls and what follows them -/

theorem Prompt.silent (hjobs : t.store.jobs = s.store.jobs) (hevents : t.events = s.events) :
    Prompt s t := by
  intro hf
  refine ⟨fun id k hk => hf id k ?_, [], ?_, .none hjobs⟩
  · rwa [Store.job?, hjobs] at hk
  · rw [hevents, List.append_nil]

theorem Prompt.single (hcall : WriteCall s t [j]) (hjobs : t.store.jobs = (s.store.saveJob j).jobs)
    (hevents : t.events = s.events ++ [e]) (he : e.job? = some j) : Prompt s t := by
  intro hf
  refine ⟨fun id k hk => hf.saveJob (j := j) id k ?_, [e], hevents, ?_⟩
  · rwa [Store.job?, hjobs] at hk
  · rw [List.filterMap_cons_some he, List.filterMap_nil]
    exact .single hcall hjobs

/-- A storage call, together with what follows it at once, tells what it writes. -/
def PromptCall (c : StorageCall) (after : Except EngineError c.Answer → EngineState → EngineState) :
    Prop :=
  ∀ s, Prompt s (after (s.request c).1 (s.request c).2)

/-- A call that fails writes nothing, so only its answer matters. -/
theorem promptCall_onAnswer {c : StorageCall} {after : c.Answer → EngineState → EngineState}
    (h : ∀ s t, s.request c = (.ok (c.effect s.now s.nextJobId s.store).1, t) →
      t.store = (c.effect s.now s.nextJobId s.store).2 → t.events = s.events →
      Prompt s (after (c.effect s.now s.nextJobId s.store).1 t)) : PromptCall c (onAnswer after) := by
  intro s
  rcases s.request_cases c with ⟨e, t, ht, hs, he⟩ | ⟨t, ht, hs, he⟩
  · rw [ht]
    exact .silent (congrArg Store.jobs hs) he
  · rw [ht]
    exact h s t ht hs he

/-- A call that leaves the job records alone. -/
theorem promptCall_id {c : StorageCall}
    (h : ∀ now id x, (c.effect now id x).2.jobs = x.jobs) : PromptCall c (onAnswer fun _ => id) := by
  apply promptCall_onAnswer
  intro s t ht hs he
  exact .silent (by rw [id, hs, h]) he

theorem promptCall_saveJob (he : e.job? = some j) :
    PromptCall (.saveJob j) (onAnswer fun _ => (·.dispatch e)) := by
  apply promptCall_onAnswer
  intro s t ht hs hevents
  exact .single (.answered ht rfl) (congrArg Store.jobs hs) (congrArg (· ++ _) hevents) he

theorem promptCall_saveNewJob {draft : JobId → Job} {event : Job → EngineEvent}
    (he : ∀ j, (event j).job? = some j) :
    PromptCall (.saveNewJob draft) (onAnswer fun j => (·.dispatch (event j))) := by
  apply promptCall_onAnswer
  intro s t ht hs hevents
  exact .single (.answered ht rfl) (congrArg Store.jobs hs) (congrArg (· ++ _) hevents) (he _)

/-- The promoted jobs, as the enqueue command answers them and as they are stored. -/
theorem writes_enqueueJobs {now : Instant} (hf : s.store.Filed)
    (hcall : WriteCall s t (s.store.enqueueJobs now).1)
    (h : t.store = (s.store.enqueueJobs now).2) : Writes s t (s.store.enqueueJobs now).1 := by
  have hperm : (s.store.enqueueJobs now).1.Perm
      ((s.store.jobs.values.filter (·.isPromotable now)).map Job.enqueue) := List.mergeSort_perm _ _
  have hids : (s.store.enqueueJobs now).1.map Job.id |>.Perm
      ((s.store.jobs.values.filter (·.isPromotable now)).map Job.id) := by
    have hmap := hperm.map Job.id
    rwa [List.map_map] at hmap
  refine ⟨hcall, ?distinct, ?stored, ?others⟩
  case distinct =>
    exact hids.nodup_iff.2 (hf.ids_nodup.sublist (List.filter_sublist.map _))
  case stored =>
    intro k hk
    obtain ⟨j, hj, rfl⟩ := List.mem_map.1 (hperm.mem_iff.1 hk)
    obtain ⟨hmem, hpromotable⟩ := List.mem_filter.1 hj
    rw [h, Store.job?_enqueueJobs, Job.id_enqueue, hf.job?_of_mem hmem, Option.map_some,
      if_pos hpromotable]
  case others =>
    intro id hid
    rw [h, Store.job?_enqueueJobs]
    cases hj : s.store.job? id with
    | none => rfl
    | some j =>
      have hnot : ¬ j.isPromotable now := by
        intro hpromotable
        apply hid
        rw [hids.mem_iff, ← hf id j hj]
        exact List.mem_map_of_mem
          (List.mem_filter.2 ⟨Store.mem_values_of_job? hj, hpromotable⟩)
      rw [Option.map_some, if_neg hnot]

theorem promptCall_enqueueJobs :
    PromptCall .enqueueJobs
      (onAnswer fun jobs s => jobs.foldl (fun s j => s.dispatch (.jobEnqueued j)) s) := by
  apply promptCall_onAnswer
  intro s t ht hs he hf
  simp only [StorageCall.effect] at ht hs ⊢
  have hsame := foldl_dispatch_store .jobEnqueued (s.store.enqueueJobs s.now).1 t
  have hstore := hsame.trans hs
  refine ⟨?_, (s.store.enqueueJobs s.now).1.map .jobEnqueued, ?_, ?_⟩
  · rw [hstore]
    exact hf.enqueueJobs
  · rw [foldl_dispatch_events, he]
  · rw [List.filterMap_map]
    have hsome : (EngineEvent.job? ∘ EngineEvent.jobEnqueued) = some := rfl
    rw [hsome, List.filterMap_some]
    exact writes_enqueueJobs hf (.answered ht hsame) hstore

theorem promptCall_pickJob : PromptCall .pickJob (onAnswer tellPicked) := by
  apply promptCall_onAnswer
  intro s t ht hs he hf
  simp only [StorageCall.effect] at ht hs ⊢
  rcases hf.pickJob_cases s.now with hp | ⟨j, -, -, hp⟩
  · rw [hp] at hs ⊢
    exact Prompt.silent (congrArg Store.jobs hs) he hf
  · rw [hp] at ht hs ⊢
    exact Prompt.single (.answered ht rfl) (congrArg Store.jobs hs) (congrArg (· ++ _) he) rfl hf

/-! ## Failed attempts -/

theorem job?_failureEvent (retried : Bool) (j : Job) (error : TaskError) :
    (failureEvent retried j error).job? = some j := by
  cases retried <;> rfl

/-- The record of a failed attempt is told after its message was saved or given up. -/
theorem told_of_failure {error : TaskError} {strategy : RetryStrategy}
    {answer : Except EngineError Job}
    (h : Interrupted Lull (Routine.handleFailure j error strategy).work s log answer t) :
    ∃ told, t.events = s.events ++ told ∧ Written log (told.filterMap EngineEvent.job?) := by
  cases h with
  | @step _ _ _ u _ rest _ around later =>
    have hstore : (u.afterFailure j strategy).2.store = u.store :=
      congrArg Backend.store (u.afterFailure_backend j strategy)
    have hdrawn : Writes u (u.afterFailure j strategy).2 [] := .none (congrArg Store.jobs hstore)
    have hevents := (u.afterFailure_events j strategy).trans around.events
    obtain ⟨v, later, pause, rfl, hsaved⟩ := interrupted_call later
    rcases v.request_cases (.saveJob (u.afterFailure j strategy).1) with
      ⟨e, w, hw, hs, he⟩ | ⟨w, hw, hs, he⟩
    · -- The record could not be stored.
      rw [hw] at hsaved ⊢
      cases hsaved with
      | done last =>
        refine ⟨[], ?_, .cons hdrawn (.cons (.none (congrArg Store.jobs hs)) .nil)⟩
        rw [last.events, onAnswer, id, he, pause.events, hevents, List.append_nil]
    · rw [hw] at hsaved ⊢
      obtain ⟨x, later, pause', rfl, hnoted⟩ := interrupted_call hsaved
      cases hnoted with
      | done last =>
        have hsilent := x.request_events
          (.saveMessage (.ofFailure j.id error j.attempt strategy.name u.now))
        refine ⟨[failureEvent j.hasRetriesLeft (u.afterFailure j strategy).1 error], ?_, ?_⟩
        · rw [last.events, dispatch_events, hsilent, pause'.events, onAnswer, id, he, pause.events,
            hevents]
        · rw [List.filterMap_cons_some (job?_failureEvent _ _ _)]
          have hsaved : Writes v w [(u.afterFailure j strategy).1] :=
            .single (.answered hw rfl) (congrArg Store.jobs hs)
          have hnoted (m : JobMessage) (e : EngineEvent) :
              Writes x ((x.request (.saveMessage m)).2.dispatch e) [] :=
            .none (x.guarded_saveMessage_jobs m)
          exact .cons hdrawn (.cons hsaved (.cons (hnoted _ _) .nil))

end EngineState

/-! ## Operations -/

/-- The operations that store job records. -/
inductive Operation where
  | pick
  | success (j : Job)
  | failure (j : Job) (error : TaskError) (strategy : RetryStrategy)
  | enqueue
  | cron
  | janitor (batch : Nat)

namespace Operation

/-- What an operation answers. -/
def Answer : Operation → Type
  | .pick => Option Job
  | .success _ | .failure _ _ _ => Except EngineError Job
  | .enqueue | .cron | .janitor _ => Except EngineError Unit

def run : (o : Operation) → EngineState → o.Answer × EngineState
  | .pick, s => s.pick
  | .success j, s => s.handleSuccess j
  | .failure j error strategy, s => s.handleFailure j error strategy
  | .enqueue, s => s.enqueueDue
  | .cron, s => s.fireDueCrons
  | .janitor batch, s => EngineState.rescueStale batch s

/-- The operation call by call. -/
def routine (more : Nat) : (o : Operation) → Routine o.Answer
  | .pick => Routine.pick
  | .success j => Routine.handleSuccess j
  | .failure j error strategy => Routine.handleFailure j error strategy
  | .enqueue => Routine.enqueueDue
  | .cron => Routine.fireDueCrons
  | .janitor batch => Routine.rescueStale batch more

theorem routine_alone (o : Operation) : (o.routine 0).work.SameAlone (act o.run .done) := by
  cases o with
  | pick => exact pick_alone
  | success j => exact handleSuccess_alone j
  | failure j error strategy => exact handleFailure_alone j error strategy
  | enqueue => exact enqueueDue_alone
  | cron => exact fireDueCrons_alone
  | janitor batch => exact rescueStale_alone batch

end Operation

open EngineState

variable {s t : EngineState} {log : List (EngineState × EngineState)}

theorem Operation.told_of_routine (o : Operation) {more : Nat} {answer : o.Answer}
    (hf : s.store.Filed) (h : Interrupted Lull (o.routine more).work s log answer t) :
    ∃ told, t.events = s.events ++ told ∧ Written log (told.filterMap EngineEvent.job?) := by
  have hprompt (hroutine : (o.routine more).Each (fun f => ∀ s, Prompt s (f s)) PromptCall) :=
    told_of_prompt h.linked (h.always hroutine.always) hf
  have hlook (s : EngineState) : Prompt s (id s) := .silent rfl rfl
  cases o with
  | failure j error strategy => exact told_of_failure h
  | pick => exact hprompt ⟨promptCall_pickJob, by rintro (e | j) <;> trivial⟩
  | success j =>
    exact hprompt ⟨hlook, fun s => ⟨promptCall_saveJob rfl, by rintro (e | a) <;> trivial⟩⟩
  | enqueue => exact hprompt ⟨promptCall_enqueueJobs, by rintro (e | a) <;> trivial⟩
  | cron =>
    exact hprompt (each_fireDueCrons hlook (promptCall_id fun _ _ _ => rfl)
      (fun e s => .silent rfl rfl) (fun c => promptCall_id fun _ _ _ => rfl)
      fun c now => promptCall_saveNewJob fun j => rfl)
  | janitor batch =>
    exact hprompt (each_rescueStale hlook (fun f page => promptCall_id fun _ _ _ => rfl)
      (fun j now => promptCall_saveJob rfl) batch more)

/-- Whichever calls of an operation fail or are refused, its events tell just the job records that it
stored, one by one and in order, and each as it was stored; all other records are as before. -/
theorem events_tell_written (o : Operation) (hf : s.store.Filed) :
    (o.routine 0).work.SameAlone (act o.run .done) ∧
    ∀ more log answer t, Interrupted Lull (o.routine more).work s log answer t →
      ∃ told, t.events = s.events ++ told ∧
        Written log (told.filterMap EngineEvent.job?) ∧
        ∀ id, id ∉ (told.filterMap EngineEvent.job?).map Job.id →
          t.store.job? id = s.store.job? id := by
  refine ⟨o.routine_alone, ?_⟩
  intro more log answer t h
  obtain ⟨told, htold, hwritten⟩ := o.told_of_routine hf h
  exact ⟨told, htold, hwritten, hwritten.others h.linked⟩

/-! ## A sweep that stops -/

def lapsedJob : Job := { loneJob.execute .epoch with id := Uuid.ofNat 2 }

/-- The attempt of one job is lost, and another job is ready. The second page cannot be read. -/
def lapsed : EngineState where
  now := .ofMillis 1000000
  backend := {
    store := (Store.saveJob {} loneJob).saveJob lapsedJob
    faults := [⟨.getJobs, 1, 1, "no connection"⟩] }
  breaker := { name := "storage", settings := .default }

/-- The sweep stores and tells the job that it reclaims before it stops. -/
theorem lapsed_told :
    ∃ log answer t, Interrupted Lull ((Operation.janitor 1).routine 0).work lapsed log answer t ∧
      t.events = [.jobRescued (lapsedJob.rescue lapsed.now)] ∧
      Written log [lapsedJob.rescue lapsed.now] ∧
      t.store.job? loneJob.id = lapsed.store.job? loneJob.id := by
  have hf : lapsed.store.Filed := Store.Filed.saveJob (Store.Filed.saveJob fun _ _ h => by cases h)
  have hevents : ((Operation.janitor 1).run lapsed).2.events =
      [.jobRescued (lapsedJob.rescue lapsed.now)] := by decide +kernel
  obtain ⟨halone, hruns⟩ := events_tell_written (.janitor 1) hf
  obtain ⟨log, hlog⟩ := interrupted_of_run (R := Lull) Lull.refl (halone 0 lapsed)
  obtain ⟨told, htold, hwritten, hothers⟩ := hruns 0 _ _ _ hlog
  obtain rfl : told = _ := htold.symm.trans hevents
  exact ⟨log, _, _, hlog, hevents, hwritten, hothers _ (by decide +kernel)⟩

end JobEngine
