-- SUMMARY: The attempts of one job, from promotion and pick to their ends, and what each leaves.
import JobEngine.Proofs.Engine.Rescue

/-!
# The history of a job

An attempt of a job begins when the job is picked, and ends in one of three ways: its handler's
success or failure is stored, or it is lost and a janitor run reclaims the job. Between the calls
that make up an attempt anything may happen that leaves the job and the notes on it alone.
-/

namespace JobEngine

/-- The notes on a job, oldest first. -/
def Store.messagesOf (s : Store) (id : JobId) : List JobMessage :=
  s.messages.filter (·.jobId = id)

theorem Store.messagesOf_of_messages_eq {s t : Store} (h : t.messages = s.messages) (id : JobId) :
    t.messagesOf id = s.messagesOf id := by
  rw [messagesOf, h, messagesOf]

theorem Store.messagesOf_saveMessage {s : Store} {m : JobMessage} {id : JobId} (h : m.jobId = id) :
    (s.saveMessage m).messagesOf id = s.messagesOf id ++ [m] := by
  simp [messagesOf, saveMessage, h]

/-- How an attempt ends. -/
inductive AttemptEnd where
  | success
  | failure (error : TaskError) (strategy : RetryStrategy) (time : Instant)
  /-- The attempt is lost, and a janitor run reclaims the job. -/
  | loss

namespace AttemptEnd

def isFailure : AttemptEnd → Bool
  | .failure _ _ _ => true
  | _ => false

def isLoss : AttemptEnd → Bool
  | .loss => true
  | _ => false

end AttemptEnd

variable {id : JobId} {s t u v : EngineState} {j k : Job} {e : AttemptEnd}

/-- What happens from `s` to `t` leaves the record of a job and the notes on it as they are. -/
structure Untouched (id : JobId) (s t : EngineState) : Prop where
  filed : t.store.Filed
  record : t.store.job? id = s.store.job? id
  messages : t.store.messagesOf id = s.store.messagesOf id

theorem Untouched.of_store_eq (hf : s.store.Filed) (h : t.store = s.store) : Untouched id s t :=
  ⟨h ▸ hf, by rw [h], by rw [h]⟩

/-- From `s` to `t` the jobs that are due are promoted, and job `j` is picked. -/
def TakenUp (s : EngineState) (j : Job) (t : EngineState) : Prop :=
  ∃ a b, Untouched j.id s a ∧ Untouched j.id a.enqueueDue.2 b ∧ b.pick.1 = some j ∧
    Untouched j.id b.pick.2 t

/-- The attempt of `j` ends at `s`, which leaves `t`. -/
inductive Ended (j : Job) (s : EngineState) : AttemptEnd → EngineState → Prop where
  | success (serving : s.Serving) : Ended j s .success (s.handleSuccess j).2
  | failure (serving : s.Serving) (error : TaskError) (strategy : RetryStrategy) :
    Ended j s (.failure error strategy s.now) (s.handleFailure j error strategy).2
  | loss {batch : Nat}
    (rescued : (EngineState.rescueStale batch s).2.store.job? j.id ≠ s.store.job? j.id) :
    Ended j s .loss (EngineState.rescueStale batch s).2

/-- From `s` to `t` the attempts of a job ended as listed, oldest first. -/
inductive History (id : JobId) (s : EngineState) : List AttemptEnd → EngineState → Prop where
  | start : History id s [] s
  | next {log : List AttemptEnd} {t u v : EngineState} {j : Job} {e : AttemptEnd}
    (before : History id s log t) (taken : TakenUp t j u) (hid : j.id = id)
    (ended : Ended j u e v) : History id s (log ++ [e]) v

/-! ## Taking up -/

/-- Promotion changes nothing about a job but its state. -/
theorem enqueueDue_record (s : EngineState) (h : s.store.job? id = some k) :
    (s.enqueueDue.2.store.job? id = some k ∨
      k.state.isAwaiting ∧ s.enqueueDue.2.store.job? id = some k.enqueue) ∧
      s.enqueueDue.2.store.messagesOf id = s.store.messagesOf id := by
  rcases s.enqueueDue_store with hs | hs
  · rw [hs]
    exact ⟨.inl h, rfl⟩
  · rw [hs, Store.job?_enqueueJobs, h]
    refine ⟨?_, Store.messagesOf_of_messages_eq (Eq.refl _) id⟩
    simp only [Option.map_some]
    split
    · rename_i hdue
      exact .inr ⟨Job.isAwaiting_of_isPromotable hdue, rfl⟩
    · exact .inl rfl

theorem pick_record (hf : s.store.Filed) (h : s.pick.1 = some j) :
    ∃ k, s.store.job? j.id = some k ∧ k.state = .enqueued ∧ j = k.execute s.now ∧
      s.pick.2.store.job? j.id = some j ∧
      s.pick.2.store.messagesOf j.id = s.store.messagesOf j.id := by
  rcases EngineState.pick_cases hf with ⟨t, ht, -⟩ | ⟨k, t, hk, hq, ht, hs⟩
  · rw [ht] at h
    cases h
  · rw [ht] at h ⊢
    obtain rfl := Option.some.inj h
    refine ⟨k, hk, hq, rfl, ?_, ?_⟩
    · rw [hs]
      exact Store.job?_saveJob_self
    · rw [hs]
      exact Store.messagesOf_of_messages_eq (Eq.refl _) _

/-- The job that is taken up had not ended, and executes now with the counters it had. -/
theorem TakenUp.record (h : TakenUp s j t) (hk : s.store.job? j.id = some k) :
    t.store.Filed ∧ t.store.job? j.id = some j ∧ j.state = .executing ∧
      ¬ k.state.isTerminal ∧ j.retries = k.retries ∧ j.maxRetries = k.maxRetries ∧
      t.store.messagesOf j.id = s.store.messagesOf j.id := by
  obtain ⟨a, b, ha, hb, hpick, ht⟩ := h
  obtain ⟨henqueue, hmessages⟩ := enqueueDue_record a (ha.record.trans hk)
  obtain ⟨i, hi, hq, hj, hrecord, hpicked⟩ := pick_record hb.filed hpick
  have hnotes : t.store.messagesOf j.id = s.store.messagesOf j.id := by
    rw [ht.messages, hpicked, hb.messages, hmessages, ha.messages]
  have hexec : j.state = .executing := by rw [hj]; rfl
  refine ⟨ht.filed, ht.record.trans hrecord, hexec, ?_⟩
  rcases henqueue with hsame | ⟨hawait, hready⟩
  · obtain rfl : k = i := Option.some.inj (hsame.symm.trans (hb.record.symm.trans hi))
    exact ⟨by rw [hq]; decide, by rw [hj]; rfl, by rw [hj]; rfl, hnotes⟩
  · obtain rfl : k.enqueue = i := Option.some.inj (hready.symm.trans (hb.record.symm.trans hi))
    refine ⟨?_, by rw [hj]; rfl, by rw [hj]; rfl, hnotes⟩
    cases hs : k.state <;> simp_all [JobState.isAwaiting, JobState.isTerminal]

theorem TakenUp.of_calls {a : EngineState} (hf : s.store.Filed) (ha : a.store = s.store)
    (hj : a.enqueueDue.2.pick.1 = some j) (ht : t.store = a.enqueueDue.2.pick.2.store) :
    TakenUp s j t := by
  have hready : a.enqueueDue.2.store.Filed := by
    rcases a.enqueueDue_store with hs | hs <;> rw [hs, ha]
    · exact hf
    · exact hf.enqueueJobs
  exact ⟨a, _, .of_store_eq hf ha, .of_store_eq hready (Eq.refl _), hj,
    .of_store_eq (EngineState.filed_pick hready) ht⟩

/-! ## Ends -/

/-- The records that an end may leave of a job. -/
inductive AttemptEnd.Leaves (j : Job) : AttemptEnd → Job → Prop where
  | completed (now : Instant) : Leaves j .success (j.complete now)
  | retried {error : TaskError} {strategy : RetryStrategy} {time : Instant}
    (left : j.hasRetriesLeft = true) (next : Instant) :
    Leaves j (.failure error strategy time) (j.retryAt next)
  | failed {error : TaskError} {strategy : RetryStrategy} {time : Instant}
    (left : j.hasRetriesLeft = false) (now : Instant) :
    Leaves j (.failure error strategy time) (j.fail now)
  | rescued (now : Instant) : Leaves j .loss (j.rescue now)

/-- The notes that an end writes. -/
def AttemptEnd.notes (id : JobId) (attempt : Count) : AttemptEnd → List JobMessage
  | .failure error strategy time => [.ofFailure id error attempt strategy.name time]
  | _ => []

theorem Ended.record (h : Ended j s e t) (hf : s.store.Filed) (hj : s.store.job? j.id = some j) :
    t.store.Filed ∧ (∃ k, t.store.job? j.id = some k ∧ e.Leaves j k) ∧
      t.store.messagesOf j.id = s.store.messagesOf j.id ++ e.notes j.id j.attempt := by
  cases h with
  | success serving =>
    rw [serving.handleSuccess j]
    refine ⟨hf.saveJob, ⟨j.complete s.now, Store.job?_saveJob_self, .completed _⟩, ?_⟩
    exact (Store.messagesOf_of_messages_eq (Eq.refl _) _).trans (List.append_nil _).symm
  | failure serving error strategy =>
    rw [serving.handleFailure j error strategy]
    have hid := s.id_afterFailure j strategy
    refine ⟨fun id => hf.saveJob (j := (s.afterFailure j strategy).1) id, ?_, ?_⟩
    · refine ⟨(s.afterFailure j strategy).1, hid ▸ Store.job?_saveJob_self, ?_⟩
      rcases s.afterFailure_cases j strategy with ⟨hleft, next, hk⟩ | ⟨hleft, hk⟩
      · exact hk ▸ .retried hleft next
      · exact hk ▸ .failed hleft s.now
    · exact Store.messagesOf_saveMessage rfl
  | @loss batch rescued =>
    refine ⟨EngineState.filed_rescueStale hf batch, ?_, ?_⟩
    · rcases EngineState.rescueStale_records hf batch j.id with hsame | ⟨k, hk, -, hrescue⟩
      · exact absurd hsame rescued
      · obtain rfl : k = j := Option.some.inj (hk.symm.trans hj)
        exact ⟨_, hrescue, .rescued _⟩
    · refine (Store.messagesOf_of_messages_eq ?_ _).trans (List.append_nil _).symm
      exact EngineState.rescueStale_messages batch s

end JobEngine
