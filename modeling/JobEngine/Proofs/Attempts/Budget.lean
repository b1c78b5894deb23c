-- SUMMARY: What the attempts of a job do to its counters, and when its budget is spent.
import JobEngine.Proofs.Attempts.History

/-!
# The budget of a job

Each failed or lost attempt is charged to the job once. A failure is retried as long as fewer
attempts were charged than the budget admits; a loss never ends the job, and raises its budget when
that is spent.
-/

namespace JobEngine

/-- The job was charged with `n` attempts out of a budget of `m`. -/
structure Job.Charged (n m : Nat) (j : Job) : Prop where
  retries : j.retries.val = min (UInt32.size - 1) n
  budget : j.maxRetries.val = max m j.retries.val

namespace Job.Charged

variable {n : Nat} {m : Count} {j k : Job}

theorem congr (h : j.Charged n m.val) (hr : k.retries = j.retries)
    (hm : k.maxRetries = j.maxRetries) : k.Charged n m.val :=
  ⟨by rw [hr, h.retries], by rw [hm, hr, h.budget]⟩

/-- Losses raise the budget no further than to what was charged, so the retry test sees the budget
that the job began with. -/
theorem hasRetriesLeft_iff (h : j.Charged n m.val) : j.hasRetriesLeft = true ↔ n < m.val := by
  have hr := h.retries
  have hb := h.budget
  have hm := m.lt_limit
  rw [hasRetriesLeft_eq_true]
  omega

theorem hasRetriesLeft_eq_false (h : j.Charged n m.val) (hl : j.hasRetriesLeft = false) :
    m.val ≤ n := by
  have hnot : ¬ n < m.val := fun hlt => by simp [h.hasRetriesLeft_iff.2 hlt] at hl
  omega

theorem attempt_eq (h : j.Charged n m.val) : j.attempt = .ofNat (n + 1) := by
  apply Count.ext_val
  have hr := h.retries
  rw [Job.attempt, Count.val_succ]
  change _ = min (n + 1) (UInt32.size - 1)
  omega

theorem retryAt (h : j.Charged n m.val) (hl : j.hasRetriesLeft = true) (next : Instant) :
    (j.retryAt next).Charged (n + 1) m.val := by
  have hn := h.hasRetriesLeft_iff.1 hl
  have hm := m.lt_limit
  have hr := j.val_retries_retryAt next
  have hb : (j.retryAt next).maxRetries.val = max m.val j.retries.val := h.budget
  constructor <;> rw [h.retries] at * <;> omega

theorem rescue (h : j.Charged n m.val) (now : Instant) : (j.rescue now).Charged (n + 1) m.val := by
  have hretries := h.retries
  have hbudget := h.budget
  have hr := j.val_retries_rescue now
  cases hl : j.hasRetriesLeft with
  | true =>
    have hlt := hasRetriesLeft_eq_true.1 hl
    constructor
    · omega
    · rw [maxRetries_rescue_of_left hl]
      omega
  | false =>
    have hle := hasRetriesLeft_eq_false_iff.1 hl
    constructor
    · omega
    · rw [maxRetries_rescue_of_spent hl]
      omega

theorem of_success (h : j.Charged n m.val) (hl : AttemptEnd.success.Leaves j k) :
    k.state = .completed ∧ k.Charged n m.val := by
  cases hl with
  | completed now => exact ⟨rfl, h.congr rfl rfl⟩

theorem state_of_failure {error : TaskError} {strategy : RetryStrategy} {time : Instant}
    (h : j.Charged n m.val) (hl : (AttemptEnd.failure error strategy time).Leaves j k) :
    if n < m.val then k.state = .retryable else k.state = .failed := by
  cases hl with
  | retried left next =>
    rw [if_pos (h.hasRetriesLeft_iff.1 left)]
    rfl
  | failed left now =>
    rw [if_neg (Nat.not_lt.2 (h.hasRetriesLeft_eq_false left))]
    rfl

end Job.Charged

/-! ## Counting -/

/-- How many attempts of a log failed. -/
def failures (log : List AttemptEnd) : Nat := log.countP AttemptEnd.isFailure

/-- How many attempts of a log were lost. -/
def losses (log : List AttemptEnd) : Nat := log.countP AttemptEnd.isLoss

/-- The notes on a job that had been charged with `n` attempts before those of a log. -/
def notesOf (id : JobId) : Nat → List AttemptEnd → List JobMessage
  | _, [] => []
  | n, e :: rest => e.notes id (.ofNat (n + 1)) ++ notesOf id (n + failures [e] + losses [e]) rest

@[simp] theorem failures_append (l m : List AttemptEnd) :
    failures (l ++ m) = failures l + failures m :=
  List.countP_append

@[simp] theorem losses_append (l m : List AttemptEnd) : losses (l ++ m) = losses l + losses m :=
  List.countP_append

theorem failures_cons (e : AttemptEnd) (l : List AttemptEnd) :
    failures (e :: l) = failures [e] + failures l :=
  failures_append [e] l

theorem losses_cons (e : AttemptEnd) (l : List AttemptEnd) :
    losses (e :: l) = losses [e] + losses l :=
  losses_append [e] l

theorem notesOf_append (id : JobId) (n : Nat) (log : List AttemptEnd) (e : AttemptEnd) :
    notesOf id n (log ++ [e]) =
      notesOf id n log ++ e.notes id (.ofNat (n + failures log + losses log + 1)) := by
  induction log generalizing n with
  | nil => simp [notesOf, failures, losses]
  | cons a rest ih =>
    have hcount : n + failures [a] + losses [a] + failures rest + losses rest =
        n + failures (a :: rest) + losses (a :: rest) := by
      rw [failures_cons a rest, losses_cons a rest]
      omega
    rw [List.cons_append, notesOf, ih, hcount, notesOf, List.append_assoc]

/-- If every attempt failed, none was lost. -/
theorem losses_of_failures_eq {log : List AttemptEnd} (h : failures log = log.length) :
    losses log = 0 := by
  rw [losses, List.countP_eq_zero]
  intro e he
  have hfailed := List.countP_eq_length.1 h e he
  cases e <;> simp_all [AttemptEnd.isFailure, AttemptEnd.isLoss]

theorem failures_concat_eq_length {log : List AttemptEnd} {e : AttemptEnd}
    (h : failures (log ++ [e]) = (log ++ [e]).length) :
    failures log = log.length ∧ ∃ error strategy time, e = .failure error strategy time := by
  have hall := List.countP_eq_length.1 h
  refine ⟨List.countP_eq_length.2 fun a ha => hall a (List.mem_append_left _ ha), ?_⟩
  have he := hall e (List.mem_append_right _ List.mem_cons_self)
  cases e with
  | failure error strategy time => exact ⟨error, strategy, time, rfl⟩
  | success => cases he
  | loss => cases he

/-! ## Histories -/

variable {id : JobId} {r : Nat} {m : Count} {s t u v : EngineState} {log : List AttemptEnd}
  {e : AttemptEnd} {j k : Job}

/-- After the attempts of a log at `t`: a job that began at `s` with `r` attempts charged out of a
budget of `m` was charged with each failure and loss, and each failure was noted. -/
structure Accounted (id : JobId) (r : Nat) (m : Count) (s : EngineState) (log : List AttemptEnd)
    (t : EngineState) : Prop where
  filed : t.store.Filed
  messages : t.store.messagesOf id = s.store.messagesOf id ++ notesOf id r log
  record : ∃ k, t.store.job? id = some k ∧ (¬ k.state.isTerminal →
    k.Charged (r + failures log + losses log) m.val ∧
      (failures log = log.length → r + log.length ≤ m.val))

/-- One more attempt, seen from the job that its worker picked. -/
theorem Accounted.attempt (h : Accounted id r m s log t) (taken : TakenUp t j u) (hid : j.id = id)
    (ended : Ended j u e v) :
    j.Charged (r + failures log + losses log) m.val ∧
      (failures log = log.length → r + log.length ≤ m.val) ∧ v.store.Filed ∧
      v.store.messagesOf id = s.store.messagesOf id ++ notesOf id r (log ++ [e]) ∧
      ∃ k, v.store.job? id = some k ∧ e.Leaves j k := by
  subst hid
  obtain ⟨i, hi, hopen⟩ := h.record
  obtain ⟨hfiled, hj, -, hterminal, hretries, hbudget, hmessages⟩ := taken.record hi
  obtain ⟨hcharged, hfailing⟩ := hopen hterminal
  obtain ⟨hfiled', hleft, hnoted⟩ := ended.record hfiled hj
  have hj' := hcharged.congr hretries hbudget
  refine ⟨hj', hfailing, hfiled', ?_, hleft⟩
  rw [hnoted, hmessages, h.messages, notesOf_append, List.append_assoc, hj'.attempt_eq]

theorem Accounted.next (h : Accounted id r m s log t) (taken : TakenUp t j u) (hid : j.id = id)
    (ended : Ended j u e v) : Accounted id r m s (log ++ [e]) v := by
  obtain ⟨hcharged, hfailing, hfiled, hmessages, k, hk, hleaves⟩ := h.attempt taken hid ended
  refine ⟨hfiled, hmessages, k, hk, fun hopen => ?_⟩
  cases hleaves with
  | completed now => exact absurd rfl hopen
  | failed left now => exact absurd rfl hopen
  | @retried error strategy time left next =>
    have hleft := hcharged.hasRetriesLeft_iff.1 left
    have hone : failures [.failure error strategy time] = 1 := rfl
    have hnone : losses [.failure error strategy time] = 0 := rfl
    rw [failures_append, losses_append, hone, hnone, List.length_append, List.length_singleton]
    refine ⟨?_, fun hall => by omega⟩
    have hsum : r + (failures log + 1) + (losses log + 0) = r + failures log + losses log + 1 := by
      omega
    exact hsum ▸ hcharged.retryAt left next
  | rescued now =>
    have hnone : failures [.loss] = 0 := rfl
    have hone : losses [.loss] = 1 := rfl
    have hle : failures log ≤ log.length := List.countP_le_length
    rw [failures_append, losses_append, hone, hnone, List.length_append, List.length_singleton]
    exact ⟨hcharged.rescue now, fun hall => by omega⟩

theorem History.accounted (hf : s.store.Filed) (hj : s.store.job? id = some j)
    (hbudget : j.retries ≤ j.maxRetries) (h : History id s log t) :
    Accounted id j.retries.val j.maxRetries s log t := by
  induction h with
  | start =>
    have hle : j.retries.val ≤ j.maxRetries.val := hbudget
    have hlt := j.retries.lt_limit
    have hcharged : j.Charged j.retries.val j.maxRetries.val := by constructor <;> omega
    exact ⟨hf, (List.append_nil _).symm, j, hj, fun _ => ⟨hcharged, fun _ => hle⟩⟩
  | next _ taken hid ended ih => exact ih.next taken hid ended

/-- The last attempt of a history, from what its worker picked to the record that it left. -/
theorem History.last (hf : s.store.Filed) (hj : s.store.job? id = some j)
    (hbudget : j.retries ≤ j.maxRetries) (h : History id s (log ++ [e]) t) :
    ∃ i k, i.Charged (j.retries.val + failures log + losses log) j.maxRetries.val ∧
      (failures log = log.length → j.retries.val + log.length ≤ j.maxRetries.val) ∧
      t.store.job? id = some k ∧ e.Leaves i k := by
  generalize hlog : log ++ [e] = l at h
  cases h with
  | start => simp at hlog
  | next before taken hid ended =>
    obtain ⟨rfl, he⟩ := List.append_inj' hlog rfl
    obtain rfl := List.singleton_inj.1 he
    obtain ⟨hcharged, hfailing, -, -, k, hk, hleaves⟩ :=
      (before.accounted hf hj hbudget).attempt taken hid ended
    exact ⟨_, k, hcharged, hfailing, hk, hleaves⟩

/-- The counters of a job, how it ended and the notes on it, after any attempts. -/
theorem attempts_charged (hf : s.store.Filed) (hj : s.store.job? id = some j)
    (hbudget : j.retries ≤ j.maxRetries) (h : History id s log t) :
    ∃ k, t.store.job? id = some k ∧
      (¬ k.state.isTerminal →
        k.retries.val = min (UInt32.size - 1) (j.retries.val + failures log + losses log) ∧
          k.maxRetries.val = max j.maxRetries.val k.retries.val) ∧
      (∀ l, log = l ++ [.success] →
        k.state = .completed ∧
          k.retries.val = min (UInt32.size - 1) (j.retries.val + failures l + losses l) ∧
          k.maxRetries.val = max j.maxRetries.val k.retries.val) ∧
      (∀ l error strategy time, log = l ++ [.failure error strategy time] →
        if j.retries.val + failures l + losses l < j.maxRetries.val then k.state = .retryable
        else k.state = .failed) ∧
      (log ≠ [] → failures log = log.length →
        log.length ≤ j.maxRetries.val - j.retries.val + 1 ∧
          (k.state = .failed ↔ log.length = j.maxRetries.val - j.retries.val + 1)) ∧
      t.store.messagesOf id = s.store.messagesOf id ++ notesOf id j.retries.val log := by
  have hend := h.accounted hf hj hbudget
  obtain ⟨k, hk, hopen⟩ := hend.record
  have hlast : ∀ l e, log = l ++ [e] →
      ∃ i, i.Charged (j.retries.val + failures l + losses l) j.maxRetries.val ∧
        (failures l = l.length → j.retries.val + l.length ≤ j.maxRetries.val) ∧ e.Leaves i k := by
    rintro l e rfl
    obtain ⟨i, k', hcharged, hfailing, hk', hleaves⟩ := h.last hf hj hbudget
    obtain rfl : k' = k := Option.some.inj (hk'.symm.trans hk)
    exact ⟨i, hcharged, hfailing, hleaves⟩
  refine ⟨k, hk, fun ho => ⟨(hopen ho).1.retries, (hopen ho).1.budget⟩, ?success, ?failure,
    ?exhausted, hend.messages⟩
  case success =>
    intro l hl
    obtain ⟨i, hcharged, -, hleaves⟩ := hlast l _ hl
    obtain ⟨hstate, hk⟩ := hcharged.of_success hleaves
    exact ⟨hstate, hk.retries, hk.budget⟩
  case failure =>
    intro l error strategy time hl
    obtain ⟨i, hcharged, -, hleaves⟩ := hlast l _ hl
    exact hcharged.state_of_failure hleaves
  case exhausted =>
    intro hne hall
    obtain ⟨l, e, hl⟩ := (List.eq_nil_or_concat log).resolve_left hne
    rw [List.concat_eq_append] at hl
    subst hl
    obtain ⟨i, hcharged, hfailing, hleaves⟩ := hlast l e rfl
    obtain ⟨hl, error, strategy, time, rfl⟩ := failures_concat_eq_length hall
    have hstate := hcharged.state_of_failure hleaves
    have hbound := hfailing hl
    rw [hl, losses_of_failures_eq hl] at hstate
    rw [List.length_append, List.length_singleton]
    refine ⟨by omega, ?_⟩
    -- The attempts before the last one were retried, so they did not use up the budget.
    split at hstate
    · exact iff_of_false (by simp [hstate]) (by omega)
    · exact iff_of_true hstate (by omega)

/-! ## Three attempts -/

namespace LoneHistory

/-- The job as it is picked the first, the second and the third time. -/
def first : Job := loneJob.execute .epoch
def second : Job := (first.retryAt (.ofMillis 1000)).enqueue.execute (.ofMillis 2000)
def third : Job := (second.rescue (.ofMillis 1000000)).enqueue.execute (.ofMillis 1000000)

/-- The first attempt fails. -/
def running : EngineState := loneEngine.enqueueDue.2.pick.2
def failed : EngineState := (running.handleFailure first { message := "no data" } .linear).2

/-- The second attempt begins when the retry is due, and is lost. -/
def due : EngineState := { failed with now := .ofMillis 2000 }
def stuck : EngineState := { due.enqueueDue.2.pick.2 with now := .ofMillis 1000000 }
def reclaimed : EngineState := (EngineState.rescueStale 1000 stuck).2

/-- The third attempt succeeds. -/
def again : EngineState := reclaimed.enqueueDue.2.pick.2
def done : EngineState := (again.handleSuccess third).2

theorem history :
    History loneJob.id loneEngine
      [.failure { message := "no data" } .linear running.now, .loss, .success] done := by
  have hjob : loneEngine.store.job? loneJob.id = some loneJob := by decide +kernel
  have hbudget : loneJob.retries ≤ loneJob.maxRetries := by decide
  have hserving : running.Serving :=
    ⟨by decide +kernel, by unfold Backend.Faultless; decide +kernel, by decide +kernel⟩
  have hserving' : again.Serving :=
    ⟨by decide +kernel, by unfold Backend.Faultless; decide +kernel, by decide +kernel⟩
  have h₁ : History loneJob.id loneEngine
      [.failure { message := "no data" } .linear running.now] failed :=
    History.start.next
      (.of_calls filed_loneEngine rfl (show _ = some first by decide +kernel) rfl) rfl
      (.failure hserving _ _)
  have h₂ : History loneJob.id loneEngine
      [.failure { message := "no data" } .linear running.now, .loss] reclaimed :=
    h₁.next (.of_calls (h₁.accounted filed_loneEngine hjob hbudget).filed
      (show due.store = failed.store from rfl) (show _ = some second by decide +kernel)
      (show stuck.store = _ from rfl)) rfl (.loss (by decide +kernel))
  exact h₂.next (.of_calls (h₂.accounted filed_loneEngine hjob hbudget).filed rfl
    (show _ = some third by decide +kernel) rfl) rfl (.success hserving')

end LoneHistory

theorem lone_job_charged :
    ∃ k, LoneHistory.done.store.job? loneJob.id = some k ∧ k.state = .completed ∧
      k.retries.val = 2 ∧ k.maxRetries.val = 3 ∧
      LoneHistory.done.store.messagesOf loneJob.id =
        [.ofFailure loneJob.id { message := "no data" } 1 "linear" LoneHistory.running.now] := by
  obtain ⟨k, hk, -, hsuccess, -, -, hmessages⟩ :=
    attempts_charged filed_loneEngine (show _ = some loneJob by decide +kernel) (by decide)
      LoneHistory.history
  obtain ⟨hstate, hretries, hbudget⟩ := hsuccess [_, _] rfl
  have htwo : k.retries.val = 2 := hretries
  rw [htwo] at hbudget
  exact ⟨k, hk, hstate, htwo, hbudget, hmessages⟩

end JobEngine
