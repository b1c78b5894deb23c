-- SUMMARY: A purge removes the jobs that finished a retention period ago, and their messages.
import JobEngine.Proofs.Engine.Idle
import JobEngine.Proofs.Time.Saturation
import JobEngine.Retention

/-!
# Purging

The delete command goes by a retention period that counts in whole minutes. While the storage serves,
it removes the jobs that left the lifecycle longer ago than that, together with their messages, and
says how many there were. What it keeps, it keeps with all its messages.
-/

namespace JobEngine

/-! ## Retention periods -/

namespace Retention

/-- The seconds that a retention of `secs` seconds counts for. -/
def wholeSeconds (secs : Nat) : Nat := max 60 (60 * (secs / 60))

theorem lt_iff_nanos_lt {a b : Duration} : a < b ↔ a.nanos < b.nanos := Iff.rfl

theorem nanos_wholeMinutes (d : Duration) :
    (wholeMinutes d).nanos = wholeSeconds d.secs * 1000000000 := by
  have hcut : (Duration.ofSecs (d.secs / 60 * 60)).nanos = d.secs / 60 * 60 * 1000000000 :=
    Duration.nanos_ofSecs (Nat.lt_of_le_of_lt (Nat.div_mul_le_self _ _) d.secs_lt)
  have hminimum : minimum.nanos = 60 * 1000000000 := by decide
  simp only [wholeMinutes, wholeSeconds, lt_iff_nanos_lt, apply_ite Duration.nanos, hcut, hminimum]
  split <;> omega

theorem parse_eq_some {text : String} {period : Duration} (h : parse text = .ok (some period)) :
    ∃ d, Duration.parse (trimmed text) = .ok d ∧ period = wholeMinutes d := by
  simp only [parse] at h
  split at h
  · cases h
  · split at h
    · rename_i d hd
      cases h
      exact ⟨d, hd, rfl⟩
    · cases h

end Retention

/-! ## Outlived jobs -/

namespace Job

variable {j : Job} {now : Instant}

/-- The job left the lifecycle more than `secs` seconds ago. -/
def Outlived (j : Job) (secs : Nat) (now : Instant) : Prop :=
  (j.state = .completed ∨ j.state = .failed ∨ j.state = .discarded) ∧
    ∃ finished, (j.completedAt.or (j.failedAt.or j.discardedAt)) = some finished ∧
      finished.nanos + secs * 1000000000 < now.nanos

theorem isTerminal_iff : j.state.isTerminal = true ↔
    j.state = .completed ∨ j.state = .failed ∨ j.state = .discarded := by
  cases j.state <;> simp [JobState.isTerminal]

theorem finishedAt_eq : j.finishedAt = j.completedAt.or (j.failedAt.or j.discardedAt) := by
  unfold finishedAt
  cases j.completedAt with
  | some time => rfl
  | none => cases j.failedAt <;> rfl

theorem isExpired_iff {time : Instant} : j.isExpired time = true ↔
    j.state.isTerminal = true ∧ ∃ finished, j.finishedAt = some finished ∧ finished < time := by
  rw [isExpired, Bool.and_eq_true]
  cases j.finishedAt <;> simp

/-- Counting back from now comes to the same as counting on from the end of the job, also where the
calendar ends. -/
theorem isExpired_sub_iff {period : Duration} : j.isExpired (now.sub period) = true ↔
    j.state.isTerminal = true ∧ ∃ finished, j.finishedAt = some finished ∧
      finished.nanos + period.nanos < now.nanos := by
  simp only [isExpired_iff, Instant.lt_sub_iff]

theorem isExpired_sub_iff_outlived {period : Duration} {secs : Nat}
    (hperiod : period.nanos = secs * 1000000000) :
    j.isExpired (now.sub period) = true ↔ j.Outlived secs now := by
  rw [isExpired_sub_iff, isTerminal_iff, finishedAt_eq, Outlived, hperiod, Int.natCast_mul]
  rfl

end Job

/-! ## Purges of a store -/

namespace Store

variable {s t : Store} {gone : List Job} {time : Instant}

/-- Removing the jobs `gone` from `s` with their messages leaves `t`. -/
structure Purge (s : Store) (gone : List Job) (t : Store) : Prop where
  ids_nodup : (gone.map Job.id).Nodup
  job? : ∀ id, t.job? id = if id ∈ gone.map Job.id then none else s.job? id
  crons : t.crons = s.crons
  messages : t.messages = s.messages.filter fun m => m.jobId ∉ gone.map Job.id

/-- The jobs that left the lifecycle before `time`. -/
def expired (s : Store) (time : Instant) : List Job := s.jobs.values.filter (·.isExpired time)

theorem Filed.mem_expired (hf : s.Filed) {j : Job} :
    j ∈ s.expired time ↔ s.job? j.id = some j ∧ j.isExpired time = true := by
  rw [expired, List.mem_filter]
  exact and_congr_left fun _ => ⟨hf.job?_of_mem, mem_values_of_job?⟩

theorem deleteJobs_fst (s : Store) (time : Instant) :
    (s.deleteJobs time).1 = (s.expired time).length := by
  simp only [deleteJobs]
  split
  · rename_i hnone
    rw [expired, List.isEmpty_iff.1 hnone]
    rfl
  · rfl

theorem messages_deleteJobs (s : Store) (time : Instant) : (s.deleteJobs time).2.messages =
    s.messages.filter fun m => m.jobId ∉ (s.expired time).map Job.id := by
  simp only [deleteJobs]
  split
  · rename_i hnone
    rw [expired, List.isEmpty_iff.1 hnone]
    simp
  · refine List.filter_congr fun m _ => ?_
    rw [Bool.eq_iff_iff]
    simp [expired]

theorem Filed.purge (hf : s.Filed) (time : Instant) :
    s.Purge (s.expired time) (s.deleteJobs time).2 := by
  refine ⟨hf.ids_nodup.sublist (List.filter_sublist.map _), fun id => ?_, s.crons_deleteJobs time,
    s.messages_deleteJobs time⟩
  rw [job?_deleteJobs]
  split
  · rename_i hmem
    obtain ⟨j, hj, rfl⟩ := List.mem_map.1 hmem
    obtain ⟨hstored, hexpired⟩ := hf.mem_expired.1 hj
    rw [hstored, Option.filter_some_neg (by simp [hexpired])]
  · rename_i hnot
    cases hstored : s.job? id with
    | none => rfl
    | some j =>
      refine Option.filter_some_pos ?_
      rw [Bool.not_eq_true', Bool.eq_false_iff]
      intro hexpired
      have hid := hf id j hstored
      exact hnot (List.mem_map.2 ⟨j, hf.mem_expired.2 ⟨by rwa [hid], hexpired⟩, hid⟩)

/-- A stored job is removed if it expired, and is kept as it is otherwise. -/
theorem Purge.job?_of_expired (h : s.Purge (s.expired time) t) (hf : s.Filed) {j : Job}
    (hj : s.job? j.id = some j) :
    t.job? j.id = if j.isExpired time then none else some j := by
  have hmem : j.id ∈ (s.expired time).map Job.id ↔ j.isExpired time = true := by
    constructor
    · intro hid
      obtain ⟨k, hk, hsame⟩ := List.mem_map.1 hid
      obtain ⟨hstored, hexpired⟩ := hf.mem_expired.1 hk
      rw [hsame, hj] at hstored
      rwa [Option.some.inj hstored]
    · exact fun hexpired => List.mem_map_of_mem (hf.mem_expired.2 ⟨hj, hexpired⟩)
  rw [h.job?, hj]
  simp only [hmem]

/-- A job that is kept keeps its messages. -/
theorem Purge.messages_of_kept (h : s.Purge gone t) {id : JobId} {j : Job}
    (hkept : t.job? id = some j) :
    t.messages.filter (·.jobId = id) = s.messages.filter (·.jobId = id) := by
  have hnot : id ∉ gone.map Job.id := by
    intro hmem
    rw [h.job?, if_pos hmem] at hkept
    cases hkept
  rw [h.messages, List.filter_filter]
  refine List.filter_congr fun m _ => ?_
  rw [Bool.eq_iff_iff]
  simp only [Bool.and_eq_true, decide_eq_true_eq]
  refine and_iff_left_of_imp ?_
  rintro rfl
  exact hnot

/-- Only messages that were about no job before are about no job afterwards. -/
theorem Purge.orphan_of_orphan (h : s.Purge gone t) {m : JobMessage} (hm : m ∈ t.messages)
    (horphan : t.job? m.jobId = none) : m ∈ s.messages ∧ s.job? m.jobId = none := by
  rw [h.messages, List.mem_filter, decide_eq_true_eq] at hm
  rw [h.job?, if_neg hm.2] at horphan
  exact ⟨hm.1, horphan⟩

end Store

/-! ## The delete command -/

namespace EngineState

variable {s : EngineState}

theorem Serving.deleteExpired_purges (h : s.Serving) (hf : s.store.Filed) (period : Duration) :
    ∃ t, EngineState.deleteExpired (some period) s = (.ok (), t) ∧ Steady s t ∧
      s.store.Purge (s.store.expired (s.now.sub period)) t.store ∧
      t.events = s.events ++
        if s.store.expired (s.now.sub period) = [] then []
        else [.jobsDeleted (s.store.expired (s.now.sub period)).length (s.now.sub period)] := by
  obtain ⟨t, ht, hsteady, hstore, hevents⟩ := h.deleteExpired period
  refine ⟨t, ht, hsteady, ?_, ?_⟩
  · rw [hstore]
    exact hf.purge _
  · rw [hevents, Store.deleteJobs_fst]
    split
    · rename_i hpos
      rw [if_neg (List.ne_nil_of_length_pos hpos)]
    · rename_i hzero
      rw [if_pos (List.eq_nil_of_length_eq_zero (by omega))]

/-- The delete command runs by a retention text of `d.secs` seconds. While the storage serves, it
removes the jobs that finished more than that many seconds ago, cut to whole minutes and at least one
of them, with their messages and no other. It says how many there were if there were any, and running
it again at the same time changes nothing. -/
theorem deleteExpired_purges_outlived {text : String} {period : Duration}
    (hparse : Retention.parse text = .ok (some period)) (h : s.Serving) (hf : s.store.Filed) :
    ∃ d, Duration.parse (trimmed text) = .ok d ∧
    ∃ gone t, deleteExpired (some period) s = (.ok (), t) ∧ t.now = s.now ∧
      (∀ j, j ∈ gone ↔ s.store.job? j.id = some j ∧
        j.Outlived (max 60 (60 * (d.secs / 60))) s.now) ∧
      s.store.Purge gone t.store ∧
      (∀ id j, t.store.job? id = some j →
        t.store.messages.filter (·.jobId = id) = s.store.messages.filter (·.jobId = id)) ∧
      (∀ m ∈ t.store.messages, t.store.job? m.jobId = none →
        m ∈ s.store.messages ∧ s.store.job? m.jobId = none) ∧
      t.events = s.events ++
        (if gone = [] then [] else [.jobsDeleted gone.length (s.now.sub period)]) ∧
      ∃ u, deleteExpired (some period) t = (.ok (), u) ∧ Steady t u ∧ Idle t u := by
  obtain ⟨d, hd, rfl⟩ := Retention.parse_eq_some hparse
  have hnanos := Retention.nanos_wholeMinutes d
  obtain ⟨t, ht, hsteady, hpurge, hevents⟩ := h.deleteExpired_purges hf (Retention.wholeMinutes d)
  obtain ⟨v, hv, -, hstore, -⟩ := h.deleteExpired (Retention.wholeMinutes d)
  obtain ⟨-, rfl⟩ := Prod.mk.inj (ht.symm.trans hv)
  -- What the first run leaves is no work for the second one, whose time is the same.
  have hnone : t.store.NoneExpired t.now (some (Retention.wholeMinutes d)) := by
    rw [hstore, hsteady.now]
    exact Store.noneExpired_deleteJobs
  obtain ⟨u, hu, hagain, hidle⟩ := hsteady.serving.deleteExpired_idle hnone
  refine ⟨d, hd, _, t, ht, hsteady.now, fun j => ?_, hpurge, fun _ _ => hpurge.messages_of_kept,
    fun _ => hpurge.orphan_of_orphan, hevents, u, hu, hagain, hidle⟩
  rw [hf.mem_expired, Job.isExpired_sub_iff_outlived hnanos]
  rfl

/-! ## Jobs on both sides of the retention period -/

/-- A note about a job. -/
def noteOn (id : Nat) : JobMessage where
  jobId := Uuid.ofNat id
  level := .info
  message := "finished"
  createdAt := .epoch

/-- One job finished more than two minutes ago, one just two minutes ago, and one is completed but
nobody wrote down when. There are notes about the first two and about a job that is not stored. -/
def finishedJobs : EngineState where
  now := .ofMillis 120001
  backend := {
    store := ((Store.saveJob { messages := [noteOn 1, noteOn 2, noteOn 9, noteOn 1] }
      (loneJob.complete .epoch)).saveJob
      { loneJob.fail (.ofMillis 1) with id := Uuid.ofNat 2 }).saveJob
      { loneJob with id := Uuid.ofNat 3, state := .completed } }
  breaker := { name := "storage", settings := .default }

theorem finishedJobs_purged :
    Retention.parse " 150s" = .ok (some (.ofSecs 120)) ∧
    ∃ gone t, deleteExpired (some (.ofSecs 120)) finishedJobs = (.ok (), t) ∧
      (∀ j, j ∈ gone ↔ finishedJobs.store.job? j.id = some j ∧ j.Outlived 120 finishedJobs.now) ∧
      finishedJobs.store.Purge gone t.store ∧ t.store.messages = [noteOn 2, noteOn 9] ∧
      t.events = [.jobsDeleted 1 (.ofMillis 1)] := by
  have hparse : Retention.parse " 150s" = .ok (some (.ofSecs 120)) := by rfl
  have hfaultless : finishedJobs.backend.Faultless := fun _ hfault => by cases hfault
  have hjobs : finishedJobs.store.Filed :=
    .saveJob (.saveJob (.saveJob fun _ _ h => by cases h))
  obtain ⟨d, hd, gone, t, ht, -, hmem, hpurge, -⟩ :=
    deleteExpired_purges_outlived hparse ⟨rfl, hfaultless, rfl⟩ hjobs
  have hsecs : (Duration.parse (trimmed " 150s")).toOption.map Duration.secs = some 150 := by rfl
  rw [hd] at hsecs
  rw [Option.some.inj hsecs] at hmem
  have hend : (deleteExpired (some (.ofSecs 120)) finishedJobs).2.store.messages =
      [noteOn 2, noteOn 9] ∧ (deleteExpired (some (.ofSecs 120)) finishedJobs).2.events =
      [.jobsDeleted 1 (.ofMillis 1)] := by decide +kernel
  rw [ht] at hend
  exact ⟨hparse, gone, t, ht, hmem, hpurge, hend.1, hend.2⟩

end EngineState

end JobEngine
