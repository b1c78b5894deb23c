-- SUMMARY: What each operation on a store does to the record of one job.
import JobEngine.Store.Basic

/-!
# Records in stores

A store is filed if every job stands under its own identifier. Each operation keeps a store filed,
and each is described here by the record that an identifier has after it.
-/

namespace JobEngine.Store

variable {s : Store} {id : JobId} {j : Job} {now time : Instant}

/-- Every job stands under its own identifier. -/
def Filed (s : Store) : Prop := ∀ id j, s.job? id = some j → j.id = id

theorem Filed.job?_of_mem (h : s.Filed) (hj : j ∈ s.jobs.values) : s.job? j.id = some j := by
  obtain ⟨id, hid⟩ := Table.mem_values.1 hj
  have := h id j hid
  rwa [this]

theorem mem_values_of_job? (h : s.job? id = some j) : j ∈ s.jobs.values :=
  Table.mem_values.2 ⟨id, h⟩

theorem Filed.ids_nodup (h : s.Filed) : (s.jobs.values.map Job.id).Nodup :=
  Table.nodup_map_values h

/-! ## Saving -/

theorem job?_saveJob : (s.saveJob j).job? id = if id = j.id then some j else s.job? id :=
  Table.get?_insert

theorem job?_saveJob_self : (s.saveJob j).job? j.id = some j := by
  rw [job?_saveJob, if_pos rfl]

theorem job?_saveJob_of_ne (h : id ≠ j.id) : (s.saveJob j).job? id = s.job? id := by
  rw [job?_saveJob, if_neg h]

theorem Filed.saveJob (h : s.Filed) : (s.saveJob j).Filed := by
  intro id k hk
  rw [job?_saveJob] at hk
  split at hk
  · rename_i hid
    obtain rfl := Option.some.inj hk
    exact hid.symm
  · exact h id k hk

/-! ## Saving several jobs -/

/-- Store jobs one after another. -/
def saveJobs (s : Store) (l : List Job) : Store := l.foldl Store.saveJob s

theorem saveJobs_cons {l : List Job} : s.saveJobs (j :: l) = (s.saveJob j).saveJobs l := rfl

theorem job?_saveJobs_of_not_mem {l : List Job} (h : id ∉ l.map Job.id) :
    (s.saveJobs l).job? id = s.job? id := by
  induction l generalizing s with
  | nil => rfl
  | cons k rest ih =>
    rw [List.map_cons, List.mem_cons, not_or] at h
    rw [saveJobs_cons, ih h.2]
    exact job?_saveJob_of_ne h.1

theorem job?_saveJobs_of_mem {l : List Job} (hids : (l.map Job.id).Nodup) (hj : j ∈ l) :
    (s.saveJobs l).job? j.id = some j := by
  induction l generalizing s with
  | nil => cases hj
  | cons k rest ih =>
    obtain ⟨hk, hrest⟩ := List.nodup_cons.1 hids
    rcases List.mem_cons.1 hj with rfl | hj
    · rw [saveJobs_cons, job?_saveJobs_of_not_mem hk]
      exact job?_saveJob_self
    · exact ih hrest hj

theorem crons_saveJobs (s : Store) (l : List Job) : (s.saveJobs l).crons = s.crons := by
  induction l generalizing s with
  | nil => rfl
  | cons k rest ih => exact ih (s.saveJob k)

theorem messages_saveJobs (s : Store) (l : List Job) : (s.saveJobs l).messages = s.messages := by
  induction l generalizing s with
  | nil => rfl
  | cons k rest ih => exact ih (s.saveJob k)

/-! ## Picking -/

theorem mem_of_firstPicked? {l : List Job} (h : Job.firstPicked? l = some j) : j ∈ l := by
  induction l generalizing j with
  | nil => cases h
  | cons a rest ih =>
    simp only [Job.firstPicked?] at h
    split at h
    · obtain rfl := Option.some.inj h
      exact List.mem_cons_self
    · rename_i k hk
      split at h
      · obtain rfl := Option.some.inj h
        exact List.mem_cons_of_mem _ (ih hk)
      · obtain rfl := Option.some.inj h
        exact List.mem_cons_self

/-- A pick finds nothing and changes nothing, or it saves a ready job whose attempt begins. -/
theorem Filed.pickJob_cases (h : s.Filed) (now : Instant) :
    s.pickJob now = (none, s) ∨
      ∃ j, s.job? j.id = some j ∧ j.state = .enqueued ∧
        s.pickJob now = (some (j.execute now), s.saveJob (j.execute now)) := by
  unfold pickJob
  split
  · exact .inl rfl
  · rename_i j hj
    have hmem := List.mem_filter.1 (mem_of_firstPicked? hj)
    exact .inr ⟨j, h.job?_of_mem hmem.1, by simpa using hmem.2, rfl⟩

/-! ## Promoting and deleting -/

theorem job?_enqueueJobs :
    (s.enqueueJobs now).2.job? id =
      (s.job? id).map fun j => if j.isPromotable now then j.enqueue else j :=
  Table.get?_mapValues

theorem Filed.enqueueJobs (h : s.Filed) : (s.enqueueJobs now).2.Filed := by
  intro id k hk
  rw [job?_enqueueJobs] at hk
  obtain ⟨j, hj, rfl⟩ := Option.map_eq_some_iff.1 hk
  have hid := h id j hj
  split <;> exact hid

theorem job?_deleteJobs :
    (s.deleteJobs time).2.job? id = (s.job? id).filter fun j => !j.isExpired time := by
  simp only [deleteJobs]
  split
  · rename_i hnone
    have hkept : ∀ j ∈ s.jobs.values, j.isExpired time = false := by
      simpa [List.filter_eq_nil_iff] using hnone
    change s.job? id = _
    cases hj : s.job? id with
    | none => rfl
    | some j =>
      have hnot := hkept j (mem_values_of_job? hj)
      rw [Option.filter_some_pos (by simp [hnot])]
  · exact Table.get?_filterValues

theorem Filed.deleteJobs (h : s.Filed) : (s.deleteJobs time).2.Filed := by
  intro id k hk
  rw [job?_deleteJobs, Option.filter_eq_some_iff] at hk
  exact h id k hk.1

/-! ## Reading -/

theorem getJobs_sublist (s : Store) (f : JobFilter) (p : Page) :
    (s.getJobs f p).Sublist (Job.byAge (s.jobs.values.filter f.admits)) :=
  (List.take_sublist _ _).trans (List.drop_sublist _ _)

theorem mem_of_mem_getJobs {f : JobFilter} {p : Page} (h : j ∈ s.getJobs f p) :
    j ∈ s.jobs.values ∧ f.admits j := by
  have hmem := (getJobs_sublist s f p).mem h
  exact List.mem_filter.1 ((List.mergeSort_perm _ _).mem_iff.1 hmem)

theorem Filed.getJobs_ids_nodup (h : s.Filed) (f : JobFilter) (p : Page) :
    ((s.getJobs f p).map Job.id).Nodup := by
  have hperm : (Job.byAge (s.jobs.values.filter f.admits)).Perm (s.jobs.values.filter f.admits) :=
    List.mergeSort_perm _ _
  have hfilter : ((s.jobs.values.filter f.admits).map Job.id).Nodup :=
    h.ids_nodup.sublist (List.filter_sublist.map _)
  exact ((hperm.map _).nodup_iff.2 hfilter).sublist ((getJobs_sublist s f p).map _)

end JobEngine.Store
