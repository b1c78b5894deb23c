-- SUMMARY: While the storage serves, each maintenance command goes through and does its work.
import JobEngine.Proofs.Engine.Firing
import JobEngine.Proofs.Engine.Sweep

/-!
# Maintenance on a storage that serves

With the storage available and the breaker closed, every storage call of a maintenance command does
its work, and the storage goes on serving. So each command goes through. Here is what it then leaves
in the store and what it tells.
-/

namespace JobEngine.EngineState

variable {s t u : EngineState}

/-- The storage still serves, and the clock shows the same time. -/
structure Steady (s t : EngineState) : Prop where
  serving : t.Serving
  now : t.now = s.now

theorem Serving.steady (h : s.Serving) : Steady s s := ⟨h, rfl⟩

theorem Steady.trans (h : Steady s t) (h' : Steady t u) : Steady s u :=
  ⟨h'.serving, h'.now.trans h.now⟩

theorem Steady.dispatch (h : Steady s t) (e : EngineEvent) : Steady s (t.dispatch e) :=
  ⟨⟨h.serving.available, h.serving.faultless, h.serving.closed⟩, h.now⟩

theorem Serving.recordError (h : s.Serving) (e : EngineError) : Steady s (s.recordError e) :=
  ⟨⟨h.available, h.faultless, h.closed⟩, rfl⟩

theorem Serving.call (h : s.Serving) {α : Type} (method : StorageMethod) (op : Store → α × Store) :
    ∃ t, s.guarded (·.perform method op) = (.ok (op s.store).1, t) ∧ Steady s t ∧
      t.store = (op s.store).2 ∧ t.events = s.events := by
  obtain ⟨t, ht, hs, hn, hserving⟩ := h.perform method op
  exact ⟨t, ht, ⟨hserving, hn⟩, hs, guarded_events ht⟩

/-! ## Enqueue -/

theorem foldl_dispatch_events {α : Type} (event : α → EngineEvent) (l : List α) (s : EngineState) :
    (l.foldl (fun s a => s.dispatch (event a)) s).events = s.events ++ l.map event := by
  induction l generalizing s with
  | nil => exact (List.append_nil _).symm
  | cons a rest ih =>
    rw [List.foldl_cons, ih, List.map_cons]
    exact List.append_assoc ..

theorem Steady.foldl_dispatch {α : Type} (event : α → EngineEvent) (l : List α) (h : Steady s t) :
    Steady s (l.foldl (fun s a => s.dispatch (event a)) t) := by
  induction l generalizing t with
  | nil => exact h
  | cons a rest ih => exact ih (h.dispatch (event a))

theorem Serving.enqueueDue (h : s.Serving) :
    ∃ t, s.enqueueDue = (.ok (), t) ∧ Steady s t ∧ t.store = (s.store.enqueueJobs s.now).2 ∧
      t.events = s.events ++ (s.store.enqueueJobs s.now).1.map .jobEnqueued := by
  obtain ⟨t, ht, hsteady, hs, he⟩ := h.call .enqueueJobs (·.enqueueJobs s.now)
  refine ⟨(s.store.enqueueJobs s.now).1.foldl (fun s j => s.dispatch (.jobEnqueued j)) t, ?_,
    hsteady.foldl_dispatch _ _, ?_, ?_⟩
  · simp only [EngineState.enqueueDue, Backend.enqueueJobs, ht]
  · rw [foldl_dispatch_store, hs]
  · rw [foldl_dispatch_events, he]

/-! ## Cron -/

theorem Serving.fireCron (h : s.Serving) (c : CronDefinition) (now next : Instant) :
    ∃ t, s.fireCron c now next = (.ok (), t) ∧ Steady s t := by
  let moved : CronDefinition := { c with nextRunAt := some next }
  obtain ⟨t, ht, hsteady, -⟩ := h.call .saveCron fun s => ((), s.saveCron moved)
  obtain ⟨u, hu, hn, hserving⟩ := hsteady.serving.saveNewJob fun id => moved.toJob id now
  refine ⟨u.dispatch (.cronScheduled moved (moved.toJob t.nextJobId now)), ?_,
    (hsteady.trans ⟨hserving, hn⟩).dispatch _⟩
  simp only [EngineState.fireCron, Backend.saveCron, moved] at ht hu ⊢
  simp only [ht, hu]
  rfl

theorem Serving.fireCrons (h : s.Serving) (now : Instant) (crons : List CronDefinition) :
    ∃ t, EngineState.fireCrons now crons s = (.ok (), t) ∧ Steady s t := by
  induction crons generalizing s with
  | nil => exact ⟨s, rfl, h.steady⟩
  | cons c rest ih =>
    unfold EngineState.fireCrons
    split
    · rename_i e _
      have hsteady := h.recordError (e.toError c.expression)
      obtain ⟨t, ht, hrest⟩ := ih hsteady.serving
      exact ⟨t, ht, hsteady.trans hrest⟩
    · rename_i next _
      obtain ⟨u, hu, hsteady⟩ := h.fireCron c now next
      obtain ⟨t, ht, hrest⟩ := ih hsteady.serving
      refine ⟨t, ?_, hsteady.trans hrest⟩
      simp only [hu, ht]

/-- The cron command fires every due definition whose expression gives a next run. -/
theorem Serving.fireDueCrons (h : s.Serving) :
    ∃ t, s.fireDueCrons = (.ok (), t) ∧ Steady s t ∧
      Fires s.now (s.store.movable s.now) none s t := by
  obtain ⟨u, hu, hread, -⟩ := h.call .getCrons fun s => (s.cronList, s)
  obtain ⟨t, ht, hsteady⟩ :=
    hread.serving.fireCrons u.now (s.store.cronList.filter (·.isDue u.now))
  have hrun : s.fireDueCrons = (.ok (), t) := by
    simp only [EngineState.fireDueCrons, Backend.getCrons, hu, ht]
  refine ⟨t, hrun, hread.trans hsteady, ?_⟩
  obtain ⟨done, lost, rest, hsplit, hfires, -, hend⟩ := (cronRun_fireDueCrons s).course
  rw [hrun] at hfires hend
  obtain ⟨rfl, rfl⟩ := hend rfl
  rw [Option.toList_none, List.nil_append, List.append_nil] at hsplit
  rwa [hsplit]

/-! ## Janitor -/

theorem Serving.rescuePage (h : s.Serving) (now : Instant) (page : List Job) (kept : Nat) :
    ∃ kept' t, EngineState.rescuePage now page kept s = (.ok kept', t) ∧ Steady s t := by
  induction page generalizing s kept with
  | nil => exact ⟨kept, s, rfl, h.steady⟩
  | cons j rest ih =>
    unfold EngineState.rescuePage
    split
    · obtain ⟨u, hu, hsaved, -⟩ := h.call .saveJob fun s => ((), s.saveJob (j.rescue now))
      have hu : s.saveJob (j.rescue now) = (.ok (), u) := hu
      have htold := hsaved.dispatch (.jobRescued (j.rescue now))
      obtain ⟨kept', t, ht, hrest⟩ := ih htold.serving kept
      refine ⟨kept', t, ?_, htold.trans hrest⟩
      simp only [hu, ht]
    · exact ih h (kept + 1)

theorem Serving.rescuePages (h : s.Serving) (now : Instant) (batch fuel kept : Nat) :
    ∃ t, EngineState.rescuePages now batch fuel kept s = (.ok (), t) ∧ Steady s t := by
  induction fuel generalizing s kept with
  | zero => exact ⟨s, rfl, h.steady⟩
  | succ fuel ih =>
    obtain ⟨u, hu, hread, -⟩ := h.call .getJobs
      fun s => (s.getJobs { states := [.executing] } ⟨kept, batch⟩, s)
    obtain ⟨kept', v, hv, hpage⟩ := hread.serving.rescuePage now
      (s.store.getJobs { states := [.executing] } ⟨kept, batch⟩) kept
    simp only [EngineState.rescuePages, Backend.getJobs, hu, hv]
    split
    · exact ⟨v, rfl, hread.trans hpage⟩
    · obtain ⟨t, ht, hrest⟩ := ih hpage.serving kept'
      exact ⟨t, ht, (hread.trans hpage).trans hrest⟩

/-- The janitor command reclaims every job whose attempt is lost. -/
theorem Serving.rescueStale (h : s.Serving) (hf : s.store.Filed) (batch : Nat) :
    ∃ t, EngineState.rescueStale batch s = (.ok (), t) ∧ Steady s t ∧
      Sweeps s.now (s.store.stale s.now) s t := by
  obtain ⟨t, ht, hsteady⟩ := h.rescuePages s.now (max batch 1) (s.backend.store.jobs.size + 1) 0
  refine ⟨t, ht, hsteady, ?_⟩
  obtain ⟨done, rest, hstale, hswept, hend⟩ := rescueStale_sweeps hf batch
  have hrun : EngineState.rescueStale batch s = (.ok (), t) := ht
  rw [hrun] at hswept hend
  obtain rfl := hend rfl
  rw [List.append_nil] at hstale
  rwa [hstale]

/-! ## Delete -/

/-- The delete command removes what finished before the retention period, and says how much if there
was anything. -/
theorem Serving.deleteExpired (h : s.Serving) (period : Duration) :
    ∃ t, EngineState.deleteExpired (some period) s = (.ok (), t) ∧ Steady s t ∧
      t.store = (s.store.deleteJobs (s.now.sub period)).2 ∧
      t.events = s.events ++
        if 0 < (s.store.deleteJobs (s.now.sub period)).1 then
          [.jobsDeleted (s.store.deleteJobs (s.now.sub period)).1 (s.now.sub period)]
        else [] := by
  let time := s.now.sub period
  obtain ⟨t, ht, hsteady, hs, he⟩ := h.call .deleteJobs (·.deleteJobs time)
  refine ⟨if 0 < (s.store.deleteJobs time).1 then
      t.dispatch (.jobsDeleted (s.store.deleteJobs time).1 time) else t, ?_, ?_, ?_, ?_⟩
  · simp only [EngineState.deleteExpired, Backend.deleteJobs, time] at ht ⊢
    simp only [ht]
  · split
    · exact hsteady.dispatch _
    · exact hsteady
  · split
    · exact hs
    · exact hs
  · rw [← he]
    split
    · rfl
    · exact (List.append_nil _).symm

end JobEngine.EngineState
