-- SUMMARY: Janitor runs that were stopped early and started again rescue each stale job exactly once.
import JobEngine.Proofs.Engine.Sweep

/-!
# Janitor runs that are started again

A janitor run may be stopped by any of its storage calls. What it rescued until then stays rescued
and is no longer stale, so the next run goes on where the last one stopped. Together the runs do what
one run does that nothing stops, whatever the sizes of their pages.
-/

namespace JobEngine.EngineState

variable {now : Instant} {s t : EngineState} {told : List EngineEvent}

/-- Janitor runs of time `now`: any number that were stopped early, and then one that went through.
Between two runs anything may change but what the storage holds. The runs dispatched the events
`told`, oldest first. -/
inductive Restarted (now : Instant) : EngineState → List EngineEvent → EngineState → Prop where
  | through {batch : Nat} {s t : EngineState} {told : List EngineEvent} (clock : s.now = now)
    (run : rescueStale batch s = (.ok (), t)) (dispatched : t.events = s.events ++ told) :
    Restarted now s told t
  | stopped {batch : Nat} {s t u v : EngineState} {e : EngineError} {told told' : List EngineEvent}
    (clock : s.now = now) (run : rescueStale batch s = (.error e, t))
    (dispatched : t.events = s.events ++ told) (untouched : u.store = t.store)
    (again : Restarted now u told' v) : Restarted now s (told ++ told') v

theorem Sweeps.told_eq {done : List Job} (h : Sweeps now done s t)
    (hdispatched : t.events = s.events ++ told) :
    told = done.map fun j => .jobRescued (j.rescue now) :=
  List.append_cancel_left (hdispatched.symm.trans h.events)

/-- The runs together sweep all jobs that were stale before the first one. -/
theorem Restarted.sweeps (h : Restarted now s told t) (hf : s.store.Filed) :
    t.store = s.store.reclaim now (s.store.stale now) ∧
      told = (s.store.stale now).map fun j => .jobRescued (j.rescue now) := by
  induction h with
  | @through batch s t told clock run dispatched =>
    obtain ⟨done, rest, hstale, hswept, hend⟩ := rescueStale_sweeps hf batch
    rw [run] at hswept hend
    rw [clock] at hstale hswept
    obtain rfl := hend rfl
    rw [List.append_nil] at hstale
    rw [hstale]
    exact ⟨hswept.store, hswept.told_eq dispatched⟩
  | @stopped batch s t u v e told told' clock run dispatched untouched again ih =>
    obtain ⟨done, rest, hstale, hswept, -⟩ := rescueStale_sweeps hf batch
    rw [run] at hswept
    rw [clock] at hstale hswept
    have hu : u.store = s.store.reclaim now done := untouched.trans hswept.store
    have hleft : u.store.stale now = rest := hu ▸ hf.stale_reclaim hstale
    obtain ⟨hstore, htold⟩ := ih (hu ▸ hf.reclaim)
    rw [hleft] at hstore htold
    rw [hstale, Store.reclaim_append, ← hu, List.map_append, ← htold,
      hswept.told_eq dispatched]
    exact ⟨hstore, rfl⟩

/-- A janitor run comes to its end, and runs of one time that are started again until one goes
through rescue each stale job once, tell so once, the older jobs first, and change nothing else. -/
theorem stale_jobs_rescued_once (hf : s.store.Filed) :
    (∀ batch, Pages s.now (max batch 1) 0 s (rescueStale batch s).1 (rescueStale batch s).2) ∧
    ∀ now told t, Restarted now s told t →
      t.store = { s.store with
        jobs := s.store.jobs.mapValues fun j => if j.isStale now then j.rescue now else j } ∧
      ∃ stale : List Job, stale.Pairwise Job.Older ∧
        (∀ j, j ∈ stale ↔ s.store.job? j.id = some j ∧ j.isStale now) ∧
        told = stale.map fun j => .jobRescued (j.rescue now) := by
  refine ⟨rescueStale_pages hf, fun now told t h => ?_⟩
  obtain ⟨hstore, htold⟩ := h.sweeps hf
  refine ⟨hstore.trans (hf.reclaim_stale now), s.store.stale now, hf.listing_older _, ?_, htold⟩
  intro j
  exact hf.mem_stale

/-! ## Two runs -/

/-- The attempt of the job is lost, and the first call that saves a job will fail. -/
def troubled : EngineState where
  now := .ofMillis 1000000
  backend := {
    store := (Store.saveJob {} loneJob).saveJob { loneJob.execute .epoch with id := Uuid.ofNat 2 }
    faults := [⟨.saveJob, 0, 1, "no space left"⟩] }
  breaker := { name := "storage", settings := .default }

/-- The engine after a first run with pages of one job, and after a second one with larger pages. -/
def halted : EngineState := (rescueStale 1 troubled).2
def finished : EngineState := (rescueStale 1000 halted).2

theorem troubled_sweep_restarted :
    finished.events.map EngineEvent.name = ["job.rescued"] ∧
    ∃ stale : List Job, stale.Pairwise Job.Older ∧
      (∀ j, j ∈ stale ↔ troubled.store.job? j.id = some j ∧ j.isStale troubled.now) ∧
      finished.events = stale.map fun j => EngineEvent.jobRescued (j.rescue troubled.now) := by
  have hf : troubled.store.Filed :=
    Store.Filed.saveJob (Store.Filed.saveJob fun _ _ h => by cases h)
  have hhalted : (rescueStale 1 troubled).1.isOk = false := by decide +kernel
  have hfinished : (rescueStale 1000 halted).1.isOk = true := by decide +kernel
  have htold : finished.events = halted.events ++ finished.events := by decide +kernel
  have hruns : Restarted troubled.now troubled ([] ++ finished.events) finished := by
    cases he : (rescueStale 1 troubled).1 with
    | ok u => simp [he, Except.isOk, Except.toBool] at hhalted
    | error e =>
      cases hu : (rescueStale 1000 halted).1 with
      | error e => simp [hu, Except.isOk, Except.toBool] at hfinished
      | ok u =>
        exact .stopped rfl (Prod.ext he rfl) (by decide +kernel) rfl
          (.through (by decide +kernel) (Prod.ext hu rfl) htold)
  exact ⟨by decide +kernel, ((stale_jobs_rescued_once hf).2 _ _ _ hruns).2⟩

end JobEngine.EngineState
