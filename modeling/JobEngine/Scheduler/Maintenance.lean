-- SUMMARY: The four maintenance commands: enqueue, cron, janitor, delete.
import JobEngine.Cron.Schedule
import JobEngine.Engine.Outcome

/-!
# Maintenance

What the engine does to the store between the jobs: it makes due jobs ready, fires cron definitions,
reclaims jobs whose attempt was lost, and removes jobs that finished long ago. Each command stops at
the first storage call that fails; what it stored before stays.
-/

namespace JobEngine.EngineState

/-! ## Enqueue -/

/-- Make every job ready whose time has come. -/
def enqueueDue (s : EngineState) : Except EngineError Unit × EngineState :=
  match s.guarded (·.enqueueJobs s.now) with
  | (.error e, s) => (.error e, s)
  | (.ok jobs, s) => (.ok (), jobs.foldl (fun s j => s.dispatch (.jobEnqueued j)) s)

/-! ## Cron -/

/-- Fire one due definition: move its next run on, then store its job. -/
def fireCron (s : EngineState) (c : CronDefinition) (now next : Instant) :
    Except EngineError Unit × EngineState :=
  let c := { c with nextRunAt := some next }
  match s.guarded (·.saveCron c) with
  | (.error e, s) => (.error e, s)
  | (.ok (), s) =>
    match s.guarded (·.saveNewJob fun id => c.toJob id now) with
    | (.error e, s) => (.error e, s)
    | (.ok j, s) => (.ok (), s.dispatch (.cronScheduled c j))

/-- Fire due definitions one after another. One whose expression gives no next run is passed over.
-/
def fireCrons (now : Instant) : List CronDefinition → EngineState →
    Except EngineError Unit × EngineState
  | [], s => (.ok (), s)
  | c :: rest, s =>
    match Cron.nextFireAfter c.expression now with
    | .error e => fireCrons now rest (s.recordError (e.toError c.expression))
    | .ok next =>
      match s.fireCron c now next with
      | (.error e, s) => (.error e, s)
      | (.ok (), s) => fireCrons now rest s

/-- Fire every definition that is due. -/
def fireDueCrons (s : EngineState) : Except EngineError Unit × EngineState :=
  match s.guarded (·.getCrons) with
  | (.error e, s) => (.error e, s)
  | (.ok crons, s) => fireCrons s.now (crons.filter (·.isDue s.now)) s

/-! ## Janitor -/

/-- Reclaim the jobs of a page whose attempt is lost, and answer how many were left alone. -/
def rescuePage (now : Instant) : List Job → Nat → EngineState → Except EngineError Nat × EngineState
  | [], kept, s => (.ok kept, s)
  | j :: rest, kept, s =>
    if j.isStale now then
      match s.saveJob (j.rescue now) with
      | (.error e, s) => (.error e, s)
      | (.ok (), s) => rescuePage now rest kept (s.dispatch (.jobRescued (j.rescue now)))
    else rescuePage now rest (kept + 1) s

/-- Read executing jobs page by page. Reclaimed jobs are no longer executing, so the next page
begins after the jobs that were left alone. At most `fuel` pages are read. -/
def rescuePages (now : Instant) (batch : Nat) : Nat → Nat → EngineState →
    Except EngineError Unit × EngineState
  | 0, _, s => (.ok (), s)
  | fuel + 1, kept, s =>
    match s.guarded (·.getJobs { states := [.executing] } ⟨kept, batch⟩) with
    | (.error e, s) => (.error e, s)
    | (.ok page, s) =>
      match rescuePage now page kept s with
      | (.error e, s) => (.error e, s)
      | (.ok kept, s) =>
        if page.length < batch then (.ok (), s) else rescuePages now batch fuel kept s

/-- Reclaim every executing job whose attempt is lost. A full page either reclaims a job or moves
the offset past one, so there are no more pages than stored jobs and one. -/
def rescueStale (batch : Nat) (s : EngineState) : Except EngineError Unit × EngineState :=
  rescuePages s.now (max batch 1) (s.backend.store.jobs.size + 1) 0 s

/-! ## Delete -/

/-- Remove the jobs that finished before the retention period. -/
def deleteExpired (retention : Option Duration) (s : EngineState) :
    Except EngineError Unit × EngineState :=
  match retention with
  | none => (.ok (), s)
  | some period =>
    let time := s.now.sub period
    match s.guarded (·.deleteJobs time) with
    | (.error e, s) => (.error e, s)
    | (.ok count, s) => (.ok (), if 0 < count then s.dispatch (.jobsDeleted count time) else s)

end JobEngine.EngineState
