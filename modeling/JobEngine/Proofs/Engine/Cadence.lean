-- SUMMARY: Cron runs one after another: no fire time of a definition gives two jobs.
import JobEngine.Proofs.Cron.Schedule
import JobEngine.Proofs.Engine.Outage

/-!
# Fire times and jobs

A definition is due from its next run on. A run that fires it answers all fire times from then until
the time of the run with one job, and moves the next run past the time of the run. As nothing else
moves it, the next run never goes back, and no later run answers any of these fire times again. That
also holds if a run moves the definition on and then fails to store the job.
-/

namespace JobEngine.EngineState

variable {s t u : EngineState} {told : List Firing} {id : CronId} {r : Except EngineError Unit}
  {c c' : CronDefinition} {jobs : List Job} {now m : Instant}

/-- What a run did about one definition: when it ran, the next run that it found, and the jobs of that
definition that it stored. -/
structure CronVisit where
  time : Instant
  nextRunAt : Option Instant
  jobs : List Job

/-- The run answers a fire time: the definition was due since then or before. -/
def CronVisit.answers (v : CronVisit) (fire : Instant) : Bool :=
  v.nextRunAt.all (· ≤ fire) && fire ≤ v.time

/-- Between two runs nobody edits the definition: it may be switched off and on, and its queue locked
and unlocked. -/
structure Unedited (id : CronId) (s t : EngineState) : Prop where
  filed : s.store.CronsFiled → t.store.CronsFiled
  kept : ∀ c, s.store.cron? id = some c → ∃ c', t.store.cron? id = some c' ∧
    c'.expression = c.expression ∧ c'.nextRunAt = c.nextRunAt

/-- Runs of the cron command one after another, from `s` to `t`. -/
inductive CronRuns (id : CronId) : EngineState → List CronVisit → EngineState → Prop where
  | done {s : EngineState} : CronRuns id s [] s
  | run {s t u w : EngineState} {c : CronDefinition} {r : Except EngineError Unit}
    {told : List Firing} {log : List CronVisit} (stored : s.store.cron? id = some c)
    (run : CronRun s r t) (tells : Tells s t told) (pause : Unedited id t u)
    (later : CronRuns id u log w) :
    CronRuns id s (⟨s.now, c.nextRunAt, (told.filter (·.1.id = id)).map Prod.snd⟩ :: log) w

/-! ## One run -/

/-- The firing that an event tells. -/
def firing? : EngineEvent → Option Firing
  | .cronScheduled c j => some (c, j)
  | _ => none

theorem Tells.told_eq (h : Tells s t told) :
    told = (t.events.drop s.events.length).filterMap firing? := by
  rw [h.events, List.drop_left, List.filterMap_map]
  exact List.filterMap_some.symm

/-- The definition is left as it is, or it was due and is moved on, and then it may have given a job.
-/
inductive Visited (now : Instant) (c : CronDefinition) : CronDefinition → List Job → Prop where
  | alone : Visited now c c []
  | moved {c' : CronDefinition} {jobs : List Job} (due : c.isDue now)
    (moved : c.movedOn? now = some c') (few : jobs.length ≤ 1) : Visited now c c' jobs

theorem CronRun.visited (h : CronRun s r t) (hf : s.store.CronsFiled) (htells : Tells s t told)
    (hc : s.store.cron? id = some c) :
    ∃ c', t.store.cron? id = some c' ∧
      Visited s.now c c' ((told.filter (·.1.id = id)).map Prod.snd) := by
  obtain ⟨done, lost, rest, hcourse⟩ := h.course
  obtain rfl := htells.told_eq.trans (hcourse.tells hf).told_eq.symm
  by_cases hdone : id ∈ done.map CronDefinition.id
  · obtain ⟨k, hk, rfl⟩ := List.mem_map.1 hdone
    obtain ⟨d, c', jobId, hd, hdue, hmoved, hc', htold, -⟩ := hcourse.firedWhole hf hk
    obtain rfl := Option.some.inj (hc.symm.trans hd)
    refine ⟨c', hc', .moved hdue hmoved ?_⟩
    rw [htold]
    exact Nat.le_refl 1
  · by_cases hlost : lost.map CronDefinition.id = some id
    · obtain ⟨k, hk, rfl⟩ := Option.map_eq_some_iff.1 hlost
      obtain ⟨d, c', hd, hdue, hmoved, hc', htold, -⟩ := hcourse.firingLost hf hk
      obtain rfl := Option.some.inj (hc.symm.trans hd)
      refine ⟨c', hc', .moved hdue hmoved ?_⟩
      rw [htold]
      exact Nat.zero_le 1
    · obtain ⟨hsame, htold⟩ := hcourse.leftAlone hdone hlost
      refine ⟨c, hsame.trans hc, ?_⟩
      rw [htold]
      exact .alone

theorem CronRun.cronsFiled (h : CronRun s r t) (hf : s.store.CronsFiled) : t.store.CronsFiled := by
  obtain ⟨done, lost, rest, hcourse⟩ := h.course
  rw [hcourse.fires.store]
  cases lost with
  | none => exact hf.fire
  | some c => exact hf.fire.saveCron

/-! ## The next run -/

/-- The definition is not due before `m`. -/
def Ahead (m : Instant) (c : CronDefinition) : Prop := ∃ n, c.nextRunAt = some n ∧ m ≤ n

theorem Ahead.le_of_isDue (h : Ahead m c) (hdue : c.isDue now) :
    ∃ n, c.nextRunAt = some n ∧ m ≤ n ∧ n ≤ now := by
  obtain ⟨n, hn, hm⟩ := h
  refine ⟨n, hn, hm, ?_⟩
  simp only [CronDefinition.isDue, hn, Bool.and_eq_true, decide_eq_true_eq] at hdue
  exact hdue.2

/-- Moving a definition on puts its next run after the time of the run. -/
theorem ahead_of_movedOn (h : c.movedOn? now = some c') :
    c'.expression = c.expression ∧
      ∃ next, Cron.nextFireAfter c.expression now = .ok next ∧ now < next ∧ Ahead next c' := by
  obtain ⟨next, hnext, rfl⟩ := CronDefinition.movedOn?_eq_some.1 h
  exact ⟨rfl, next, hnext, Cron.lt_nextFireAfter hnext, next, rfl, Int.le_refl _⟩

/-- The next run never goes back. -/
theorem Visited.ahead (h : Visited now c c' jobs) (hm : Ahead m c) : Ahead m c' := by
  cases h with
  | alone => exact hm
  | moved due moved few =>
    obtain ⟨n, -, hmn, hnow⟩ := hm.le_of_isDue due
    obtain ⟨-, next, -, hlt, k, hk, hnext⟩ := ahead_of_movedOn moved
    refine ⟨k, hk, ?_⟩
    change m.nanos ≤ k.nanos
    change m.nanos ≤ n.nanos at hmn
    change n.nanos ≤ now.nanos at hnow
    change now.nanos < next.nanos at hlt
    change next.nanos ≤ k.nanos at hnext
    omega

theorem Visited.expression_eq (h : Visited now c c' jobs) : c'.expression = c.expression := by
  cases h with
  | alone => rfl
  | moved due moved few => exact (ahead_of_movedOn moved).1

theorem Visited.length_le (h : Visited now c c' jobs) : jobs.length ≤ 1 := by
  cases h with
  | alone => exact Nat.zero_le 1
  | moved due moved few => exact few

/-- A definition that gives a job was due, and it is not due again before the fire time after that. -/
theorem Visited.of_jobs (h : Visited now c c' jobs) (hjobs : jobs ≠ []) :
    c.isDue now ∧
      ∃ next, Cron.nextFireAfter c.expression now = .ok next ∧ now < next ∧ Ahead next c' := by
  cases h with
  | alone => exact absurd rfl hjobs
  | moved due moved few => exact ⟨due, (ahead_of_movedOn moved).2⟩

/-! ## All runs -/

variable {log : List CronVisit} {v : CronVisit}

theorem CronRuns.length_jobs_le (h : CronRuns id s log t) (hf : s.store.CronsFiled) :
    ∀ v ∈ log, v.jobs.length ≤ 1 := by
  induction h with
  | done => simp
  | @run s t u w c r told log stored run tells pause later ih =>
    obtain ⟨c', -, hvisited⟩ := run.visited hf tells stored
    exact List.forall_mem_cons.2 ⟨hvisited.length_le, ih (pause.filed (run.cronsFiled hf))⟩

/-- No run finds the definition due before its next run was at the start. -/
theorem CronRuns.ahead (h : CronRuns id s log t) (hf : s.store.CronsFiled)
    (hc : s.store.cron? id = some c) (hm : Ahead m c) :
    ∀ v ∈ log, v.jobs ≠ [] → ∃ n, v.nextRunAt = some n ∧ m ≤ n ∧ n ≤ v.time := by
  induction h generalizing c with
  | done => simp
  | @run s t u w k r told log stored run tells pause later ih =>
    obtain rfl := Option.some.inj (hc.symm.trans stored)
    obtain ⟨c', hc', hvisited⟩ := run.visited hf tells stored
    obtain ⟨d, hd, -, hnext⟩ := pause.kept c' hc'
    have hahead : Ahead m d := by
      obtain ⟨n, hn, hmn⟩ := hvisited.ahead hm
      exact ⟨n, hnext.trans hn, hmn⟩
    refine List.forall_mem_cons.2 ⟨fun hjobs => ?_, ih (pause.filed (run.cronsFiled hf)) hd hahead⟩
    exact hm.le_of_isDue (hvisited.of_jobs hjobs).1

/-- A run that gives a job keeps all later ones from answering a fire time up to its own time. -/
theorem CronRuns.pairwise (h : CronRuns id s log t) (hf : s.store.CronsFiled)
    (hc : s.store.cron? id = some c) :
    log.Pairwise fun a b => a.jobs ≠ [] → b.jobs ≠ [] →
      ∃ next due, Cron.nextFireAfter c.expression a.time = .ok next ∧ a.time < next ∧
        b.nextRunAt = some due ∧ next ≤ due ∧ due ≤ b.time := by
  induction h generalizing c with
  | done => exact .nil
  | @run s t u w k r told log stored run tells pause later ih =>
    obtain rfl := Option.some.inj (hc.symm.trans stored)
    obtain ⟨c', hc', hvisited⟩ := run.visited hf tells stored
    obtain ⟨d, hd, hexpression, hnext⟩ := pause.kept c' hc'
    have hfiled := pause.filed (run.cronsFiled hf)
    refine List.pairwise_cons.2 ⟨?first, ?rest⟩
    case first =>
      intro b hb ha hjobs
      obtain ⟨-, next, hfire, hlt, n, hn, hle⟩ := hvisited.of_jobs ha
      obtain ⟨due, hdue, hle, hnow⟩ := later.ahead hfiled hd ⟨n, hnext.trans hn, hle⟩ b hb hjobs
      exact ⟨next, due, hfire, hlt, hdue, hle, hnow⟩
    case rest =>
      rw [← hvisited.expression_eq, ← hexpression]
      exact ih hfiled hd

/-- At most one of the runs that answer a fire time gives a job. -/
theorem length_answering_le {fire : Instant} (hfew : ∀ v ∈ log, v.jobs.length ≤ 1)
    (hapart : log.Pairwise fun a b => a.jobs ≠ [] → b.jobs ≠ [] →
      ∃ due, b.nextRunAt = some due ∧ a.time < due) :
    ((log.filter (·.answers fire)).flatMap (·.jobs)).length ≤ 1 := by
  induction log with
  | nil => exact Nat.zero_le 1
  | cons v rest ih =>
    obtain ⟨hv, hrest⟩ := List.forall_mem_cons.1 hfew
    obtain ⟨hlater, hpairs⟩ := List.pairwise_cons.1 hapart
    by_cases hanswers : v.answers fire
    · rw [List.filter_cons, if_pos hanswers, List.flatMap_cons, List.length_append]
      by_cases hjobs : v.jobs = []
      · rw [hjobs, List.length_nil, Nat.zero_add]
        exact ih hrest hpairs
      · -- The definition is not due at this fire time for any later run.
        have hnone : (rest.filter (·.answers fire)).flatMap (·.jobs) = [] := by
          rw [List.flatMap_eq_nil_iff]
          intro b hb
          obtain ⟨hmem, hb⟩ := List.mem_filter.1 hb
          by_cases hempty : b.jobs = []
          · exact hempty
          · obtain ⟨due, hdue, hlt⟩ := hlater b hmem hjobs hempty
            simp only [CronVisit.answers, Bool.and_eq_true, decide_eq_true_eq, hdue,
              Option.all_some] at hanswers hb
            have hv' : fire.nanos ≤ v.time.nanos := hanswers.2
            have hb' : due.nanos ≤ fire.nanos := hb.1
            change v.time.nanos < due.nanos at hlt
            omega
        rw [hnone]
        exact hv
    · rw [List.filter_cons, if_neg hanswers]
      exact ih hrest hpairs

theorem CronRun.exists_tells (h : CronRun s r t) (hf : s.store.CronsFiled) :
    ∃ told, Tells s t told := by
  obtain ⟨done, lost, rest, hcourse⟩ := h.course
  exact ⟨_, hcourse.tells hf⟩

/-- Every run of the cron command gives at most one job of a definition, and after one that gives a
job there is none before the next fire time. So no fire time gives two jobs, and all fire times that
pass until a run give one job together. The runs may come at any times. -/
theorem one_job_for_each_fire_time (h : CronRuns id s log t) (hf : s.store.CronsFiled)
    (hc : s.store.cron? id = some c) :
    (∀ u : EngineState, u.store.CronsFiled → CronRun u u.fireDueCrons.1 u.fireDueCrons.2 ∧
      ∀ r v, CronRun u r v → ∃ told, Tells u v told) ∧
    (∀ v ∈ log, v.jobs.length ≤ 1) ∧
    log.Pairwise (fun a b => a.jobs ≠ [] → b.jobs ≠ [] →
      ∃ next, Cron.nextFireAfter c.expression a.time = .ok next ∧ a.time < next ∧ next ≤ b.time) ∧
    ∀ fire, ((log.filter (·.answers fire)).flatMap (·.jobs)).length ≤ 1 := by
  have hpairs := h.pairwise hf hc
  refine ⟨?runs, h.length_jobs_le hf, ?later, ?collapse⟩
  case runs => exact fun u hu => ⟨cronRun_fireDueCrons u, fun r v hrun => hrun.exists_tells hu⟩
  case later =>
    refine hpairs.imp fun hab ha hb => ?_
    obtain ⟨next, due, hfire, hlt, -, hdue, hnow⟩ := hab ha hb
    exact ⟨next, hfire, hlt, Int.le_trans hdue hnow⟩
  case collapse =>
    intro fire
    apply length_answering_le (h.length_jobs_le hf)
    refine hpairs.imp fun hab ha hb => ?_
    obtain ⟨next, due, -, hlt, hdue, hle, -⟩ := hab ha hb
    exact ⟨due, hdue, Int.lt_of_lt_of_le hlt hle⟩

/-! ## Missed fire times -/

/-- The engine after a cron run, at a later time and with other plans for the storage. -/
def afterCrons (s : EngineState) (millis : Int) (faults : List Fault) : EngineState :=
  { s.fireDueCrons.2 with
    now := .ofMillis millis
    backend := { s.fireDueCrons.2.backend with faults } }

theorem unedited_afterCrons (s : EngineState) (millis : Int) (faults : List Fault) :
    Unedited id s.fireDueCrons.2 (s.afterCrons millis faults) :=
  ⟨fun h => h, fun c hc => ⟨c, hc, rfl, rfl⟩⟩

/-- The definition never ran. -/
def punctual : EngineState where
  now := .epoch
  backend := { store := Store.saveCron {} minutely }
  breaker := { name := "storage", settings := .default }

/-- The next run is half a minute after the first one; then two minutes are missed before a run that
cannot save the job, and two more before the last run. -/
def tooEarly : EngineState := punctual.afterCrons 30000 []
def unsaved : EngineState := tooEarly.afterCrons 200000 [⟨.saveJob, 0, 1, "no space left"⟩]
def caughtUp : EngineState := unsaved.afterCrons 400000 []

theorem CronRuns.cons_fireDueCrons {w : EngineState} {millis : Int} {faults : List Fault}
    (hf : s.store.CronsFiled) (hc : (s.store.cron? id).isSome)
    (later : CronRuns id (s.afterCrons millis faults) log w) :
    ∃ v : CronVisit, CronRuns id s (v :: log) w ∧ v.time = s.now ∧
      v.jobs = ((((s.fireDueCrons.2.events.drop s.events.length).filterMap firing?).filter
        (·.1.id = id)).map Prod.snd) := by
  obtain ⟨c, hc⟩ := Option.isSome_iff_exists.1 hc
  obtain ⟨told, htells⟩ := (cronRun_fireDueCrons s).exists_tells hf
  refine ⟨_, .run hc (cronRun_fireDueCrons s) htells (s.unedited_afterCrons millis faults) later,
    rfl, ?_⟩
  rw [← htells.told_eq]

/-- The runs give two jobs; the one of the last run answers for the minutes that were missed. -/
theorem minutely_caught_up :
    ∃ log, CronRuns minutely.id punctual log (caughtUp.afterCrons 400000 []) ∧
      log.map (·.time) = [.epoch, .ofMillis 30000, .ofMillis 200000, .ofMillis 400000] ∧
      log.map (·.jobs.length) = [1, 0, 0, 1] ∧
      log.Pairwise (fun a b => a.jobs ≠ [] → b.jobs ≠ [] →
        ∃ next, Cron.nextFireAfter minutely.expression a.time = .ok next ∧
          a.time < next ∧ next ≤ b.time) ∧
      ∀ fire, ((log.filter (·.answers fire)).flatMap (·.jobs)).length ≤ 1 := by
  have hf : punctual.store.CronsFiled := Store.CronsFiled.saveCron fun _ _ h => by cases h
  have hearly : tooEarly.store.CronsFiled := (cronRun_fireDueCrons punctual).cronsFiled hf
  have hunsaved : unsaved.store.CronsFiled := (cronRun_fireDueCrons tooEarly).cronsFiled hearly
  have hlast : caughtUp.store.CronsFiled := (cronRun_fireDueCrons unsaved).cronsFiled hunsaved
  have hend : CronRuns minutely.id (caughtUp.afterCrons 400000 []) [] _ := .done
  obtain ⟨k, hk, hktime, hkjobs⟩ := hend.cons_fireDueCrons hlast (by decide +kernel)
  obtain ⟨l, hl, hltime, hljobs⟩ := hk.cons_fireDueCrons hunsaved (by decide +kernel)
  obtain ⟨m, hm, hmtime, hmjobs⟩ := hl.cons_fireDueCrons hearly (by decide +kernel)
  obtain ⟨n, hn, hntime, hnjobs⟩ := hm.cons_fireDueCrons hf (by decide +kernel)
  refine ⟨[n, m, l, k], hn, ?times, ?counts, ?once⟩
  case times =>
    simp only [List.map_cons, List.map_nil, hntime, hmtime, hltime, hktime]
    rfl
  case counts =>
    simp only [List.map_cons, List.map_nil, hnjobs, hmjobs, hljobs, hkjobs]
    decide +kernel
  case once => exact (one_job_for_each_fire_time (c := minutely) hn hf (by decide +kernel)).2.2

end JobEngine.EngineState
