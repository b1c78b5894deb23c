-- SUMMARY: How the attempt of a job can come out, for every course that its handler can take.
import JobEngine.Engine.Execution
import JobEngine.Proofs.Activity.Courses

/-!
# Verdicts on attempts

The attempt of a job comes out in one of three ways: the handler ends, with a result or a panic, it
is still at work when the limit is up, or there is no handler of that name. Only a handler that
returns that it succeeded makes the attempt a success. In all other cases the attempt failed, each
time with another error.

Timers count whole milliseconds, so a limit is rounded up to the next one.
-/

namespace JobEngine

open Activity

/-! ## Limits and strategies -/

/-- The limit of the attempts of a job: its own timeout unless that is zero, else the one of its
task unless that is absent or zero as well. -/
inductive TaskDescriptor.LimitedBy (d : TaskDescriptor) (j : Job) : Option Duration → Prop where
  | job (own : j.timeout ≠ .zero) : LimitedBy d j (some j.timeout)
  | task {limit : Duration} (own : j.timeout = .zero) (shared : d.timeout = some limit)
    (bounded : limit ≠ .zero) : LimitedBy d j (some limit)
  | none (own : j.timeout = .zero) (shared : ∀ limit, d.timeout = some limit → limit = .zero) :
    LimitedBy d j none

theorem Duration.isZero_eq_true {d : Duration} : d.isZero = true ↔ d = .zero := by
  constructor
  · intro h
    exact Duration.ext_nanos (of_decide_eq_true h)
  · rintro rfl
    rfl

theorem TaskDescriptor.limitedBy_iff {d : TaskDescriptor} {j : Job} {limit : Option Duration} :
    d.LimitedBy j limit ↔ d.limitOf j = limit := by
  unfold limitOf
  constructor
  · rintro (own | ⟨own, shared, bounded⟩ | ⟨own, shared⟩)
    · rw [if_neg (mt Duration.isZero_eq_true.1 own)]
    · rw [if_pos (Duration.isZero_eq_true.2 own), shared]
      simpa [Option.filter_some, ← Duration.isZero_eq_true] using bounded
    · rw [if_pos (Duration.isZero_eq_true.2 own)]
      simpa [Option.filter_eq_none_iff, Duration.isZero_eq_true] using shared
  · rintro rfl
    split
    · rename_i hzero
      have own := Duration.isZero_eq_true.1 hzero
      cases hlimit : d.timeout.filter (!·.isZero) with
      | none =>
        refine .none own fun limit shared => ?_
        simpa [shared, Option.filter_some, ← Duration.isZero_eq_true] using hlimit
      | some limit =>
        obtain ⟨shared, hbounded⟩ := Option.filter_eq_some_iff.1 hlimit
        refine .task own shared fun hzero => ?_
        rw [Duration.isZero_eq_true.2 hzero] at hbounded
        cases hbounded
    · rename_i hown
      exact .job (mt Duration.isZero_eq_true.2 hown)

/-- The retry strategy of a job: the one that its task names, if it is registered, else the default.
-/
inductive Execution.GovernedBy (x : Execution) (j : Job) : RetryStrategy → Prop where
  | named {d : TaskDescriptor} {name : String} {strategy : RetryStrategy}
    (task : x.tasks.get? j.handler = some d) (names : d.retryStrategy = some name)
    (registered : x.retries.get? name = some strategy) : GovernedBy x j strategy
  | default (unnamed : ∀ d name, x.tasks.get? j.handler = some d → d.retryStrategy = some name →
      x.retries.get? name = none) : GovernedBy x j x.retries.default

theorem Execution.governedBy_strategyOf (x : Execution) (j : Job) :
    x.GovernedBy j (x.strategyOf j) := by
  unfold strategyOf RetryRegistry.resolve
  cases htask : x.tasks.get? j.handler with
  | none => exact .default fun d name hd => by simp [htask] at hd
  | some d =>
    cases hnames : d.retryStrategy with
    | none =>
      rw [Option.bind_some, hnames]
      refine .default fun d' name hd hname => ?_
      obtain rfl := Option.some.inj (htask.symm.trans hd)
      simp [hnames] at hname
    | some name =>
      rw [Option.bind_some, hnames, Option.bind_some]
      cases hregistered : x.retries.get? name with
      | some strategy => exact .named htask hnames hregistered
      | none =>
        refine .default fun d' name' hd hname => ?_
        obtain rfl := Option.some.inj (htask.symm.trans hd)
        obtain rfl := Option.some.inj (hnames.symm.trans hname)
        exact hregistered

/-! ## Verdicts -/

/-- How an attempt came out. -/
inductive Verdict where
  | ended (ending : Ending TaskResult)
  | overran (limit : Duration)
  | unregistered

namespace Verdict

/-- The error of a failed attempt. -/
def error? (handler : String) : Verdict → Option TaskError
  | .ended (.done (.ok ())) => none
  | .ended (.done (.error e)) => some e
  | .ended (.panic payload) =>
    some { message := "Task panicked: " ++ payload.message, code := some "TaskPanicked" }
  | .overran limit =>
    some {
      message := "Task exceeded its timeout of " ++ limit.decimalText
      code := some "TaskTimeout"
      timedOut := true }
  | .unregistered =>
    some { message := "No task registered as '" ++ handler ++ "'", code := some "TaskNotFound" }

theorem error?_eq_none_iff {handler : String} {v : Verdict} :
    v.error? handler = none ↔ v = .ended (.done (.ok ())) := by
  rcases v with ((e | ⟨⟩) | p) | limit | _ <;> simp [error?]

/-- What the attempt gives. -/
def result (handler : String) (v : Verdict) : TaskResult :=
  match v.error? handler with
  | none => .ok ()
  | some e => .error e

theorem result_ended (handler : String) (limit : Duration) (ending : Ending TaskResult) :
    (ended ending).result handler = TaskDescriptor.resultOf limit (some ending) := by
  rcases ending with (e | ⟨⟩) | p <;> rfl

end Verdict

/-! ## Attempts -/

namespace Execution

variable {R : EngineState → EngineState → Prop} {x : Execution} {j : Job} {now later later' : Nat}
  {s t t' : EngineState} {waits : List (Nat × EngineState)} {v v' : Verdict} {d : TaskDescriptor}
  {limit : Option Duration}

/-- The attempt of a job that begins at time `now` in state `s` comes out as the verdict tells, at
time `later` in state `t`. Its handler waits as `waits` tells. -/
inductive Attempted (R : EngineState → EngineState → Prop) (x : Execution) (j : Job) (now : Nat)
    (s : EngineState) : List (Nat × EngineState) → Verdict → Nat → EngineState → Prop where
  | ended {d : TaskDescriptor} {limit : Option Duration} {waits : List (Nat × EngineState)}
    {ending : Ending TaskResult} {later : Nat} {t : EngineState}
    (task : x.tasks.get? j.handler = some d) (limited : d.LimitedBy j limit)
    (inTime : ∀ l, limit = some l → later ≤ now + l.millisUp)
    (course : Course R (d.handler { job := j, env := x.env }) now s waits ending later t) :
    Attempted R x j now s waits (.ended ending) later t
  | overran {d : TaskDescriptor} {limit : Duration} {waits : List (Nat × EngineState)}
    {t : EngineState} (task : x.tasks.get? j.handler = some d)
    (limited : d.LimitedBy j (some limit))
    (overruns : Overruns R (d.handler { job := j, env := x.env }) limit.millisUp s waits t) :
    Attempted R x j now s waits (.overran limit) (now + limit.millisUp) t
  | unregistered (missing : x.tasks.get? j.handler = none) :
    Attempted R x j now s [] .unregistered now (s.recordError (.taskNotFound j.handler))

/-- The attempts of a job that has a handler. -/
theorem attempted_iff (task : x.tasks.get? j.handler = some d) (limited : d.LimitedBy j limit) :
    Attempted R x j now s waits v later t ↔
      (∃ ending, v = .ended ending ∧ (∀ l, limit = some l → later ≤ now + l.millisUp) ∧
          Course R (d.handler { job := j, env := x.env }) now s waits ending later t) ∨
        ∃ l, limit = some l ∧ v = .overran l ∧ later = now + l.millisUp ∧
          Overruns R (d.handler { job := j, env := x.env }) l.millisUp s waits t := by
  have hlimit := TaskDescriptor.limitedBy_iff.1 limited
  constructor
  · rintro (⟨task', limited', inTime, course⟩ | ⟨task', limited', overruns⟩ | missing)
    · obtain rfl := Option.some.inj (task.symm.trans task')
      obtain rfl := hlimit.symm.trans (TaskDescriptor.limitedBy_iff.1 limited')
      exact .inl ⟨_, rfl, inTime, course⟩
    · obtain rfl := Option.some.inj (task.symm.trans task')
      obtain rfl := hlimit.symm.trans (TaskDescriptor.limitedBy_iff.1 limited')
      exact .inr ⟨_, rfl, rfl, rfl, overruns⟩
    · cases task.symm.trans missing
  · rintro (⟨ending, rfl, inTime, course⟩ | ⟨l, rfl, rfl, rfl, overruns⟩)
    · exact .ended task limited inTime course
    · exact .overran task limited overruns

/-- With given waits there is one verdict at most. -/
theorem Attempted.unique (h : Attempted R x j now s waits v later t)
    (h' : Attempted R x j now s waits v' later' t') : v = v' ∧ later = later' ∧ t = t' := by
  cases htask : x.tasks.get? j.handler with
  | none =>
    cases h with
    | unregistered missing =>
      cases h' with
      | unregistered missing' => exact ⟨rfl, rfl, rfl⟩
      | _ => simp_all
    | _ => simp_all
  | some d =>
    have limited := TaskDescriptor.limitedBy_iff.2 (rfl : d.limitOf j = _)
    rw [attempted_iff htask limited] at h h'
    rcases h with ⟨ending, rfl, -, course⟩ | ⟨l, hl, rfl, rfl, overruns⟩
    · rcases h' with ⟨ending', rfl, -, course'⟩ | ⟨l', -, -, -, overruns'⟩
      · obtain ⟨rfl, rfl, rfl⟩ := course.unique course'
        exact ⟨rfl, rfl, rfl⟩
      · exact absurd course overruns'.not_course
    · rcases h' with ⟨ending', -, -, course'⟩ | ⟨l', hl', rfl, rfl, overruns'⟩
      · exact absurd course' overruns.not_course
      · obtain rfl := Option.some.inj (hl.symm.trans hl')
        exact ⟨rfl, rfl, overruns.unique overruns'⟩

/-- The work on an attempt ends, with what the verdict gives, in every way in which the attempt can
come out and in no other. -/
theorem course_attempt {e : Ending TaskResult} :
    Course R (x.attempt j) now s waits e later t ↔
      ∃ v, e = .done (v.result j.handler) ∧ Attempted R x j now s waits v later t := by
  unfold attempt
  cases htask : x.tasks.get? j.handler with
  | none =>
    constructor
    · rintro (_ | _ | rest | _)
      cases rest
      exact ⟨.unregistered, rfl, .unregistered htask⟩
    · rintro ⟨v, rfl, h⟩
      cases h with
      | unregistered missing => exact .step .done
      | _ => simp_all
  | some d =>
    have limited := TaskDescriptor.limitedBy_iff.2 (rfl : d.limitOf j = _)
    simp only [TaskDescriptor.attempt, attempted_iff htask limited]
    cases d.limitOf j with
    | none =>
      simp only [course_map, course_caught]
      constructor
      · rintro ⟨-, rfl, ending, rfl, course⟩
        exact ⟨.ended ending, congrArg Ending.done (Verdict.result_ended _ _ _).symm,
          .inl ⟨ending, rfl, by simp, course⟩⟩
      · rintro ⟨-, rfl, ⟨ending, rfl, -, course⟩ | ⟨l, hl, -⟩⟩
        · exact ⟨_, congrArg Ending.done (Verdict.result_ended _ _ _), ending, rfl, course⟩
        · cases hl
    | some limit =>
      simp only [course_map, course_within, course_caught, overruns_caught]
      constructor
      · rintro ⟨-, rfl, ⟨-, rfl, hle, ending, rfl, course⟩ | ⟨rfl, rfl, overruns⟩⟩
        · exact ⟨.ended ending, congrArg Ending.done (Verdict.result_ended _ _ _).symm,
            .inl ⟨ending, rfl, by simpa using hle, course⟩⟩
        · exact ⟨.overran limit, rfl, .inr ⟨limit, rfl, rfl, rfl, overruns⟩⟩
      · rintro ⟨-, rfl, ⟨ending, rfl, inTime, course⟩ | ⟨l, hl, rfl, rfl, overruns⟩⟩
        · exact ⟨.done (some ending), congrArg Ending.done (Verdict.result_ended _ _ _),
            .inl ⟨.done ending, rfl, inTime limit rfl, ending, rfl, course⟩⟩
        · obtain rfl := Option.some.inj hl
          exact ⟨.done none, rfl, .inr ⟨rfl, rfl, overruns⟩⟩

/-- An attempt ends, unless its handler waits for ever and has no limit. -/
theorem exists_run_attempt
    (hends : ∀ d, x.tasks.get? j.handler = some d → d.LimitedBy j none →
      ∃ e t, (d.handler { job := j, env := x.env }).run now s = (some e, t)) :
    ∃ result later t, (x.attempt j).run now s = (some (.done result, later), t) := by
  have hended : ∃ e later t, (x.attempt j).run now s = (some (e, later), t) := by
    unfold attempt
    cases htask : x.tasks.get? j.handler with
    | none => exact ⟨_, _, _, rfl⟩
    | some d =>
      simp only [TaskDescriptor.attempt]
      cases hlimit : d.limitOf j with
      | none =>
        obtain ⟨⟨e, later⟩, t, hrun⟩ := hends d htask (TaskDescriptor.limitedBy_iff.2 hlimit)
        simp only [run_bind, run_caught, hrun]
        exact ⟨_, _, _, rfl⟩
      | some limit =>
        obtain ⟨e, later, t, hrun⟩ := exists_run_within
          (d.handler { job := j, env := x.env }).caught limit.millisUp now s
        simp only [run_bind, hrun]
        cases e <;> exact ⟨_, _, _, rfl⟩
  obtain ⟨e, later, t, hrun⟩ := hended
  -- Panics are caught, so the attempt ends with a result.
  obtain ⟨waits, hcourse⟩ := Course.of_run (R := fun _ _ => True) (fun _ => trivial) hrun
  obtain ⟨v, rfl, -⟩ := course_attempt.1 hcourse
  exact ⟨_, _, _, hrun⟩

/-- A picked job is attempted, and the outcome is applied at once. -/
theorem course_process {e : Ending Unit} :
    Course R (x.process j) now s waits e later t ↔
      ∃ v u, e = .done () ∧ t = x.settle j (v.result j.handler) (later - now) u ∧
        Attempted R x j now s waits v later u := by
  unfold process
  rw [course_bind]
  constructor
  · rintro (⟨first, rest, ⟨result, elapsed⟩, mid, u, rfl, hfirst, hrest⟩ | ⟨p, rfl, hp⟩)
    · obtain ⟨e', he, hattempt⟩ := course_timed.1 hfirst
      obtain ⟨v, rfl, h⟩ := course_attempt.1 hattempt
      rw [Nat.zero_add] at he
      obtain ⟨rfl, rfl⟩ := Prod.mk.inj (Ending.done.inj he)
      rcases hrest with _ | _ | rest | _
      cases rest
      rw [List.append_nil]
      exact ⟨v, u, rfl, rfl, h⟩
    · obtain ⟨e', he, hattempt⟩ := course_timed.1 hp
      obtain ⟨v, rfl, -⟩ := course_attempt.1 hattempt
      cases he
  · rintro ⟨v, u, rfl, rfl, h⟩
    refine .inl ⟨waits, [], (v.result j.handler, later - now), later, u,
      (List.append_nil _).symm, ?_, .step .done⟩
    refine course_timed.2 ⟨_, ?_, course_attempt.2 ⟨v, rfl, h⟩⟩
    rw [Nat.zero_add]
    rfl

/-- An iteration that picks a job has processed it when its outcome is applied. -/
theorem course_iterate {e : Ending IterationStatus} {u : EngineState}
    (hpick : s.pick = (some j, u)) :
    Course R x.iterate now s waits e later t ↔
      ∃ v w, e = .done .processed ∧ t = x.settle j (v.result j.handler) (later - now) w ∧
        Attempted R x j now u waits v later w := by
  have hrest : Course R x.iterate now s waits e later t ↔
      Course R ((x.process j).bind fun _ => .done .processed) now u waits e later t := by
    unfold iterate act
    constructor
    · rintro (_ | _ | rest | _)
      simpa only [hpick] using rest
    · intro h
      refine .step ?_
      simpa only [hpick] using h
  rw [hrest, course_map]
  constructor
  · rintro ⟨e', rfl, h⟩
    obtain ⟨v, w, rfl, ht, hattempted⟩ := course_process.1 h
    exact ⟨v, w, rfl, ht, hattempted⟩
  · rintro ⟨v, w, rfl, ht, hattempted⟩
    exact ⟨.done (), rfl, course_process.2 ⟨v, w, rfl, ht, hattempted⟩⟩

theorem exists_run_iterate {u : EngineState} (hpick : s.pick = (some j, u))
    (hends : ∀ d, x.tasks.get? j.handler = some d → d.LimitedBy j none →
      ∃ e t, (d.handler { job := j, env := x.env }).run now u = (some e, t)) :
    ∃ later t, x.iterate.run now s = (some (.done .processed, later), t) := by
  obtain ⟨result, later, t, hrun⟩ := exists_run_attempt hends
  refine ⟨later, x.settle j result (0 + (later - now)) t, ?_⟩
  simp only [iterate, act, run, hpick, process, run_bind, run_timed, hrun, Activity.modify]

end Execution

end JobEngine
