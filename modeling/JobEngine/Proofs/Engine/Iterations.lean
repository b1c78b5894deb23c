-- SUMMARY: Iterations, events, metrics and lost outcomes agree on how many jobs were processed.
import JobEngine.Engine.Script
import JobEngine.Proofs.Engine.Deeds

/-!
# Iterations of workers

An iteration that picks a job tells so once, counts its attempt once, and tells its outcome once
unless the storage call that saves the outcome fails or is refused. An iteration that picks none
does nothing that anybody could see. So four numbers that come about in different places agree: the
iterations that processed a job, the selections that were told, the attempts on the metrics, and the
outcomes that were told together with those that were lost.
-/

namespace JobEngine

open Activity

/-! ## Picking and concluding -/

namespace Routine

variable {α : Type} {R : EngineState → EngineState → Prop} {s t u : EngineState}
  {deeds : List Deed} {j : Job} {x : Execution}

/-- A pick tells the job that it picked, or it does not show at all. -/
theorem tally_pick {picked : Option Job} (h : Performs R pick s deeds picked t) :
    (picked = none ∧ told deeds = [] ∧ tally deeds = .zero ∧
        ∀ d ∈ deeds, d.after.store.jobs = d.before.store.jobs) ∨
      ∃ j, picked = some j ∧ tally deeds = ⟨1, 0, 0, 0⟩ := by
  obtain ⟨u, v, answer, rest, rfl, hevents, hattempts, hanswer, later⟩ := h.of_call
  have hnothing (call : Option ((c : StorageCall) × Except EngineError c.Answer)) :
      told [⟨u, v, call⟩] = [] := by
    simp [told, Deed.told, hevents]
  rcases hanswer with ⟨e, rfl, hstore⟩ | ⟨hfound, hstore⟩
  · cases later with
    | done last =>
      exact .inl ⟨rfl, hnothing _, tally_silent hevents hattempts rfl,
        List.forall_mem_singleton.2 (congrArg Store.jobs hstore)⟩
  · simp only [StorageCall.effect, Store.pickJob] at hfound hstore
    cases hfirst : Job.firstPicked? (u.store.jobs.values.filter (fun j => j.state = .enqueued)) with
    | none =>
      simp only [hfirst] at hfound hstore
      subst hfound
      cases later with
      | done last =>
        exact .inl ⟨rfl, hnothing _, tally_silent hevents hattempts rfl,
          List.forall_mem_singleton.2 (congrArg Store.jobs hstore)⟩
    | some j =>
      simp only [hfirst] at hfound
      subst hfound
      cases later with
      | done last =>
        exact .inr ⟨_, rfl, tally_dispatch hevents hattempts rfl⟩

/-- An attempt that succeeded is told as such, unless its outcome is lost. -/
theorem tally_handleSuccess {r : Except EngineError Job}
    (h : Performs R (handleSuccess j) s deeds r t) :
    tally deeds = if r.isOk then ⟨0, 1, 0, 0⟩ else ⟨0, 0, 0, 1⟩ := by
  cases h with
  | @step _ _ _ _ u _ deeds around later =>
    rw [tally_cons, tally_silent rfl rfl rfl, Tally.zero_add]
    obtain ⟨v, w, answer, rest, rfl, hevents, hattempts, hanswer, later⟩ := later.of_call
    rcases hanswer with ⟨e, rfl, -⟩ | ⟨rfl, -⟩
    · cases later with
      | done last =>
        exact tally_lost hevents hattempts
    · cases later with
      | done last =>
        exact tally_dispatch hevents hattempts rfl

theorem isConclusion_failureEvent (retried : Bool) (k : Job) (error : TaskError) :
    (EngineState.failureEvent retried k error).isConclusion = true ∧
      (EngineState.failureEvent retried k error).isSelection = false := by
  cases retried <;> exact ⟨rfl, rfl⟩

/-- An attempt that failed is told as such once its outcome is saved, whether or not its message is.
-/
theorem tally_handleFailure {error : TaskError} {strategy : RetryStrategy}
    {r : Except EngineError Job} (h : Performs R (handleFailure j error strategy) s deeds r t) :
    tally deeds = if r.isOk then ⟨0, 1, 0, 0⟩ else ⟨0, 0, 0, 1⟩ := by
  cases h with
  | @step _ _ _ _ u _ deeds around later =>
    have hdrawn : tally [⟨u, (u.afterFailure j strategy).2, none⟩] = .zero :=
      tally_silent (u.afterFailure_events j strategy) (u.attempts_afterFailure j strategy) rfl
    rw [tally_cons, hdrawn, Tally.zero_add]
    obtain ⟨v, w, answer, rest, rfl, hevents, hattempts, hanswer, later⟩ := later.of_call
    rcases hanswer with ⟨e, rfl, -⟩ | ⟨rfl, -⟩
    · cases later with
      | done last =>
        exact tally_lost hevents hattempts
    · rw [tally_cons, tally_silent hevents hattempts rfl, Tally.zero_add]
      obtain ⟨v', w', answer', rest, rfl, hevents', hattempts', -, later⟩ := Performs.of_call later
      cases later with
      | done last =>
        obtain ⟨hconclusion, hselection⟩ := isConclusion_failureEvent j.hasRetriesLeft
          (u.afterFailure j strategy).1 error
        refine (tally_dispatch hevents' hattempts' rfl).trans ?_
        rw [hconclusion, hselection]
        rfl

end Routine

/-! ## Iterations -/

/-- The handlers report their progress and tell nothing else, and they count no attempts. -/
def Execution.Modest (x : Execution) : Prop :=
  ∀ name d, x.tasks.get? name = some d → ∀ ctx, (d.handler ctx).Always Unassuming

theorem ScriptAction.always_follow (ctx : TaskContext) (actions : List ScriptAction) :
    (follow ctx actions).Always Unassuming := by
  induction actions with
  | nil => trivial
  | cons action rest ih =>
    cases action with
    | sleep ms => exact fun _ => ih
    | progress percent message =>
      refine fun s => ⟨⟨⟨_, rfl, by simp [EngineEvent.isProgress]⟩, ?_⟩, ih⟩
      exact Metrics.attempts_recordEvent _ _
    | fail e cause =>
      refine fun s => ⟨?_, trivial⟩
      cases cause with
      | none => exact .refl s
      | some cause => exact unassuming_recordError s cause
    | panic payload => trivial
    | tellVariable name => trivial
    | readPayload read =>
      simp only [follow]
      split
      · exact ih
      · exact fun s => ⟨unassuming_recordError s _, trivial⟩
    | tellJob => exact fun s => ⟨.refl s, trivial⟩
    | awaitCancel => exact fun _ => trivial

/-- Scripted handlers are modest. -/
theorem Handler.always_scripted (name : String) (scripts : List (List ScriptAction))
    (ctx : TaskContext) : (Handler.scripted name scripts ctx).Always Unassuming := fun _ =>
  ⟨⟨⟨[], (List.append_nil _).symm, by simp⟩, rfl⟩, ScriptAction.always_follow ctx _⟩

/-- An iteration that was carried to its end: what it came to, and what it did. -/
structure Round where
  status : IterationStatus
  deeds : List Deed

namespace Round

/-- The iterations that processed a job. -/
def processed (rounds : List Round) : Nat := rounds.countP (·.status = .processed)

/-- Everything that some iterations did. -/
def allDeeds (rounds : List Round) : List Deed := rounds.flatMap Round.deeds

end Round

/-- Iterations one after another, each with surroundings that may change the state by `R`. -/
inductive Rounds (R : EngineState → EngineState → Prop) (x : Execution) :
    EngineState → List Round → EngineState → Prop where
  | none {s : EngineState} : Rounds R x s [] s
  | more {s u t : EngineState} {status : IterationStatus} {deeds : List Deed} {rounds : List Round}
    (first : Routine.Performs R (Routine.iterate x) s deeds status u)
    (later : Rounds R x u rounds t) : Rounds R x s (⟨status, deeds⟩ :: rounds) t

/-- From `s` to `t` no event and no attempt was taken back. -/
structure Grows (s t : EngineState) : Prop where
  events : s.events <+: t.events
  attempts : s.attempts ≤ t.attempts

namespace Grows

variable {s t u : EngineState}

theorem of_eq (hevents : t.events = s.events) (hattempts : t.attempts = s.attempts) : Grows s t :=
  ⟨hevents ▸ List.prefix_refl _, Nat.le_of_eq hattempts.symm⟩

theorem refl (s : EngineState) : Grows s s := .of_eq rfl rfl

theorem trans (h : Grows s t) (h' : Grows t u) : Grows s u :=
  ⟨h.events.trans h'.events, Nat.le_trans h.attempts h'.attempts⟩

end Grows

theorem Unassuming.grows {s t : EngineState} (h : Unassuming s t) : Grows s t := by
  obtain ⟨l, hevents, -⟩ := h.events
  exact ⟨⟨l, hevents.symm⟩, Nat.le_of_eq h.attempts.symm⟩

section Iterations

variable {R : EngineState → EngineState → Prop} {x : Execution} {s t : EngineState}
  {deeds : List Deed} {rounds : List Round} {status : IterationStatus}

open Routine

theorem Execution.Modest.always_attempt (hx : x.Modest) (j : Job) :
    (x.attempt j).Always Unassuming :=
  Execution.always_attempt Unassuming.refl unassuming_recordError hx j

/-- The work on a job counts one attempt, and tells one outcome or loses it. -/
theorem tally_process {j : Job} {r : Except EngineError Job} (hrefl : ∀ s, R s s) (hx : x.Modest)
    (h : Performs R (Routine.process x j) s deeds r t) :
    tally deeds = if r.isOk then ⟨0, 1, 1, 0⟩ else ⟨0, 0, 1, 1⟩ := by
  obtain ⟨u, ⟨result, elapsed⟩, first, rest, rfl, hattempt, hconclude⟩ := h.of_bind hrefl
  have hhandler : tally first = .zero := tally_eq_zero fun d hd => by
    obtain ⟨hcall, hd⟩ := hattempt.of_ofActivity ((hx.always_attempt j).timed 0) d hd
    exact tally_unassuming hd hcall
  rw [tally_append, hhandler, Tally.zero_add]
  cases hconclude with
  | @step _ _ _ _ v _ rest around later =>
    have hcounted : tally [⟨v, countAttempt j result elapsed v, none⟩] = ⟨0, 0, 1, 0⟩ :=
      tally_singleton (l := []) (n := 1) (List.append_nil _).symm
        (Metrics.attempts_recordExecution _ _ _ _)
    have houtcome : tally rest = if r.isOk then ⟨0, 1, 0, 0⟩ else ⟨0, 0, 0, 1⟩ := by
      cases result with
      | ok value => exact tally_handleSuccess later
      | error e => exact tally_handleFailure later
    rw [tally_cons, hcounted, houtcome]
    split <;> rfl

/-- An iteration that picks a job shows in each of the numbers once, and another one in none. -/
theorem tally_iterate (hrefl : ∀ s, R s s) (hx : x.Modest)
    (h : Performs R (iterate x) s deeds status t) :
    (status = .skipped ∧ told deeds = [] ∧ tally deeds = .zero ∧
        ∀ d ∈ deeds, d.after.store.jobs = d.before.store.jobs) ∨
      status = .processed ∧ (tally deeds = ⟨1, 1, 1, 0⟩ ∨ tally deeds = ⟨1, 0, 1, 1⟩) := by
  rw [iterate_eq] at h
  obtain ⟨u, picked, first, rest, rfl, hpick, hrest⟩ := h.of_bind hrefl
  rcases tally_pick hpick with ⟨rfl, htold, hnothing, hjobs⟩ | ⟨j, rfl, hselected⟩
  · cases hrest with
    | done last =>
      rw [List.append_nil]
      exact .inl ⟨rfl, htold, hnothing, hjobs⟩
  · obtain ⟨v, r, work, last, rfl, hprocess, hlast⟩ := Performs.of_bind hrefl hrest
    cases hlast with
    | done around =>
      rw [List.append_nil, tally_append, hselected, tally_process hrefl hx hprocess]
      refine .inr ⟨rfl, ?_⟩
      cases r with
      | ok k => exact .inl rfl
      | error e => exact .inr rfl

/-- The four numbers agree on any iterations. -/
theorem Rounds.agree (hrefl : ∀ s, R s s) (hx : x.Modest) (h : Rounds R x s rounds t) :
    Round.processed rounds = (tally (Round.allDeeds rounds)).selected ∧
      Round.processed rounds = (tally (Round.allDeeds rounds)).counted ∧
      Round.processed rounds = (tally (Round.allDeeds rounds)).concluded +
        (tally (Round.allDeeds rounds)).lost := by
  induction h with
  | none => exact ⟨rfl, rfl, rfl⟩
  | @more s u t status deeds rounds first later ih =>
    obtain ⟨hselected, hcounted, hconcluded⟩ := ih
    have hall : Round.allDeeds (⟨status, deeds⟩ :: rounds) = deeds ++ Round.allDeeds rounds := rfl
    have hprocessed : Round.processed (⟨status, deeds⟩ :: rounds) =
        (if status = .processed then 1 else 0) + Round.processed rounds := by
      simp only [Round.processed, List.countP_cons, decide_eq_true_eq]
      omega
    rw [hall, tally_append, hprocessed]
    rcases tally_iterate hrefl hx first with ⟨rfl, -, htally, -⟩ | ⟨rfl, htally | htally⟩
    all_goals
      rw [htally]
      simp only [Tally.add, Tally.zero, reduceCtorEq, if_true, if_false]
      omega

/-- An iteration takes back no event and no attempt. -/
theorem Execution.Modest.always_iterate (hx : x.Modest) :
    (Routine.iterate x).work.Always Grows := by
  have hdispatch (e : EngineEvent) (s : EngineState) : Grows s (s.dispatch e) :=
    ⟨List.prefix_append _ _, Nat.le_of_eq (Metrics.attempts_recordEvent _ _).symm⟩
  have hrequest (s : EngineState) (c : StorageCall) : Grows s (s.request c).2 :=
    .of_eq (s.request_events c) (s.attempts_request c)
  have hanswer {c : StorageCall} {after : c.Answer → EngineState → EngineState}
      (h : ∀ a s, Grows s (after a s)) (s : EngineState) :
      Grows s (onAnswer after (s.request c).1 (s.request c).2) := by
    refine (hrequest s c).trans ?_
    cases (s.request c).1 with
    | ok a => exact h a _
    | error e => exact .refl _
  refine Each.always (each_iterate ?attempt ?pick Grows.refl ?count ?complete ?draw ?save ?note)
  case attempt =>
    exact fun j => each_ofActivity (((hx.always_attempt j).mono Unassuming.grows).timed 0)
  case pick =>
    refine hanswer fun picked s => ?_
    cases picked with
    | none => exact .refl s
    | some j => exact hdispatch _ s
  case count =>
    refine fun handler outcome took s => ⟨List.prefix_refl _, ?_⟩
    exact Nat.le_trans (Nat.le_succ _)
      (Nat.le_of_eq (Metrics.attempts_recordExecution _ _ _ _).symm)
  case complete => exact fun j => hanswer fun _ => hdispatch _
  case draw =>
    exact fun j strategy s => .of_eq (s.afterFailure_events j strategy)
      (s.attempts_afterFailure j strategy)
  case save => exact fun j => hanswer fun _ => Grows.refl
  case note => exact fun m retried j error s => (hrequest s _).trans (hdispatch _ _)

theorem Rounds.skipped (hrefl : ∀ s, R s s) (hx : x.Modest) (h : Rounds R x s rounds t) :
    ∀ r ∈ rounds, r.status = .processed ∨
      r.status = .skipped ∧ told r.deeds = [] ∧
        ∀ d ∈ r.deeds, d.after.store.jobs = d.before.store.jobs := by
  induction h with
  | none => simp
  | more first later ih =>
    refine List.forall_mem_cons.2 ⟨?_, ih⟩
    rcases tally_iterate hrefl hx first with ⟨hstatus, htold, -, hjobs⟩ | ⟨hstatus, -⟩
    · exact .inr ⟨hstatus, htold, hjobs⟩
    · exact .inl hstatus

/-- What some steps told and counted is the difference that they made. -/
theorem totals_of_linked (hR : ∀ u v, R u v → v.events = u.events ∧ v.attempts = u.attempts)
    (hlinked : Linked R s (deeds.map fun d => (d.before, d.after)) t)
    (hgrows : ∀ d ∈ deeds, Grows d.before d.after) :
    t.events = s.events ++ told deeds ∧ t.attempts = s.attempts + (tally deeds).counted := by
  induction deeds generalizing s with
  | nil =>
    obtain ⟨hevents, hattempts⟩ := hR s t hlinked
    exact ⟨hevents.trans (List.append_nil _).symm, hattempts⟩
  | cons d deeds ih =>
    obtain ⟨around, hrest⟩ := hlinked
    obtain ⟨hevents, hattempts⟩ := hR s d.before around
    obtain ⟨hfirst, hlater⟩ := List.forall_mem_cons.1 hgrows
    obtain ⟨htold, hcounted⟩ := ih hrest hlater
    have hevents' : d.after.events = s.events ++ d.told := by
      rw [← hevents]
      exact (List.prefix_iff_eq_append.1 hfirst.events).symm
    have hattempts' : d.after.attempts = s.attempts + d.counted := by
      have hle := hfirst.attempts
      simp only [Deed.counted]
      omega
    refine ⟨?_, ?_⟩
    · rw [htold, hevents', List.append_assoc]
      rfl
    · rw [hcounted, hattempts', Nat.add_assoc]
      rfl

/-- If nobody else tells events or counts attempts, all that there are in the end were there before
or come from the steps of the iterations. -/
theorem Rounds.totals (hR : ∀ u v, R u v → v.events = u.events ∧ v.attempts = u.attempts)
    (hx : x.Modest) (h : Rounds R x s rounds t) :
    t.events = s.events ++ told (Round.allDeeds rounds) ∧
      t.attempts = s.attempts + (tally (Round.allDeeds rounds)).counted := by
  induction h with
  | none => exact ⟨(List.append_nil _).symm, rfl⟩
  | @more s u t status deeds rounds first later ih =>
    obtain ⟨hevents, hattempts⟩ :=
      totals_of_linked hR first.linked (first.always hx.always_iterate)
    obtain ⟨hevents', hattempts'⟩ := ih
    have hall : Round.allDeeds (⟨status, deeds⟩ :: rounds) = deeds ++ Round.allDeeds rounds := rfl
    rw [hall, told_append, tally_append, hevents', hattempts', hevents, hattempts]
    exact ⟨List.append_assoc _ _ _, Nat.add_assoc _ _ _⟩

/-- The iterations that processed a job are as many as the jobs that were told to be selected, as
the attempts on the metrics, and as the outcomes that were told together with those that the storage
or the breaker did not let be saved. Every other iteration was skipped: it told nothing and changed
no job record. -/
theorem iterations_agree (hrefl : ∀ s, R s s) (hx : x.Modest) (h : Rounds R x s rounds t) :
    (Routine.iterate x).work.SameAlone x.iterate ∧
      Round.processed rounds = (told (Round.allDeeds rounds)).countP EngineEvent.isSelection ∧
      Round.processed rounds =
        (Round.allDeeds rounds).foldr (fun d n => d.counted + n) 0 ∧
      Round.processed rounds =
        (told (Round.allDeeds rounds)).countP EngineEvent.isConclusion +
          (Round.allDeeds rounds).countP Deed.isLostSave ∧
      (∀ r ∈ rounds, r.status = .processed ∨
        r.status = .skipped ∧ told r.deeds = [] ∧
          ∀ d ∈ r.deeds, d.after.store.jobs = d.before.store.jobs) ∧
      ((∀ u v, R u v → v.events = u.events ∧ v.attempts = u.attempts) →
        t.events = s.events ++ told (Round.allDeeds rounds) ∧
          t.attempts = s.attempts + Round.processed rounds) := by
  obtain ⟨hselected, hcounted, hconcluded⟩ := h.agree hrefl hx
  refine ⟨iterate_alone x, hselected, hcounted, hconcluded, ?skipped, fun hR => ?totals⟩
  case skipped => exact h.skipped hrefl hx
  case totals =>
    obtain ⟨hevents, hattempts⟩ := h.totals hR hx
    exact ⟨hevents, hcounted ▸ hattempts⟩

end Iterations

/-- An iteration with nobody about. -/
theorem Rounds.of_run {x : Execution} {s t u : EngineState} {status : IterationStatus} {later : Nat}
    {rounds : List Round} (h : (Routine.iterate x).work.run 0 s = (some (.done status, later), t))
    (hlater : Rounds (· = ·) x t rounds u) :
    ∃ deeds, Rounds (· = ·) x s (⟨status, deeds⟩ :: rounds) u := by
  obtain ⟨log, hlog⟩ := interrupted_of_run (R := (· = ·)) (fun _ => rfl) h
  obtain ⟨deeds, -, hdeeds⟩ := Routine.performs_of_interrupted hlog
  exact ⟨deeds, .more hdeeds hlater⟩

/-- The only handler follows a script. -/
def scripted : Execution where
  tasks := (∅ : TaskRegistry).register
    { name := "report", handler := .scripted "report" [[.progress 50 none]] }

theorem modest_scripted : scripted.Modest := by
  intro name d hd ctx
  rw [TaskRegistry.eq_of_get?_single hd]
  exact Handler.always_scripted _ _ ctx

/-- The state after a number of iterations. -/
def afterRounds : Nat → EngineState
  | 0 => shaky
  | n + 1 => ((Routine.iterate scripted).work.run 0 (afterRounds n)).2

/-- The outcome of the only job is lost, so the first of two iterations told no outcome, and the
other one was skipped. -/
theorem shaky_iterations_agree :
    ∃ rounds, Rounds (· = ·) scripted shaky rounds (afterRounds 2) ∧ rounds.length = 2 ∧
      Round.processed rounds = 1 ∧
      (told (Round.allDeeds rounds)).countP EngineEvent.isSelection = 1 ∧
      (told (Round.allDeeds rounds)).countP EngineEvent.isConclusion = 0 ∧
      (Round.allDeeds rounds).countP Deed.isLostSave = 1 := by
  have hfirst : (Routine.iterate scripted).work.run 0 shaky =
      (some (.done .processed, 0), afterRounds 1) := Prod.ext (by decide +kernel) rfl
  have hsecond : (Routine.iterate scripted).work.run 0 (afterRounds 1) =
      (some (.done .skipped, 0), afterRounds 2) := Prod.ext (by decide +kernel) rfl
  obtain ⟨second, hrest⟩ := Rounds.of_run hsecond .none
  obtain ⟨first, hrounds⟩ := Rounds.of_run hfirst hrest
  obtain ⟨-, hselected, -, hconcluded, -, htotals⟩ :=
    iterations_agree (fun _ => rfl) modest_scripted hrounds
  obtain ⟨hevents, hattempts⟩ := htotals fun u v h => h ▸ ⟨rfl, rfl⟩
  have hprocessed : (afterRounds 2).attempts = 1 := by decide +kernel
  have htold : (afterRounds 2).events.countP EngineEvent.isConclusion = 0 := by decide +kernel
  rw [hprocessed] at hattempts
  rw [hevents] at htold
  refine ⟨_, hrounds, rfl, ?_⟩
  have hone : Round.processed [⟨.processed, first⟩, ⟨.skipped, second⟩] = 1 := rfl
  have hnone : (told (Round.allDeeds [⟨.processed, first⟩, ⟨.skipped, second⟩])).countP
      EngineEvent.isConclusion = 0 := htold
  exact ⟨hone, hselected.symm.trans hone, hnone, by omega⟩

end JobEngine
