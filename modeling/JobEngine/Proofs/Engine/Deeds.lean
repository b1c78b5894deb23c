-- SUMMARY: The steps that a routine makes among others, and what they tell, count and lose.
import JobEngine.Proofs.Engine.Accounting
import JobEngine.Proofs.Engine.Reclaim

/-!
# Deeds of routines

Others may change the state in any way between the steps of a routine, so what the routine does
itself cannot be read off the states around it. `Performs` keeps a log of its steps. What each step
told, counted and lost is read off the log and summed up in a tally.
-/

namespace JobEngine

open Activity

/-! ## Attempts on the metrics -/

/-- The counter is one of attempts, of whichever handler and outcome. -/
def Counter.isOfAttempts : Counter → Bool
  | .jobsProcessed _ _ => true
  | _ => false

namespace Metrics

/-- The attempts of all handlers with all outcomes. -/
def attemptsIn (counters : List (Counter × Nat)) : Nat :=
  counters.foldr (fun e n => (if e.1.isOfAttempts then e.2 else 0) + n) 0

def attempts (m : Metrics) : Nat := attemptsIn m.counters

theorem attemptsIn_update (c : Counter) (counters : List (Counter × Nat)) :
    attemptsIn (update c 0 (· + 1) counters) =
      attemptsIn counters + if c.isOfAttempts then 1 else 0 := by
  induction counters with
  | nil => cases c <;> rfl
  | cons e rest ih =>
    simp only [update]
    split
    · rename_i hsame
      subst hsame
      cases hc : e.1.isOfAttempts
      · simp [attemptsIn, hc]
      · simp [attemptsIn, hc]
        omega
    · simp only [attemptsIn, List.foldr_cons] at ih ⊢
      omega

theorem attempts_increment (m : Metrics) (c : Counter) :
    (m.increment c).attempts = m.attempts + if c.isOfAttempts then 1 else 0 :=
  attemptsIn_update c m.counters

@[simp] theorem attempts_recordEvent (m : Metrics) (e : EngineEvent) :
    (m.recordEvent e).attempts = m.attempts := by
  cases e <;> exact m.attempts_increment _

@[simp] theorem attempts_recordError (m : Metrics) (e : EngineError) :
    (m.recordError e).attempts = m.attempts :=
  m.attempts_increment _

@[simp] theorem attempts_recordTransition (m : Metrics) (kind : CircuitKind) :
    (m.recordTransition kind).attempts = m.attempts :=
  m.attempts_increment _

@[simp] theorem attempts_recordExecution (m : Metrics) (handler outcome : String)
    (took : Duration) : (m.recordExecution handler outcome took).attempts = m.attempts + 1 :=
  m.attempts_increment _

end Metrics

namespace EngineState

variable {α : Type}

/-- The attempts that were counted. -/
abbrev attempts (s : EngineState) : Nat := s.metrics.attempts

@[simp] theorem attempts_moveBreaker (s : EngineState) (f : Breaker → Breaker) :
    (s.moveBreaker f).attempts = s.attempts := by
  simp only [attempts, moveBreaker]
  split
  · exact Metrics.attempts_recordTransition _ _
  · rfl

/-- Storage calls are not attempts. -/
theorem attempts_guarded (s : EngineState) (call : Backend → Except EngineError α × Backend) :
    (s.guarded call).2.attempts = s.attempts := by
  refine @guarded_preserves _ (fun s t => t.attempts = s.attempts) ?_ attempts_moveBreaker
    (fun _ _ _ => rfl) (fun _ _ => Metrics.attempts_recordError _ _) s call
  exact fun h h' => h'.trans h

theorem attempts_request (s : EngineState) (c : StorageCall) :
    (s.request c).2.attempts = s.attempts :=
  s.attempts_guarded _

theorem attempts_afterFailure (s : EngineState) (j : Job) (strategy : RetryStrategy) :
    (s.afterFailure j strategy).2.attempts = s.attempts := by
  obtain ⟨dice, h⟩ := s.exists_dice_afterFailure j strategy
  rw [h]

end EngineState

/-! ## What a routine does -/

namespace EngineEvent

/-- A job was selected. -/
def isSelection : EngineEvent → Bool
  | .jobSelected _ => true
  | _ => false

/-- An attempt was concluded: its job is completed, waits for the next attempt, or failed. -/
def isConclusion : EngineEvent → Bool
  | .jobCompleted _ | .jobRetrying _ _ | .jobFailed _ _ => true
  | _ => false

def isProgress : EngineEvent → Bool
  | .jobProgress _ => true
  | _ => false

theorem isSelection_of_isProgress {e : EngineEvent} (h : e.isProgress) : e.isSelection = false := by
  cases e with
  | jobSelected j => cases h
  | _ => rfl

theorem isConclusion_of_isProgress {e : EngineEvent} (h : e.isProgress) :
    e.isConclusion = false := by
  cases e with
  | jobProgress progress => rfl
  | _ => first | rfl | cases h

end EngineEvent

/-- A step that a routine made: the states around it, and the storage call that it made with its
answer, if it made one. -/
structure Deed where
  before : EngineState
  after : EngineState
  call : Option ((c : StorageCall) × Except EngineError c.Answer) := none

namespace Deed

/-- The events that the step dispatched. -/
def told (d : Deed) : List EngineEvent := d.after.events.drop d.before.events.length

/-- The attempts that the step counted. -/
def counted (d : Deed) : Nat := d.after.attempts - d.before.attempts

/-- The step tried to save a job, and the storage failed or the breaker refused. -/
def isLostSave (d : Deed) : Bool :=
  match d.call with
  | some ⟨.saveJob _, .error _⟩ => true
  | _ => false

end Deed

namespace Routine

variable {α β : Type} {R : EngineState → EngineState → Prop} {s t : EngineState}
  {deeds : List Deed} {a : α} {b : β}

/-- The routine gets from `s` to its result and `t` by some steps. Before each step and at the end
others may change the state by `R`, and they decide how long each wait takes. -/
inductive Performs (R : EngineState → EngineState → Prop) :
    Routine α → EngineState → List Deed → α → EngineState → Prop where
  | done {a : α} {s t : EngineState} (around : R s t) : Performs R (.done a) s [] a t
  | step {change : EngineState → EngineState} {next : EngineState → Routine α} {a : α}
    {s u t : EngineState} {deeds : List Deed} (around : R s u)
    (later : Performs R (next u) (change u) deeds a t) :
    Performs R (.step change next) s (⟨u, change u, none⟩ :: deeds) a t
  | wait {limit : Option Nat} {ready : EngineState → Bool} {next : Nat → Routine α} {waited : Nat}
    {a : α} {s t : EngineState} {deeds : List Deed} (later : Performs R (next waited) s deeds a t) :
    Performs R (.wait limit ready next) s deeds a t
  | call {c : StorageCall} {after : Except EngineError c.Answer → EngineState → EngineState}
    {next : Except EngineError c.Answer → Routine α} {a : α} {s u t : EngineState}
    {deeds : List Deed} (around : R s u)
    (later : Performs R (next (u.request c).1) (after (u.request c).1 (u.request c).2) deeds a t) :
    Performs R (.call c after next) s
      (⟨u, after (u.request c).1 (u.request c).2, some ⟨c, (u.request c).1⟩⟩ :: deeds) a t

/-- The states of the steps are those of the work as it is interrupted. -/
theorem performs_of_interrupted {r : Routine α} {log : List (EngineState × EngineState)}
    (h : Interrupted R r.work s log a t) :
    ∃ deeds : List Deed, log = deeds.map (fun d => (d.before, d.after)) ∧
      Performs R r s deeds a t := by
  induction r generalizing s log with
  | done b =>
    cases h with
    | done around => exact ⟨[], rfl, .done around⟩
  | panic p => cases h
  | step change next ih =>
    cases h with
    | step around later =>
      obtain ⟨deeds, rfl, hlater⟩ := ih _ later
      exact ⟨_, rfl, .step around hlater⟩
  | wait limit ready next ih =>
    cases h with
    | wait later =>
      obtain ⟨deeds, rfl, hlater⟩ := ih _ later
      exact ⟨deeds, rfl, .wait hlater⟩
  | call c after next ih =>
    cases h with
    | step around later =>
      obtain ⟨deeds, rfl, hlater⟩ := ih _ later
      exact ⟨_, rfl, .call around hlater⟩

theorem Performs.linked {r : Routine α} (h : Performs R r s deeds a t) :
    Linked R s (deeds.map fun d => (d.before, d.after)) t := by
  induction h with
  | done around => exact around
  | step around later ih => exact ⟨around, ih⟩
  | wait later ih => exact ih
  | call around later ih => exact ⟨around, ih⟩

/-- A storage call fails, or it has its effect. It tells nothing and counts nothing either way. -/
theorem Performs.of_call {c : StorageCall}
    {after : Except EngineError c.Answer → EngineState → EngineState}
    {next : Except EngineError c.Answer → Routine α}
    (h : Performs R (.call c after next) s deeds a t) :
    ∃ u v answer rest, deeds = ⟨u, after answer v, some ⟨c, answer⟩⟩ :: rest ∧
      v.events = u.events ∧ v.attempts = u.attempts ∧
      ((∃ e, answer = .error e ∧ v.store = u.store) ∨
        answer = .ok (c.effect u.now u.nextJobId u.store).1 ∧
          v.store = (c.effect u.now u.nextJobId u.store).2) ∧
      Performs R (next answer) (after answer v) rest a t := by
  cases h with
  | @call _ _ _ _ _ u _ rest around later =>
    refine ⟨u, (u.request c).2, (u.request c).1, rest, rfl, u.request_events c,
      u.attempts_request c, ?_, later⟩
    rcases u.request_cases c with ⟨e, v, hv, hstore, -⟩ | ⟨v, hv, hstore, -⟩
    · rw [hv]
      exact .inl ⟨e, rfl, hstore⟩
    · rw [hv]
      exact .inr ⟨rfl, hstore⟩

/-- A routine that goes on with the result of another one first performs that one. -/
theorem Performs.of_bind {r : Routine α} {k : α → Routine β} (hrefl : ∀ s, R s s)
    (h : Performs R (r.bind k) s deeds b t) :
    ∃ u a first rest, deeds = first ++ rest ∧ Performs R r s first a u ∧
      Performs R (k a) u rest b t := by
  induction r generalizing s deeds with
  | done a => exact ⟨s, a, [], deeds, rfl, .done (hrefl s), h⟩
  | panic p => cases h
  | step change next ih =>
    cases h with
    | step around later =>
      obtain ⟨u, a, first, rest, rfl, hfirst, hrest⟩ := ih _ later
      exact ⟨u, a, _, rest, rfl, .step around hfirst, hrest⟩
  | wait limit ready next ih =>
    cases h with
    | wait later =>
      obtain ⟨u, a, first, rest, rfl, hfirst, hrest⟩ := ih _ later
      exact ⟨u, a, first, rest, rfl, .wait hfirst, hrest⟩
  | call c after next ih =>
    cases h with
    | call around later =>
      obtain ⟨u, a, first, rest, rfl, hfirst, hrest⟩ := ih _ later
      exact ⟨u, a, _, rest, rfl, .call around hfirst, hrest⟩

theorem Performs.always {P : EngineState → EngineState → Prop} {r : Routine α}
    (h : Performs R r s deeds a t) (hr : r.work.Always P) : ∀ d ∈ deeds, P d.before d.after := by
  induction h with
  | done around => simp
  | @step change next a s u t deeds around later ih =>
    exact List.forall_mem_cons.2 ⟨(hr u).1, ih (hr u).2⟩
  | wait later ih => exact ih (hr _)
  | @call c after next a s u t deeds around later ih =>
    exact List.forall_mem_cons.2 ⟨(hr u).1, ih (hr u).2⟩

/-- Work without storage calls makes none, and does in each step what it always does. -/
theorem Performs.of_ofActivity {P : EngineState → EngineState → Prop}
    {work : Activity EngineState α} (hwork : work.Always P)
    (h : Performs R (ofActivity work) s deeds a t) :
    ∀ d ∈ deeds, d.call = none ∧ P d.before d.after := by
  induction work generalizing s deeds with
  | done b =>
    cases h with
    | done around => simp
  | panic p => cases h
  | step change next ih =>
    cases h with
    | @step _ _ _ _ u _ deeds around later =>
      exact List.forall_mem_cons.2 ⟨⟨rfl, (hwork u).1⟩, ih u (hwork u).2 later⟩
  | wait limit ready next ih =>
    cases h with
    | wait later => exact ih _ (hwork _) later

end Routine

/-! ## Tallies -/

/-- What some steps come to. -/
@[ext]
structure Tally where
  /-- The selections that were told. -/
  selected : Nat
  /-- The outcomes that were told. -/
  concluded : Nat
  /-- The attempts that the metrics counted. -/
  counted : Nat
  /-- The outcomes that could not be saved. -/
  lost : Nat

/-- The events that some steps dispatched. -/
def told (deeds : List Deed) : List EngineEvent := deeds.flatMap Deed.told

def tally (deeds : List Deed) : Tally where
  selected := (told deeds).countP EngineEvent.isSelection
  concluded := (told deeds).countP EngineEvent.isConclusion
  counted := deeds.foldr (fun d n => d.counted + n) 0
  lost := deeds.countP Deed.isLostSave

namespace Tally

def zero : Tally := ⟨0, 0, 0, 0⟩

def add (a b : Tally) : Tally :=
  ⟨a.selected + b.selected, a.concluded + b.concluded, a.counted + b.counted, a.lost + b.lost⟩

@[simp] theorem zero_add (a : Tally) : zero.add a = a := by
  simp [zero, add]

end Tally

@[simp] theorem tally_nil : tally [] = .zero := rfl

@[simp] theorem told_append (l m : List Deed) : told (l ++ m) = told l ++ told m :=
  List.flatMap_append

theorem tally_append (l m : List Deed) : tally (l ++ m) = (tally l).add (tally m) := by
  have hcounted : (l ++ m).foldr (fun d n => d.counted + n) 0 =
      l.foldr (fun d n => d.counted + n) 0 + m.foldr (fun d n => d.counted + n) 0 := by
    induction l with
    | nil => exact (Nat.zero_add _).symm
    | cons d l ih => simp only [List.cons_append, List.foldr_cons, ih, Nat.add_assoc]
  simp [tally, Tally.add, List.countP_append, hcounted]

theorem tally_cons (d : Deed) (l : List Deed) : tally (d :: l) = (tally [d]).add (tally l) :=
  tally_append [d] l

/-- The tally of one step, from what it did to events and attempts. -/
theorem tally_singleton {d : Deed} {l : List EngineEvent} {n : Nat}
    (hevents : d.after.events = d.before.events ++ l)
    (hattempts : d.after.attempts = d.before.attempts + n) :
    tally [d] = ⟨l.countP EngineEvent.isSelection, l.countP EngineEvent.isConclusion, n,
      if d.isLostSave then 1 else 0⟩ := by
  have htold : d.told = l := by rw [Deed.told, hevents, List.drop_left]
  have hcounted : d.counted = n := by
    rw [Deed.counted, hattempts]
    omega
  simp [tally, told, htold, hcounted, List.countP_singleton]

/-- A step that tells nothing and counts nothing does not show. -/
theorem tally_silent {d : Deed} (hevents : d.after.events = d.before.events)
    (hattempts : d.after.attempts = d.before.attempts) (hsaved : d.isLostSave = false) :
    tally [d] = .zero := by
  have hnothing : d.after.events = d.before.events ++ [] := by rw [hevents, List.append_nil]
  simp [tally_singleton hnothing (n := 0) hattempts, hsaved, Tally.zero]

section Single

variable {u v : EngineState} {call : Option ((c : StorageCall) × Except EngineError c.Answer)}

/-- A step that dispatches one event. -/
theorem tally_dispatch {e : EngineEvent} (hevents : v.events = u.events)
    (hattempts : v.attempts = u.attempts)
    (hsaved : (Deed.mk u (v.dispatch e) call).isLostSave = false) :
    tally [⟨u, v.dispatch e, call⟩] =
      ⟨if e.isSelection then 1 else 0, if e.isConclusion then 1 else 0, 0, 0⟩ := by
  have htold : (v.dispatch e).events = u.events ++ [e] := by
    rw [EngineState.dispatch_events, hevents]
  have hcounted : (v.dispatch e).attempts = u.attempts + 0 :=
    (Metrics.attempts_recordEvent _ _).trans hattempts
  rw [tally_singleton (d := ⟨u, v.dispatch e, call⟩) htold hcounted, hsaved]
  simp [List.countP_singleton]

/-- A step that loses an outcome. -/
theorem tally_lost {k : Job} {e : EngineError} (hevents : v.events = u.events)
    (hattempts : v.attempts = u.attempts) :
    tally [⟨u, v, some ⟨.saveJob k, .error e⟩⟩] = ⟨0, 0, 0, 1⟩ :=
  tally_singleton (l := []) (n := 0) (hevents.trans (List.append_nil _).symm) hattempts

end Single

/-- From `s` to `t` a handler did no more than report its progress, whatever else it changed. -/
structure Unassuming (s t : EngineState) : Prop where
  events : ∃ l, t.events = s.events ++ l ∧ ∀ e ∈ l, e.isProgress
  attempts : t.attempts = s.attempts

theorem Unassuming.refl (s : EngineState) : Unassuming s s :=
  ⟨⟨[], (List.append_nil _).symm, by simp⟩, rfl⟩

theorem unassuming_recordError (s : EngineState) (e : EngineError) :
    Unassuming s (s.recordError e) :=
  ⟨⟨[], (List.append_nil _).symm, by simp⟩, Metrics.attempts_recordError _ _⟩

theorem tally_unassuming {d : Deed} (h : Unassuming d.before d.after) (hcall : d.call = none) :
    tally [d] = .zero := by
  obtain ⟨l, hevents, hprogress⟩ := h.events
  have hnever {p : EngineEvent → Bool} (hp : ∀ {e}, e.isProgress → p e = false) :
      l.countP p = 0 :=
    List.countP_eq_zero.2 fun e he => by simp [hp (hprogress e he)]
  have hselections := hnever EngineEvent.isSelection_of_isProgress
  have hconclusions := hnever EngineEvent.isConclusion_of_isProgress
  have hsaved : d.isLostSave = false := by simp [Deed.isLostSave, hcall]
  rw [tally_singleton hevents (n := 0) h.attempts, hselections, hconclusions, hsaved]
  rfl

theorem tally_eq_zero {deeds : List Deed} (h : ∀ d ∈ deeds, tally [d] = .zero) :
    tally deeds = .zero := by
  induction deeds with
  | nil => rfl
  | cons d deeds ih =>
    obtain ⟨hfirst, hrest⟩ := List.forall_mem_cons.1 h
    rw [tally_cons, hfirst, ih hrest, Tally.zero_add]

end JobEngine
