-- SUMMARY: The breaker's counters agree with the storage calls that the engine makes.
import JobEngine.Proofs.Engine.Attempts
import JobEngine.Proofs.Engine.Crowd
import JobEngine.Proofs.Engine.Records

/-!
# Accounting for storage calls

While workers and ticks run side by side, each storage call that is made is counted once when it is
recorded, each one that is refused is counted at once and changes nothing else, and no call is made
before the retry timeout of an open breaker has passed. So the breaker's counters tell how many calls
the storage received, but for those that are under way.
-/

namespace JobEngine

open Routine

/-! ## Calls that a storage receives -/

namespace Backend

/-- The failures that are planned. -/
def pending (l : List Fault) : Nat := l.foldr (fun f n => f.times + n) 0

/-- The calls that the storage received between `b` and `c`: those that were counted, and those that
met a planned failure. -/
def received (b c : Backend) : Int :=
  (c.calls - b.calls) + (pending b.faults - pending c.faults)

@[simp] theorem received_self (b : Backend) : received b b = 0 := by
  simp [received]

theorem pending_cons (f : Fault) (l : List Fault) : pending (f :: l) = f.times + pending l := rfl

/-- A plan that stops a call has one failure less left. -/
theorem pending_consult (method : StorageMethod) (l : List Fault) :
    pending (consult method l).2 + (consult method l).1.toList.length = pending l := by
  induction l with
  | nil => rfl
  | cons f rest ih =>
    simp only [consult]
    split
    · simp only [pending_cons]
      omega
    · split
      · simp only [pending_cons]
        omega
      · split
        · simp only [pending_cons, Option.toList_some, List.length_singleton]
          omega
        · simp only [pending_cons]
          omega

theorem received_planned (b : Backend) (method : StorageMethod) :
    received b (b.planned method).2 = (b.planned method).1.toList.length := by
  have hpending := pending_consult method b.faults
  simp only [planned, received]
  omega

theorem received_reach {α : Type} (b : Backend) (op : Store → α × Store) :
    received b (b.reach op).2 = 1 := by
  simp only [reach]
  split <;> simp only [received] <;> omega

theorem received_trans (b c d : Backend) : received b d = received b c + received c d := by
  simp only [received]
  omega

theorem received_perform {α : Type} (b : Backend) (method : StorageMethod)
    (op : Store → α × Store) : received b (b.perform method op).2 = 1 := by
  have hplanned := b.received_planned method
  simp only [perform]
  split
  · rename_i message c h
    rw [h] at hplanned
    exact hplanned
  · rename_i c h
    rw [h] at hplanned
    rw [received_trans b c, received_reach, hplanned]
    rfl

theorem received_saveNewJob (b : Backend) (draft : JobId → Job) :
    received b (b.saveNewJob draft).2 = 1 := by
  have hplanned := b.received_planned .saveJob
  simp only [saveNewJob]
  split
  · rename_i message c h
    rw [h] at hplanned
    exact hplanned
  · rename_i c h
    rw [h] at hplanned
    rw [received_trans b { c with nextId := c.nextId + 1 }, received_reach]
    have hsame : received b { c with nextId := c.nextId + 1 } = received b c := rfl
    rw [hsame, hplanned]
    rfl

end Backend

/-- Whatever the call is, the storage receives it once. -/
theorem StorageCall.received_on (c : StorageCall) (now : Instant) (b : Backend) :
    Backend.received b (c.on now b).2 = 1 := by
  cases c with
  | saveNewJob draft => exact b.received_saveNewJob draft
  | _ => exact b.received_perform _ _

/-! ## What a move does -/

/-- The storage and the breaker are left alone. -/
structure Aside (s t : EngineState) : Prop where
  backend : t.backend = s.backend
  breaker : t.breaker = s.breaker

theorem Aside.refl (s : EngineState) : Aside s s := ⟨rfl, rfl⟩

theorem Aside.trans {s t u : EngineState} (h : Aside s t) (h' : Aside t u) : Aside s u :=
  ⟨h'.backend.trans h.backend, h'.breaker.trans h.breaker⟩

theorem aside_dispatch (e : EngineEvent) (s : EngineState) : Aside s (s.dispatch e) := ⟨rfl, rfl⟩

/-- What a move does to the storage and to the breaker. -/
inductive Entry.Sound : Entry → Prop where
  | own {s t : EngineState} (aside : Aside s t) : Sound ⟨s, .own, t⟩
  | refused {s t : EngineState} (shut : s.breaker.Shut s.now) (backend : t.backend = s.backend)
    (breaker : t.breaker = s.breaker.recordRejection) : Sound ⟨s, .refused, t⟩
  | made {s t : EngineState} (passable : ¬ s.breaker.Shut s.now) (backend : t.backend = s.backend)
    (breaker : t.breaker = s.breaker.probe s.now) : Sound ⟨s, .made, t⟩
  | answered {s t : EngineState} (received : Backend.received s.backend t.backend = 1)
    (breaker : t.breaker = s.breaker) : Sound ⟨s, .answered, t⟩
  | recorded {s t : EngineState} (backend : t.backend = s.backend)
    (breaker : t.breaker = s.breaker.recordSuccess ∨ t.breaker = s.breaker.recordFailure s.now) :
    Sound ⟨s, .recorded, t⟩

/-- Between its storage calls the routine leaves the storage and the breaker alone. -/
def Routine.Quiet {α : Type} (r : Routine α) : Prop :=
  r.Each (fun change => ∀ s, Aside s (change s)) fun _ after => ∀ answer s, Aside s (after answer s)

def Stage.Quiet : Stage → Prop
  | .between r => r.Quiet
  | .made _ after next => (∀ answer s, Aside s (after answer s)) ∧ ∀ answer, (next answer).Quiet
  | .answered _ _ after next =>
    (∀ answer s, Aside s (after answer s)) ∧ ∀ answer, (next answer).Quiet

section Move

variable {p q : Stage} {mark : Mark} {s t : EngineState}

theorem Move.quiet (h : Move p s mark q t) (hp : p.Quiet) : q.Quiet := by
  cases h with
  | step => exact hp.2 s
  | wait => exact hp _
  | refuse closed => exact hp.2 _
  | make passes => exact hp
  | answer => exact hp
  | record => exact hp.2 _

theorem Move.sound (h : Move p s mark q t) (hp : p.Quiet) : Entry.Sound ⟨s, mark, t⟩ := by
  cases h with
  | step => exact .own (hp.1 s)
  | wait => exact .own ⟨rfl, rfl⟩
  | refuse closed =>
    rename_i c after next
    have hshut : s.breaker.Shut s.now := Classical.byContradiction fun hopen =>
      Bool.false_ne_true (closed.symm.trans (Breaker.isAvailable_probe_iff.2 hopen))
    obtain ⟨hbackend, hbreaker⟩ := hp.1 (s.turnAway c).1 (s.turnAway c).2
    refine .refused hshut hbackend (hbreaker.trans ?_)
    exact congrArg Breaker.recordRejection (Breaker.probe_of_shut hshut)
  | make passes => exact .made (Breaker.isAvailable_probe_iff.1 passes) rfl rfl
  | answer => exact .answered (StorageCall.received_on _ _ _) rfl
  | record =>
    rename_i c answer after next
    obtain ⟨hbackend, hbreaker⟩ := hp.1 answer (s.recordOutcome answer)
    cases answer with
    | ok a => exact .recorded hbackend (.inl hbreaker)
    | error e => exact .recorded hbackend (.inr hbreaker)

end Move

/-! ## What a run does -/

/-- Others leave the breaker alone, and may change everything else. -/
def SameBreaker (s t : EngineState) : Prop := t.breaker = s.breaker

namespace Stage

/-- A call was made and is not recorded. -/
def isUnrecorded : Stage → Bool
  | .between _ => false
  | .made _ _ _ | .answered _ _ _ _ => true

/-- A call was made and is not answered. -/
def isUnanswered : Stage → Bool
  | .made _ _ _ => true
  | .between _ | .answered _ _ _ _ => false

end Stage

/-- The calls that the pieces of work have under way. -/
def unrecorded (l : List Stage) : Nat := l.countP Stage.isUnrecorded

/-- The calls of the pieces of work that the storage has not answered. -/
def unanswered (l : List Stage) : Nat := l.countP Stage.isUnanswered

/-- How many moves of a log have a mark. -/
def marked (mark : Mark) (log : List Entry) : Nat := log.countP (·.mark = mark)

/-- The calls that the storage received in the moves of a log. -/
def receivedIn (log : List Entry) : Int :=
  log.foldr (fun e n => Backend.received e.before.backend e.after.backend + n) 0

/-- From one state and its work to another, the calls that were made and refused add up. -/
structure Balanced (l : List Stage) (s : EngineState) (log : List Entry) (n : List Stage)
    (t : EngineState) : Prop where
  counted : t.breaker.totalSuccesses + t.breaker.totalFailures + unrecorded n =
    s.breaker.totalSuccesses + s.breaker.totalFailures + unrecorded l + marked .made log
  rejected : t.breaker.totalRejected = s.breaker.totalRejected + marked .refused log
  received : receivedIn log + unanswered n = unanswered l + marked .made log

theorem unrecorded_insert (p : Stage) (l m : List Stage) :
    unrecorded (l ++ p :: m) = unrecorded [p] + unrecorded (l ++ m) := by
  simp only [unrecorded, List.countP_append, List.countP_cons, List.countP_nil]
  omega

theorem unanswered_insert (p : Stage) (l m : List Stage) :
    unanswered (l ++ p :: m) = unanswered [p] + unanswered (l ++ m) := by
  simp only [unanswered, List.countP_append, List.countP_cons, List.countP_nil]
  omega

/-- Work between storage calls has none under way. -/
theorem unrecorded_between (r : Routine Unit) (l m : List Stage) :
    unrecorded (l ++ .between r :: m) = unrecorded (l ++ m) := by
  rw [unrecorded_insert]
  exact Nat.zero_add _

theorem unanswered_between (r : Routine Unit) (l m : List Stage) :
    unanswered (l ++ .between r :: m) = unanswered (l ++ m) := by
  rw [unanswered_insert]
  exact Nat.zero_add _

theorem marked_cons (mark : Mark) (e : Entry) (log : List Entry) :
    marked mark (e :: log) = marked mark [e] + marked mark log := by
  simp only [marked, List.countP_cons, List.countP_nil]
  omega

theorem receivedIn_cons (e : Entry) (log : List Entry) :
    receivedIn (e :: log) = receivedIn [e] + receivedIn log := by
  simp only [receivedIn, List.foldr_cons, List.foldr_nil]
  omega

section Move

variable {p q : Stage} {mark : Mark} {s t : EngineState}

/-- A call is under way from when it is made until it is recorded. -/
theorem Move.unrecorded_eq (h : Move p s mark q t) :
    unrecorded [q] + marked .recorded [⟨s, mark, t⟩] =
      unrecorded [p] + marked .made [⟨s, mark, t⟩] := by
  cases h <;> rfl

theorem Move.unanswered_eq (h : Move p s mark q t) :
    unanswered [q] + marked .answered [⟨s, mark, t⟩] =
      unanswered [p] + marked .made [⟨s, mark, t⟩] := by
  cases h <;> rfl

theorem Entry.Sound.totals (h : Sound ⟨s, mark, t⟩) :
    t.breaker.totalSuccesses + t.breaker.totalFailures =
        s.breaker.totalSuccesses + s.breaker.totalFailures + marked .recorded [⟨s, mark, t⟩] ∧
      t.breaker.totalRejected = s.breaker.totalRejected + marked .refused [⟨s, mark, t⟩] := by
  cases h with
  | own aside =>
    rw [aside.breaker]
    exact ⟨rfl, rfl⟩
  | refused shut backend breaker =>
    rw [breaker]
    exact ⟨rfl, rfl⟩
  | made passable backend breaker =>
    rw [breaker]
    exact ⟨rfl, rfl⟩
  | answered received breaker =>
    rw [breaker]
    exact ⟨rfl, rfl⟩
  | recorded backend breaker =>
    rcases breaker with breaker | breaker
    · rw [breaker]
      exact ⟨Nat.add_right_comm _ _ _, rfl⟩
    · rw [breaker]
      exact ⟨rfl, rfl⟩

theorem Entry.Sound.received (h : Sound ⟨s, mark, t⟩) :
    receivedIn [⟨s, mark, t⟩] = marked .answered [⟨s, mark, t⟩] := by
  have hnone (hbackend : t.backend = s.backend) : receivedIn [⟨s, mark, t⟩] = 0 := by
    simp [receivedIn, hbackend]
  cases h with
  | own aside => exact hnone aside.backend
  | refused shut backend breaker => exact hnone backend
  | made passable backend breaker => exact hnone backend
  | answered received breaker => simp [receivedIn, received, marked]
  | recorded backend breaker => exact hnone backend

end Move

variable {Begun : Routine Unit → Prop} {R : EngineState → EngineState → Prop} {l n : List Stage}
  {s t : EngineState} {log : List Entry}

theorem Crowd.sound (h : Crowd Begun R l s log n t) (hbegun : ∀ r, Begun r → r.Quiet)
    (hl : ∀ p ∈ l, p.Quiet) : ∀ e ∈ log, e.Sound := by
  induction h with
  | now => simp
  | begin begun later ih => exact ih (List.forall_mem_cons.2 ⟨hbegun _ begun, hl⟩)
  | move move later ih =>
    obtain ⟨hleft, hrest⟩ := List.forall_mem_append.1 hl
    obtain ⟨hp, hright⟩ := List.forall_mem_cons.1 hrest
    refine List.forall_mem_cons.2 ⟨move.sound hp, ih ?_⟩
    exact List.forall_mem_append.2 ⟨hleft, List.forall_mem_cons.2 ⟨move.quiet hp, hright⟩⟩
  | drop later ih =>
    obtain ⟨hleft, hrest⟩ := List.forall_mem_append.1 hl
    exact ih (List.forall_mem_append.2 ⟨hleft, (List.forall_mem_cons.1 hrest).2⟩)
  | others around later ih => exact ih hl

theorem Crowd.balanced (h : Crowd Begun SameBreaker l s log n t) (hsound : ∀ e ∈ log, e.Sound) :
    Balanced l s log n t := by
  induction h with
  | now => exact ⟨rfl, rfl, Int.zero_add _⟩
  | @begin r l n s t log begun later ih =>
    have hunrecorded : unrecorded (.between r :: l) = unrecorded l := unrecorded_between r [] l
    have hunanswered : unanswered (.between r :: l) = unanswered l := unanswered_between r [] l
    obtain ⟨hcounted, hrejected, hreceived⟩ := ih hsound
    exact ⟨hunrecorded ▸ hcounted, hrejected, hunanswered ▸ hreceived⟩
  | @move p q mark l m n s u t log move later ih =>
    obtain ⟨hfirst, hrest⟩ := List.forall_mem_cons.1 hsound
    obtain ⟨hcounted, hrejected, hreceived⟩ := ih hrest
    obtain ⟨htotals, hrefused⟩ := hfirst.totals
    refine ⟨?counted, ?rejected, ?received⟩
    case counted =>
      have hunrecorded := move.unrecorded_eq
      rw [unrecorded_insert] at hcounted
      rw [unrecorded_insert, marked_cons]
      omega
    case rejected =>
      rw [marked_cons]
      omega
    case received =>
      have hunanswered := move.unanswered_eq
      have hfirstReceived := hfirst.received
      rw [unanswered_insert] at hreceived
      rw [unanswered_insert, marked_cons, receivedIn_cons]
      omega
  | drop later ih =>
    obtain ⟨hcounted, hrejected, hreceived⟩ := ih hsound
    refine ⟨?_, hrejected, ?_⟩
    · rwa [unrecorded_between]
    · rwa [unanswered_between]
  | others around later ih =>
    obtain ⟨hcounted, hrejected, hreceived⟩ := ih hsound
    have hsame : _ = _ := around
    rw [hsame] at hcounted hrejected
    exact ⟨hcounted, hrejected, hreceived⟩

/-! ## Iterations and ticks -/

/-- The handlers see their context and nothing else: they leave the storage and the breaker alone. -/
def Execution.Discreet (x : Execution) : Prop :=
  ∀ name d, x.tasks.get? name = some d → ∀ ctx, (d.handler ctx).Always Aside

theorem Execution.Discreet.always_attempt {x : Execution} (h : x.Discreet) (j : Job) :
    (x.attempt j).Always Aside :=
  Execution.always_attempt Aside.refl (fun _ _ => ⟨rfl, rfl⟩) h j

theorem aside_onAnswer {α : Type} {after : α → EngineState → EngineState}
    (h : ∀ a s, Aside s (after a s)) (answer : Except EngineError α) (s : EngineState) :
    Aside s (onAnswer after answer s) := by
  cases answer with
  | ok a => exact h a s
  | error e => exact .refl s

theorem quiet_ask {β : Type} {c : StorageCall} {after : c.Answer → EngineState → EngineState}
    {next : c.Answer → Routine (Except EngineError β)} (hafter : ∀ a s, Aside s (after a s))
    (hnext : ∀ a, (next a).Quiet) : (ask c after next).Quiet := by
  refine ⟨aside_onAnswer hafter, ?_⟩
  rintro (e | a)
  · trivial
  · exact hnext a

theorem aside_tellPicked (picked : Option Job) (s : EngineState) : Aside s (tellPicked picked s) := by
  cases picked with
  | none => exact .refl s
  | some j => exact aside_dispatch _ s

theorem Execution.Discreet.quiet_iterate {x : Execution} (h : x.Discreet) :
    (Routine.iterate x).Quiet :=
  each_iterate (fun j => each_ofActivity ((h.always_attempt j).timed 0))
    (aside_onAnswer aside_tellPicked) Aside.refl (fun _ _ _ _ => ⟨rfl, rfl⟩)
    (fun _ => aside_onAnswer fun _ => aside_dispatch _)
    (fun j strategy s => ⟨s.afterFailure_backend j strategy, s.afterFailure_breaker j strategy⟩)
    (fun _ => aside_onAnswer fun _ => Aside.refl) fun _ _ _ _ _ => aside_dispatch _

theorem quiet_runAll {l : List (String × Routine (Except EngineError Unit))}
    (h : ∀ c ∈ l, c.2.Quiet) : (runAll l).Quiet := by
  induction l with
  | nil => trivial
  | cons c rest ih =>
    obtain ⟨hc, hrest⟩ := List.forall_mem_cons.1 h
    apply hc.caught.bind
    refine fun e => ⟨fun s => ?_, fun _ => ih hrest⟩
    split <;> exact ⟨rfl, rfl⟩

theorem aside_foldl_dispatch {α : Type} (event : α → EngineEvent) (l : List α) (s : EngineState) :
    Aside s (l.foldl (fun s a => s.dispatch (event a)) s) :=
  EngineState.foldl_dispatch_preserves Aside.refl Aside.trans (fun s e => aside_dispatch e s) event l
    s

theorem quiet_tick (batch more : Nat) (retention : Option Duration) :
    (Routine.tick batch more retention).Quiet := by
  apply Each.bind
  · apply Each.timed
    apply quiet_runAll
    simp only [Routine.maintenance, List.forall_mem_cons]
    refine ⟨?enqueue, ?cron, ?janitor, ?delete, by simp⟩
    case enqueue => exact quiet_ask (aside_foldl_dispatch _) fun _ => trivial
    case cron =>
      exact each_fireDueCrons Aside.refl (aside_onAnswer fun _ => Aside.refl) (fun _ _ => ⟨rfl, rfl⟩)
        (fun _ => aside_onAnswer fun _ => Aside.refl)
        fun _ _ => aside_onAnswer fun _ => aside_dispatch _
    case janitor =>
      exact each_rescueStale Aside.refl (fun _ _ => aside_onAnswer fun _ => Aside.refl)
        (fun _ _ => aside_onAnswer fun _ => aside_dispatch _) batch more
    case delete =>
      cases retention with
      | none => trivial
      | some period =>
        refine ⟨Aside.refl, fun _ => quiet_ask (fun count s => ?_) fun _ => trivial⟩
        split <;> exact ⟨rfl, rfl⟩
  · exact fun r => ⟨fun s => ⟨rfl, rfl⟩, fun _ => trivial⟩

/-- An iteration, whatever became of it. -/
def Routine.iteration (x : Execution) : Routine Unit := (Routine.iterate x).bind fun _ => .done ()

/-- What the engine works on: iterations of its workers, and ticks of its scheduler. -/
inductive Workload (x : Execution) (batch : Nat) (retention : Option Duration) :
    Routine Unit → Prop where
  | iteration : Workload x batch retention (Routine.iteration x)
  | tick (more : Nat) : Workload x batch retention (Routine.tick batch more retention)

/-- The storage calls of workers and ticks are the ones that the breaker counts as successes and
failures, as soon as they are recorded. Every other attempt is counted as rejected and changes
nothing else, and no call is made before the retry timeout of an open breaker has passed. The
routines are those of the engine, and a routine with nobody about moves as it does alone. -/
theorem storage_calls_accounted {x : Execution} (hx : x.Discreet) {batch : Nat}
    {retention : Option Duration} (h : Crowd (Workload x batch retention) SameBreaker [] s log n t) :
    (Routine.iterate x).work.SameAlone x.iterate ∧
    (Routine.tick batch 0 retention).work.SameAlone
      (Command.tick EngineState.report (Command.maintenance batch retention)) ∧
    (∀ (r : Routine Unit) (now : Nat) (u : EngineState), ∃ log,
      Crowd (fun _ => False) (· = ·) [.between r] u log [] (r.work.run now u).2) ∧
    (∀ e ∈ log, e.Sound) ∧
    t.breaker.totalSuccesses + t.breaker.totalFailures + unrecorded n =
      s.breaker.totalSuccesses + s.breaker.totalFailures + marked .made log ∧
    t.breaker.totalRejected = s.breaker.totalRejected + marked .refused log ∧
    receivedIn log + unanswered n = marked .made log := by
  have hbegun : ∀ r, Workload x batch retention r → r.Quiet := by
    intro r hr
    cases hr with
    | iteration => exact hx.quiet_iterate.bind fun _ => trivial
    | tick more => exact quiet_tick batch more retention
  have hsound := h.sound hbegun (by simp)
  obtain ⟨hcounted, hrejected, hreceived⟩ := h.balanced hsound
  refine ⟨iterate_alone x, tick_alone batch retention, ?alone, hsound, hcounted, hrejected, ?received⟩
  case alone =>
    intro r now u
    obtain ⟨log, hlog⟩ := Crowd.of_run (show r.work.run now u = (_, _) from rfl) .now
    exact ⟨_, hlog⟩
  case received =>
    rw [hreceived]
    exact Int.zero_add _

/-! ## A storage that breaks down -/

/-- The only handler reports that half of the work is done. -/
def reporting : Execution where
  tasks := (∅ : TaskRegistry).register
    { name := "report", handler := fun ctx => .modify (ctx.report 50 none) (.done (.ok ())) }

/-- A registry of one task has no other one. -/
theorem TaskRegistry.eq_of_get?_single {d d' : TaskDescriptor} {name : String}
    (h : ((∅ : TaskRegistry).register d).get? name = some d') : d' = d := by
  have hget : ((∅ : TaskRegistry).register d).get? name = if name = d.name then some d else none :=
    Table.get?_insert
  rw [hget] at h
  split at h
  · exact (Option.some.inj h).symm
  · cases h

theorem discreet_reporting : reporting.Discreet := by
  intro name d hd ctx
  rw [TaskRegistry.eq_of_get?_single hd]
  exact fun s => ⟨aside_dispatch _ s, trivial⟩

/-- A job is ready, and the first call that saves a job will fail. -/
def shaky : EngineState :=
  { loneEngine with
    backend := { loneEngine.backend with faults := [⟨.saveJob, 0, 1, "no space left"⟩] }
    breaker := touchy }

/-- The state after an iteration. -/
def worked : EngineState := ((Routine.iteration reporting).work.run 0 shaky).2

/-- The storage is switched off after the iteration. -/
def dark : EngineState := { worked with backend := { worked.backend with available := false } }

/-- The state after a tick. -/
def ticked : EngineState := ((Routine.tick 10 0 none).work.run 0 dark).2

/-- The worker's two calls are made, and the second one fails. The tick's first call is made and
fails, which shuts the breaker to the next two. -/
theorem shaky_accounted :
    ∃ log, Crowd (Workload reporting 10 none) SameBreaker [] shaky log [] ticked ∧
      (∀ e ∈ log, e.Sound) ∧ marked .made log = 3 ∧ marked .refused log = 2 ∧
      receivedIn log = 3 := by
  obtain ⟨log, hticked⟩ := Crowd.of_run
    (show (Routine.tick 10 0 none).work.run 0 dark = (_, ticked) from rfl)
    (.now : Crowd (Workload reporting 10 none) SameBreaker [] ticked [] [] ticked)
  have hdark : Crowd (Workload reporting 10 none) SameBreaker [] worked _ [] ticked :=
    .others (u := dark) rfl (.begin (.tick 0) hticked)
  obtain ⟨log', hworked⟩ := Crowd.of_run
    (show (Routine.iteration reporting).work.run 0 shaky = (_, worked) from rfl) hdark
  have hrun := Crowd.begin .iteration hworked
  obtain ⟨-, -, -, hsound, hcounted, hrejected, hreceived⟩ :=
    storage_calls_accounted discreet_reporting hrun
  have hcalls : ticked.breaker.totalSuccesses + ticked.breaker.totalFailures = 3 := by
    decide +kernel
  have hrefusals : ticked.breaker.totalRejected = 2 := by decide +kernel
  have hmade : marked .made (log' ++ (log ++ [])) = 3 := by
    rw [hcalls] at hcounted
    exact (hcounted.trans (Nat.zero_add _)).symm
  refine ⟨_, hrun, hsound, hmade, ?_, ?_⟩
  · rw [hrefusals] at hrejected
    exact (hrejected.trans (Nat.zero_add _)).symm
  · rw [hmade] at hreceived
    exact (Int.add_zero _).symm.trans hreceived

end JobEngine
