-- SUMMARY: However a pool is started, paused, shut down and carried on, it has no more workers than slots.
import JobEngine.Proofs.Loop.Turns
import JobEngine.Proofs.Pool.Workers

/-!
# Slots of a pool

A `PoolScene` is a pool at work together with the handles that shutdowns under way have taken. A
graceful shutdown is two acts, between which the workers go on: it takes the handles, and it puts back
those of the workers that have not ended. Whatever acts there are, in whatever order, the workers that
have not ended fit into the slots of the pool.
-/

namespace JobEngine

/-- A pool at work, with the handles that shutdowns under way have taken. -/
structure PoolScene (ω : Type) extends PoolRun ω where
  waiting : List (List Nat) := []

namespace PoolScene

variable {ω : Type}

/-! ## Runs -/

/-- What may happen to a pool. -/
inductive Act (ω : Type) where
  | start
  | pause
  | resume
  /-- A graceful shutdown begins. -/
  | drain
  /-- The graceful shutdown that began first but `k` of those under way ends, in time or not. -/
  | conclude (k : Nat)
  | shutdownNow
  /-- A worker is carried on. -/
  | turn (i now : Nat)
  /-- Others change the state. -/
  | around (state : ω)

namespace Act

/-- The pool is shut down. -/
def isShutdown : Act ω → Bool
  | .drain | .shutdownNow => true
  | _ => false

end Act

/-- The scene after an act. -/
def after (x : PoolScene ω) : Act ω → PoolScene ω
  | .start => { x with pool := x.pool.start.2 }
  | .pause => { x with pool := x.pool.pause }
  | .resume => { x with pool := x.pool.resume }
  | .drain => { x with pool := x.pool.drain.2, waiting := x.waiting ++ [x.pool.drain.1] }
  | .conclude k =>
    match x.waiting[k]? with
    | none => x
    | some handles =>
      { x with pool := x.pool.putBack handles, waiting := x.waiting.eraseIdx k }
  | .shutdownNow => { x with pool := x.pool.shutdownNow }
  | .turn i now => { x with toPoolRun := (PoolRun.poll i now x.toPoolRun).2 }
  | .around state => { x with state }

def afterAll (x : PoolScene ω) (acts : List (Act ω)) : PoolScene ω := acts.foldl after x

@[simp] theorem afterAll_cons (x : PoolScene ω) (a : Act ω) (acts : List (Act ω)) :
    x.afterAll (a :: acts) = (x.after a).afterAll acts := rfl

theorem afterAll_append (x : PoolScene ω) (l m : List (Act ω)) :
    x.afterAll (l ++ m) = (x.afterAll l).afterAll m := List.foldl_append

/-- How many slots an act fills. -/
def filledBy (x : PoolScene ω) : Act ω → Nat
  | .start => x.pool.start.2.unfinished - x.pool.unfinished
  | _ => 0

/-- How many slots a run fills. -/
def filled : PoolScene ω → List (Act ω) → Nat
  | _, [] => 0
  | x, a :: rest => x.filledBy a + filled (x.after a) rest

/-! ## Graceful shutdown -/

theorem afterAll_turns (x : PoolScene ω) (l : List (Nat × Nat)) :
    x.afterAll (l.map fun t => .turn t.1 t.2) =
      { x with toPoolRun := VirtualTime.takeTurns PoolRun.poll x.toPoolRun l } := by
  induction l generalizing x with
  | nil => rfl
  | cons t rest ih => exact ih (x.after (.turn t.1 t.2))

theorem putBack_of_allFinished {p : Pool ω} {handles : List Nat} (h : p.allFinished handles) :
    p.putBack handles = p := by
  have hnone : handles.filter (!p.isFinished ·) = [] := by
    refine List.filter_eq_nil_iff.2 fun i hi => ?_
    simp [List.all_eq_true.1 h i hi]
  rw [Pool.putBack, hnone, List.append_nil]

/-- A graceful shutdown takes the handles, lets workers take turns, and puts handles back. -/
theorem shutdown_eq (timeout : Duration) (clock : VirtualTime Nat) (s : PoolRun ω) :
    ∃ l : List (Nat × Nat),
      ({ toPoolRun := s } : PoolScene ω).afterAll
          (.drain :: l.map (fun t => .turn t.1 t.2) ++ [.conclude 0]) =
        { toPoolRun := (s.shutdown timeout clock).2.2 } := by
  let drained : PoolRun ω := { s with pool := s.pool.drain.2 }
  let ended : Goal Nat (PoolRun ω) := .state (fun t => t.pool.allFinished s.pool.held)
    (some (clock.now + (timeout.nanos + 999999) / 1000000))
  obtain ⟨l, hl⟩ : VirtualTime.ByTurns PoolRun.poll drained
      (clock.wait PoolRun.poll ended drained).2 := VirtualTime.byTurns_wait ended clock drained
  refine ⟨l, ?_⟩
  have hacts : ({ toPoolRun := s } : PoolScene ω).afterAll
      (.drain :: l.map (fun t => .turn t.1 t.2) ++ [.conclude 0]) =
        { toPoolRun := { (clock.wait PoolRun.poll ended drained).2 with
            pool := (clock.wait PoolRun.poll ended drained).2.pool.putBack s.pool.held } } := by
    rw [List.cons_append, afterAll_cons, afterAll_append, afterAll_turns, hl]
    rfl
  rw [hacts]
  change _ = ({ toPoolRun := (Pool.shutdown _ _ _ timeout clock s).2.2 } : PoolScene ω)
  unfold Pool.shutdown
  simp only
  split
  · rename_i hall
    have hnone : Pool.allFinished s.pool.held (clock.wait PoolRun.poll ended drained).2.pool :=
      hall
    rw [putBack_of_allFinished hnone]
    rfl
  · rfl

end PoolScene

/-! ## What every act keeps -/

/-- The workers of a pool fit into its `n` slots. Until it is shut down, no handles are under way and
it holds all of them. -/
structure Pool.Sound {ω : Type} (n : Nat) (waiting : List (List Nat)) (p : Pool ω) : Prop where
  concurrency : p.config.concurrency = n
  accounted : p.Accounted
  few : p.unfinished ≤ n
  started : p.started = true ↔ 0 < p.spawned
  serving : p.control.interrupted = false → waiting = [] ∧ p.Covered

namespace Pool.Sound

variable {ω : Type} {n : Nat} {waiting : List (List Nat)} {p q : Pool ω}

theorem start (hn : 0 < n) (h : p.Sound n waiting) : p.start.2.Sound n waiting := by
  cases hshut : p.control.interrupted with
  | true =>
    rw [start_of_interrupted hshut]
    exact h
  | false =>
    obtain ⟨hwaiting, hcovered⟩ := h.serving hshut
    obtain ⟨hfull, -⟩ := unfinished_start hcovered hshut (h.concurrency ▸ h.few)
    have haccounted := h.accounted.start
    rw [h.concurrency] at hfull
    have hspawned : 0 < p.start.2.spawned := by
      have hle := p.start.2.unfinished_le_length
      rw [haccounted.spawned]
      omega
    exact {
      concurrency := p.config_start ▸ h.concurrency
      accounted := haccounted
      few := Nat.le_of_eq hfull
      started := iff_of_true (started_start hshut) hspawned
      serving := fun _ => ⟨hwaiting, hcovered.start⟩ }

/-- Pausing and resuming are of no concern. -/
theorem control {c : LoopControl} (h : p.Sound n waiting)
    (hc : c.interrupted = false → p.control.interrupted = false) :
    { p with control := c }.Sound n waiting where
  concurrency := h.concurrency
  accounted := ⟨h.accounted.spawned, h.accounted.panics, h.accounted.active⟩
  few := h.few
  started := h.started
  serving := by
    intro hopen
    obtain ⟨hwaiting, hcovered⟩ := h.serving (hc hopen)
    exact ⟨hwaiting, hcovered.distinct, hcovered.known, hcovered.covers⟩

theorem drain (h : p.Sound n waiting) (waiting' : List (List Nat)) :
    p.drain.2.Sound n waiting' where
  concurrency := h.concurrency
  accounted := ⟨h.accounted.spawned, h.accounted.panics, h.accounted.active⟩
  few := h.few
  started := h.started
  serving := nofun

theorem moves {i : Nat} {w : Worker ω} {phase : WorkerPhase ω} (h : p.Sound n waiting)
    (hmoves : p.Moves i w phase q) : q.Sound n waiting where
  concurrency := hmoves.config ▸ h.concurrency
  accounted := hmoves.accounted h.accounted
  few := Nat.le_trans hmoves.unfinished_le h.few
  started := by
    rw [hmoves.started, hmoves.spawned]
    exact h.started
  serving := by
    intro hopen
    obtain ⟨hwaiting, hcovered⟩ := h.serving (hmoves.rules.interrupted ▸ hopen)
    exact ⟨hwaiting, hmoves.covered hcovered⟩

theorem shutdownNow (h : p.Sound n waiting) : p.shutdownNow.Sound n waiting where
  concurrency := h.concurrency
  accounted := h.accounted.shutdownNow
  few := p.unfinished_shutdownNow ▸ h.few
  started := h.started
  serving := nofun

/-- While handles are under way, the pool was shut down. -/
theorem putBack (h : p.Sound n waiting) (hne : waiting ≠ []) (handles : List Nat)
    (waiting' : List (List Nat)) : (p.putBack handles).Sound n waiting' where
  concurrency := h.concurrency
  accounted := ⟨h.accounted.spawned, h.accounted.panics, h.accounted.active⟩
  few := h.few
  started := h.started
  serving := fun hopen => absurd (h.serving hopen).1 hne

end Pool.Sound

namespace PoolScene

variable {ω : Type} {n : Nat} {x : PoolScene ω} {a : Act ω} {acts : List (Act ω)}

theorem sound_after (hn : 0 < n) (h : x.pool.Sound n x.waiting) (a : Act ω) :
    (x.after a).pool.Sound n (x.after a).waiting := by
  cases a with
  | start => exact h.start hn
  | pause | resume => exact h.control id
  | drain => exact h.drain _
  | conclude k =>
    cases hk : x.waiting[k]? with
    | none =>
      simp only [after, hk]
      exact h
    | some handles =>
      simp only [after, hk]
      exact h.putBack (fun hnil => by simp [hnil] at hk) handles _
  | shutdownNow => exact h.shutdownNow
  | turn i now =>
    rcases x.pool.poll_cases i now x.state with hsame | ⟨w, phase, hmoves⟩
    · have hpool : (x.after (.turn i now)).pool = x.pool := hsame
      rw [hpool]
      exact h
    · exact h.moves hmoves
  | around state => exact h

theorem sound_afterAll (hn : 0 < n) (h : x.pool.Sound n x.waiting) (acts : List (Act ω)) :
    (x.afterAll acts).pool.Sound n (x.afterAll acts).waiting := by
  induction acts generalizing x with
  | nil => exact h
  | cons a rest ih => exact ih (sound_after hn h a)

/-! ## Shutting down -/

theorem interrupted_after (x : PoolScene ω) (a : Act ω) :
    (x.after a).pool.control.interrupted = (x.pool.control.interrupted || a.isShutdown) := by
  cases a with
  | start => exact x.pool.interrupted_start.trans (Bool.or_false _).symm
  | drain | shutdownNow => exact (Bool.or_true _).symm
  | conclude k =>
    refine Eq.trans ?_ (Bool.or_false _).symm
    rw [after]
    split <;> rfl
  | turn i now =>
    refine Eq.trans ?_ (Bool.or_false _).symm
    rcases x.pool.poll_cases i now x.state with hsame | ⟨w, phase, hmoves⟩
    · exact congrArg (·.control.interrupted) hsame
    · exact hmoves.rules.interrupted
  | pause | resume | around => exact (Bool.or_false _).symm

/-- A pool counts as shut down from the first shutdown on. -/
theorem interrupted_afterAll (x : PoolScene ω) (acts : List (Act ω)) :
    (x.afterAll acts).pool.control.interrupted =
      (x.pool.control.interrupted || acts.any (·.isShutdown)) := by
  induction acts generalizing x with
  | nil => exact (Bool.or_false _).symm
  | cons a rest ih => rw [afterAll_cons, ih, interrupted_after, List.any_cons, Bool.or_assoc]

theorem spawned_after (x : PoolScene ω) (a : Act ω) :
    (x.after a).pool.spawned = x.pool.spawned + x.filledBy a := by
  cases a with
  | start => exact x.pool.spawned_start
  | conclude k =>
    rw [after]
    split <;> rfl
  | turn i now =>
    rcases x.pool.poll_cases i now x.state with hsame | ⟨w, phase, hmoves⟩
    · exact congrArg (·.spawned) hsame
    · exact hmoves.spawned
  | _ => rfl

/-- The workers that were spawned are those that fill slots. -/
theorem spawned_afterAll (x : PoolScene ω) (acts : List (Act ω)) :
    (x.afterAll acts).pool.spawned = x.pool.spawned + x.filled acts := by
  induction acts generalizing x with
  | nil => rfl
  | cons a rest ih => rw [afterAll_cons, ih, spawned_after, filled, Nat.add_assoc]

theorem filledBy_of_interrupted (h : x.pool.control.interrupted = true) (a : Act ω) :
    x.filledBy a = 0 := by
  cases a with
  | start => rw [filledBy, Pool.start_of_interrupted h, Nat.sub_self]
  | _ => rfl

theorem filled_of_interrupted (h : x.pool.control.interrupted = true) (acts : List (Act ω)) :
    x.filled acts = 0 := by
  induction acts generalizing x with
  | nil => rfl
  | cons a rest ih =>
    have hafter : (x.after a).pool.control.interrupted = true := by
      rw [interrupted_after, h, Bool.true_or]
    rw [filled, filledBy_of_interrupted h, ih hafter]

/-! ## All runs -/

/-- A pool with `n` slots that was never started. -/
structure Fresh (n : Nat) (x : PoolScene ω) : Prop where
  concurrency : x.pool.config.concurrency = n
  interrupted : x.pool.control.interrupted = false
  workers : x.pool.workers = []
  held : x.pool.held = []
  started : x.pool.started = false
  spawned : x.pool.spawned = 0
  panics : x.pool.panics = 0
  active : x.pool.active = 0
  waiting : x.waiting = []

theorem Fresh.sound (h : x.Fresh n) : x.pool.Sound n x.waiting where
  concurrency := h.concurrency
  accounted := by
    constructor <;> rw [h.workers]
    · exact h.spawned
    · exact h.panics
    · exact h.active
  few := by
    rw [Pool.unfinished, h.workers]
    exact Nat.zero_le n
  started := by
    rw [h.started, h.spawned]
    decide
  serving := by
    refine fun _ => ⟨h.waiting, ?_, ?_, ?_⟩
    · rw [h.held]
      exact .nil
    · rw [h.held]
      exact fun i hi => absurd hi List.not_mem_nil
    · intro i hi
      rw [Pool.isFinished_eq, h.workers] at hi
      cases hi

/-- Whatever is done with a pool of `n` slots and in whatever order, its workers that have not ended
fit into the slots, and its counters tell of them. A start fills all slots and says whether one was
empty, until the first shutdown; after that it does nothing, and no worker is spawned. Only the first
start that fills slots lets the loops go. -/
theorem pool_slots (hn : 0 < n) (hx : x.Fresh n) (acts : List (Act ω)) :
    let y := x.afterAll acts
    y.pool.unfinished ≤ n ∧
    ((∀ a ∈ acts, a.isShutdown = false) →
      y.pool.start.2.unfinished = n ∧ (y.pool.start.1 = true ↔ y.pool.unfinished < n)) ∧
    ((∃ a ∈ acts, a.isShutdown = true) →
      y.pool.start = (false, y.pool) ∧
        ∀ later, (y.afterAll later).pool.spawned = y.pool.spawned ∧
          (y.afterAll later).pool.workers.length = y.pool.workers.length) ∧
    y.pool.spawned = x.filled acts ∧ y.pool.spawned = y.pool.workers.length ∧
    y.pool.panics = y.pool.workers.countP (·.isPanicked) ∧
    y.pool.active ≤ y.pool.unfinished ∧
    y.pool.start.2.control =
      if y.pool.start.1 = true ∧ x.filled acts = 0 then y.pool.control.resume
      else y.pool.control := by
  intro y
  have hsound := sound_afterAll hn hx.sound acts
  have hfilled := spawned_afterAll x acts
  rw [hx.spawned, Nat.zero_add] at hfilled
  have hshut := interrupted_afterAll x acts
  rw [hx.interrupted, Bool.false_or] at hshut
  refine ⟨hsound.few, fun hnone => ?serving, fun hsome => ?down, hfilled, hsound.accounted.spawned,
    hsound.accounted.panics, hsound.accounted.active_le, ?control⟩
  case serving =>
    have hopen : y.pool.control.interrupted = false := by
      rw [hshut, List.any_eq_false]
      simpa using hnone
    have hconcurrency := hsound.concurrency
    obtain ⟨-, hcovered⟩ := hsound.serving hopen
    have hstart := Pool.unfinished_start hcovered hopen (hconcurrency ▸ hsound.few)
    rwa [hconcurrency] at hstart
  case down =>
    have hdown : y.pool.control.interrupted = true := by
      rw [hshut, List.any_eq_true]
      exact hsome
    refine ⟨Pool.start_of_interrupted hdown, fun later => ?_⟩
    have hspawned : (y.afterAll later).pool.spawned = y.pool.spawned := by
      rw [spawned_afterAll, filled_of_interrupted hdown, Nat.add_zero]
    refine ⟨hspawned, ?_⟩
    rw [← (sound_afterAll hn hsound later).accounted.spawned, hspawned, hsound.accounted.spawned]
  case control =>
    rw [← hfilled]
    exact Pool.control_start hsound.started

/-- A pool of two workers whose iterations panic. -/
def brittle : PoolScene Unit where
  pool := {
    config := { concurrency := 2 }
    runner := .panic .other
    report := fun _ s => s }
  state := ()

/-- The pool is started, and one worker panics. -/
def breakage : List (Act Unit) := [.start, .turn 0 0, .turn 0 0]

theorem brittle_slots :
    (brittle.afterAll breakage).pool.start.2.unfinished = 2 ∧
      (brittle.afterAll breakage).pool.start.1 = true ∧
      (brittle.afterAll breakage).pool.panics = 1 ∧
      brittle.filled breakage = 2 ∧
      (brittle.afterAll breakage).pool.start.2.control = (brittle.afterAll breakage).pool.control ∧
      (brittle.afterAll (breakage ++ [.start, .drain])).pool.start.1 = false := by
  have hfresh : brittle.Fresh 2 := ⟨rfl, rfl, rfl, rfl, rfl, rfl, rfl, rfl, rfl⟩
  have hfilled : brittle.filled breakage = 2 := by decide +kernel
  have hone : (brittle.afterAll breakage).pool.unfinished < 2 := by decide +kernel
  have hpanicked : (brittle.afterAll breakage).pool.workers.countP (·.isPanicked) = 1 := by
    decide +kernel
  obtain ⟨-, hserving, -, -, -, hpanics, -, hcontrol⟩ := pool_slots (by decide) hfresh breakage
  obtain ⟨hfull, hempty⟩ := hserving (by simp [breakage, Act.isShutdown])
  obtain ⟨-, -, hdown, -⟩ := pool_slots (by decide) hfresh (breakage ++ [.start, .drain])
  obtain ⟨hnothing, -⟩ := hdown ⟨.drain, by simp, rfl⟩
  rw [hfilled, if_neg (by simp)] at hcontrol
  exact ⟨hfull, hempty.2 hone, hpanics.trans hpanicked, hfilled, hcontrol, by rw [hnothing]⟩

end PoolScene

end JobEngine
