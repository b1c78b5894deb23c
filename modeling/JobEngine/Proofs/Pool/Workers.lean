-- SUMMARY: What starting a pool, stopping it and carrying a worker on do to the workers and the counters.
import JobEngine.Pool.Run
import JobEngine.Proofs.Loop.Phases

/-!
# Workers of a pool

A worker that is carried on changes its own phase and the counters that go with it; `Pool.Moves` says
how. `Pool.Accounted` is what the counters mean, and no operation of a pool breaks it. `Pool.Covered`
is what a pool knows about its workers until it is shut down: it holds the handle of each that has
not ended. So the handles that are left when those of ended workers are dropped are as many as the
slots that are taken.
-/

namespace JobEngine

variable {ω : Type}

namespace Worker

/-- An iteration of the worker panicked. -/
def isPanicked (w : Worker ω) : Bool :=
  match w.phase with
  | .ended .panicked => true
  | _ => false

/-- The worker in another phase. -/
def moveTo (w : Worker ω) (phase : WorkerPhase ω) : Worker ω := { w with phase }

theorem not_isFinished_of_isActive {w : Worker ω} (h : w.isActive) : w.isFinished = false := by
  unfold isActive at h
  unfold isFinished
  split at h
  · rename_i hphase
    rw [hphase]
  · cases h

theorem not_isPanicked_of_not_isFinished {w : Worker ω} (h : w.isFinished = false) :
    w.isPanicked = false := by
  unfold isFinished at h
  unfold isPanicked
  split at h
  · cases h
  · rename_i hphase
    split
    · rename_i hended
      exact absurd hended (hphase _)
    · rfl

end Worker

namespace Pool

variable {p q : Pool ω} {i now : Nat} {w : Worker ω} {phase : WorkerPhase ω} {s : ω}

/-! ## Carrying a worker on -/

/-- From `p` to `q` worker `i`, which was `w`, went on to a phase. -/
structure Moves (p : Pool ω) (i : Nat) (w : Worker ω) (phase : WorkerPhase ω) (q : Pool ω) :
    Prop where
  worker : p.workers[i]? = some w
  unended : w.isFinished = false
  workers : q.workers = p.workers.set i (w.moveTo phase)
  config : q.config = p.config
  held : q.held = p.held
  started : q.started = p.started
  spawned : q.spawned = p.spawned
  rules : p.control.SameRules q.control
  panics : q.panics = p.panics + (w.moveTo phase).isPanicked.toNat
  active : q.active = p.active + (w.moveTo phase).isActive.toNat - w.isActive.toNat

theorem workers_setPhase (h : p.workers[i]? = some w) (phase : WorkerPhase ω) :
    (p.setPhase i phase).workers = p.workers.set i (w.moveTo phase) := by
  have : Inhabited (Worker ω) := ⟨{}⟩
  rw [setPhase, List.modify_eq_set, h]
  rfl

/-- A worker is put where it stands now, and the counters follow. -/
theorem moves_setPhase {panics active : Nat} (h : p.workers[i]? = some w)
    (hw : w.isFinished = false)
    (hp : panics = p.panics + (w.moveTo phase).isPanicked.toNat)
    (ha : active = p.active + (w.moveTo phase).isActive.toNat - w.isActive.toNat) :
    p.Moves i w phase { p.setPhase i phase with panics, active } where
  worker := h
  unended := hw
  workers := workers_setPhase h phase
  config := rfl
  held := rfl
  started := rfl
  spawned := rfl
  rules := ⟨rfl, rfl, rfl, rfl⟩
  panics := hp
  active := ha

theorem moves_leave {phase : LoopPhase ω} {aborted : Bool}
    (h : p.workers[i]? = some ⟨.looping phase, aborted⟩) (ending : WorkerEnding) (s : ω) :
    p.Moves i ⟨.looping phase, aborted⟩ (.ended ending) (p.leave i ending s).1 := by
  cases ending <;> exact moves_setPhase h rfl rfl rfl

/-- What the loops share may change before a worker goes on. -/
theorem Moves.of_shared {control : LoopControl} {stats : PollingStats}
    (h : Moves { p with control, stats } i w phase q) (hrules : p.control.SameRules control) :
    p.Moves i w phase q :=
  { h with rules := hrules.trans h.rules }

/-- Carrying a worker on changes nothing, or the worker goes on. -/
theorem poll_cases (p : Pool ω) (i now : Nat) (s : ω) :
    (p.poll i now s).2.1 = p ∨ ∃ w phase, p.Moves i w phase (p.poll i now s).2.1 := by
  unfold poll
  cases hw : p.workers[i]? with
  | none => exact .inl rfl
  | some w =>
    obtain ⟨phase | phase | ending, aborted⟩ := w
    · cases aborted
      · exact .inr ⟨_, .looping .gate, moves_setPhase hw rfl rfl rfl⟩
      · exact .inr ⟨_, .ended .aborted, moves_setPhase hw rfl rfl rfl⟩
    · cases aborted
      · simp only [Bool.false_eq_true, if_false]
        cases hadvance : phase.advance p.loop now ⟨p.control, p.stats, s⟩ with
        | none => exact .inl rfl
        | some r =>
          obtain ⟨next, shared⟩ := r
          have hrules := (crossing_of_advance hadvance).sameRules
          have hafter : ({ p with control := shared.control, stats := shared.stats } :
              Pool ω).workers[i]? = some ⟨.looping phase, false⟩ := hw
          refine .inr ⟨⟨.looping phase, false⟩, ?_⟩
          rcases next with _ | rest | rest | (_ | payload)
          · exact ⟨_, (moves_setPhase hafter rfl rfl rfl).of_shared hrules⟩
          · exact ⟨_, (moves_setPhase hafter rfl rfl rfl).of_shared hrules⟩
          · exact ⟨_, (moves_setPhase hafter rfl rfl rfl).of_shared hrules⟩
          · exact ⟨_, (moves_leave hafter _ _).of_shared hrules⟩
          · exact ⟨_, (moves_leave hafter _ _).of_shared hrules⟩
      · exact .inr ⟨_, _, moves_leave hw _ _⟩
    · exact .inl rfl

/-! ## What the counters mean -/

/-- The counters tell how many workers there were, how many panicked and how many run. -/
structure Accounted (p : Pool ω) : Prop where
  spawned : p.spawned = p.workers.length
  panics : p.panics = p.workers.countP (·.isPanicked)
  active : p.active = p.workers.countP (·.isActive)

theorem Accounted.active_le (h : p.Accounted) : p.active ≤ p.unfinished := by
  rw [h.active]
  refine List.countP_mono_left fun w _ hw => ?_
  rw [Worker.not_isFinished_of_isActive hw]
  rfl

/-- A worker that goes on counts in its new phase in place of its old one. -/
theorem Moves.countP (h : p.Moves i w phase q) (f : Worker ω → Bool) :
    q.workers.countP f + (f w).toNat = p.workers.countP f + (f (w.moveTo phase)).toNat := by
  obtain ⟨hlt, hget⟩ := List.getElem?_eq_some_iff.1 h.worker
  have hbound : (if f p.workers[i] then 1 else 0) ≤ p.workers.countP f :=
    List.boole_getElem_le_countP hlt
  rw [hget] at hbound
  rw [h.workers, List.countP_set hlt, hget]
  generalize p.workers.countP f = n at hbound ⊢
  cases hold : f w <;> cases hnew : f (w.moveTo phase) <;> simp [hold] at hbound ⊢ <;> omega

theorem Moves.accounted (h : p.Moves i w phase q) (hp : p.Accounted) : q.Accounted where
  spawned := by
    rw [h.spawned, hp.spawned, h.workers, List.length_set]
  panics := by
    have hcount := h.countP (·.isPanicked)
    rw [Worker.not_isPanicked_of_not_isFinished h.unended] at hcount
    rw [h.panics, hp.panics]
    exact hcount.symm
  active := by
    have hcount := h.countP (·.isActive)
    rw [h.active, hp.active]
    omega

theorem Moves.unfinished_le (h : p.Moves i w phase q) : q.unfinished ≤ p.unfinished := by
  have hcount := h.countP (!·.isFinished)
  rw [h.unended] at hcount
  have hone := (!(w.moveTo phase).isFinished).toNat_le
  simp only [Bool.not_false, Bool.toNat_true] at hcount
  unfold unfinished
  omega

theorem Accounted.spawn (h : p.Accounted) (count : Nat) : (p.spawn count).Accounted where
  spawned := by simp [Pool.spawn, h.spawned]
  panics := by simp [Pool.spawn, h.panics, List.countP_replicate, Worker.isPanicked]
  active := by simp [Pool.spawn, h.active, List.countP_replicate, Worker.isActive]

theorem unfinished_spawn (p : Pool ω) (count : Nat) :
    (p.spawn count).unfinished = p.unfinished + count := by
  simp [unfinished, spawn, List.countP_replicate, Worker.isFinished]

/-- Marking workers as aborted does not show in their phases. -/
theorem countP_abort {f : Worker ω → Bool} (hf : ∀ w, f { w with aborted := true } = f w)
    (workers : List (Worker ω)) (handles : List Nat) :
    (abort workers handles).countP f = workers.countP f := by
  have hmap : (abort workers handles).map f = workers.map f := by
    apply List.ext_getElem?
    intro i
    simp only [abort, List.getElem?_map, List.getElem?_mapIdx, Option.map_map]
    refine congrArg (Option.map · _) (funext fun w => ?_)
    simp only [Function.comp_apply]
    split
    · exact hf w
    · rfl
  have hcount := congrArg (List.countP id) hmap
  rwa [List.countP_map, List.countP_map] at hcount

theorem length_abort (workers : List (Worker ω)) (handles : List Nat) :
    (abort workers handles).length = workers.length := List.length_mapIdx

theorem Accounted.shutdownNow (h : p.Accounted) : p.shutdownNow.Accounted where
  spawned := h.spawned.trans (length_abort ..).symm
  panics := h.panics.trans (countP_abort (fun _ => rfl) ..).symm
  active := h.active.trans (countP_abort (fun _ => rfl) ..).symm

theorem unfinished_shutdownNow (p : Pool ω) : p.shutdownNow.unfinished = p.unfinished :=
  countP_abort (fun _ => rfl) ..

/-! ## Handles -/

/-- The pool holds the handle of every worker that has not ended, and each handle once. -/
structure Covered (p : Pool ω) : Prop where
  distinct : p.held.Nodup
  known : ∀ i ∈ p.held, i < p.workers.length
  covers : ∀ i, p.isFinished i = false → i ∈ p.held

/-- The handles of workers that have not ended. -/
def live (p : Pool ω) : List Nat := p.held.filter (!p.isFinished ·)

/-- How many slots are empty, going by the handles. -/
def missing (p : Pool ω) : Nat := p.config.concurrency - p.live.length

theorem isFinished_eq (p : Pool ω) (i : Nat) :
    p.isFinished i = (p.workers[i]?).all (·.isFinished) := by
  unfold isFinished
  cases p.workers[i]? <;> rfl

theorem unfinished_le_length (p : Pool ω) : p.unfinished ≤ p.workers.length :=
  List.countP_le_length

theorem lt_of_not_isFinished (h : p.isFinished i = false) : i < p.workers.length := by
  rw [isFinished_eq] at h
  cases hw : p.workers[i]? with
  | none => simp [hw] at h
  | some w => exact (List.getElem?_eq_some_iff.1 hw).1

/-- Counting the members of a list by their places. -/
theorem countP_eq_length_filter_range {α : Type} (f : α → Bool) (l : List α) :
    l.countP f = ((List.range l.length).filter fun i => (l[i]?).any f).length := by
  induction l with
  | nil => rfl
  | cons a rest ih =>
    rw [List.length_cons, List.range_succ_eq_map, List.filter_cons, List.filter_map,
      List.countP_cons, ih]
    cases hf : f a <;> simp [hf, Function.comp_def]

theorem unfinished_eq (p : Pool ω) :
    p.unfinished = ((List.range p.workers.length).filter (!p.isFinished ·)).length := by
  rw [unfinished, countP_eq_length_filter_range]
  congr 1
  apply List.filter_congr
  intro i _
  rw [isFinished_eq]
  cases p.workers[i]? <;> rfl

/-- The handles that are left are as many as the slots that are taken. -/
theorem Covered.length_live (h : p.Covered) : p.live.length = p.unfinished := by
  rw [unfinished_eq]
  refine (List.Perm.length_eq ?_)
  refine (List.perm_ext_iff_of_nodup (h.distinct.filter _) (List.nodup_range.filter _)).2 fun i => ?_
  simp only [List.mem_filter, List.mem_range, Bool.not_eq_true']
  exact ⟨fun ⟨_, hi⟩ => ⟨lt_of_not_isFinished hi, hi⟩, fun ⟨_, hi⟩ => ⟨h.covers i hi, hi⟩⟩

theorem Moves.isFinished_of (h : p.Moves i w phase q) {j : Nat} (hj : q.isFinished j = false) :
    p.isFinished j = false := by
  rw [isFinished_eq, h.workers] at hj
  rw [isFinished_eq]
  by_cases hij : i = j
  · rw [← hij, h.worker]
    exact h.unended
  · rwa [List.getElem?_set_ne hij] at hj

theorem Moves.covered (h : p.Moves i w phase q) (hp : p.Covered) : q.Covered where
  distinct := h.held ▸ hp.distinct
  known := by
    rw [h.held, h.workers, List.length_set]
    exact hp.known
  covers := by
    rw [h.held]
    exact fun j hj => hp.covers j (h.isFinished_of hj)

/-! ## Starting -/

/-- The pool once it dropped the handles of ended workers. -/
def swept (p : Pool ω) : Pool ω := { p with started := true, held := p.live }

/-- A call to start a pool does nothing once it was shut down, and fills the empty slots otherwise. The
first call that fills any lets the loops go. -/
theorem start_cases (p : Pool ω) :
    (p.control.interrupted = true ∧ p.start = (false, p)) ∨
      (p.control.interrupted = false ∧ p.missing = 0 ∧ p.start = (false, p.swept)) ∨
      (p.control.interrupted = false ∧ 0 < p.missing ∧
        p.start = (true, { p.swept.spawn p.missing with
          control := if p.started then p.control else p.control.resume })) := by
  unfold start
  cases hshut : p.control.interrupted with
  | true => exact .inl ⟨rfl, rfl⟩
  | false =>
    refine .inr ?_
    by_cases hfull : p.missing = 0
    · refine .inl ⟨rfl, hfull, ?_⟩
      simp only [Bool.false_eq_true, if_false]
      exact if_pos hfull
    · refine .inr ⟨rfl, Nat.pos_of_ne_zero hfull, ?_⟩
      simp only [Bool.false_eq_true, if_false]
      refine (if_neg hfull).trans ?_
      cases p.started <;> rfl

theorem config_start (p : Pool ω) : p.start.2.config = p.config := by
  rcases p.start_cases with ⟨-, hstart⟩ | ⟨-, -, hstart⟩ | ⟨-, -, hstart⟩ <;> rw [hstart] <;> rfl

theorem started_start (h : p.control.interrupted = false) : p.start.2.started = true := by
  rcases p.start_cases with ⟨hshut, -⟩ | ⟨-, -, hstart⟩ | ⟨-, -, hstart⟩
  · cases h.symm.trans hshut
  · rw [hstart]
    rfl
  · rw [hstart]
    rfl

theorem start_of_interrupted (h : p.control.interrupted = true) : p.start = (false, p) := if_pos h

theorem interrupted_start (p : Pool ω) :
    p.start.2.control.interrupted = p.control.interrupted := by
  rcases p.start_cases with ⟨-, hstart⟩ | ⟨-, -, hstart⟩ | ⟨-, -, hstart⟩ <;> rw [hstart]
  · rfl
  · cases p.started <;> rfl

/-- Starting a pool clears the paused flag if it fills slots for the first time, and leaves the control
alone otherwise. -/
theorem control_start (h : p.started = true ↔ 0 < p.spawned) :
    p.start.2.control =
      if p.start.1 = true ∧ p.spawned = 0 then p.control.resume else p.control := by
  rcases p.start_cases with ⟨-, hstart⟩ | ⟨-, -, hstart⟩ | ⟨-, -, hstart⟩ <;> rw [hstart]
  · rw [if_neg (by simp)]
  · rw [if_neg (by simp)]
    rfl
  · have hfirst : p.started = true ↔ ¬ p.spawned = 0 := h.trans Nat.pos_iff_ne_zero
    by_cases hzero : p.spawned = 0 <;> simp [hfirst, hzero]

theorem Covered.swept (h : p.Covered) : p.swept.Covered where
  distinct := h.distinct.filter _
  known := fun i hi => h.known i (List.mem_filter.1 hi).1
  covers := by
    intro i hi
    have hlive : p.isFinished i = false := hi
    exact List.mem_filter.2 ⟨h.covers i hlive, by rw [hlive]; rfl⟩

theorem mem_held_spawn {count : Nat} (h : p.workers.length ≤ i)
    (hi : (p.spawn count).isFinished i = false) : i ∈ (p.spawn count).held := by
  have hbound := lt_of_not_isFinished hi
  rw [Pool.spawn, List.length_append, List.length_replicate] at hbound
  exact List.mem_append_right _ (List.mem_map.2 ⟨i - p.workers.length,
    List.mem_range.2 (by omega), by omega⟩)

theorem Covered.spawn (h : p.Covered) (count : Nat) : (p.spawn count).Covered where
  distinct := by
    refine List.nodup_append.2 ⟨h.distinct, ?_, ?_⟩
    · exact List.Pairwise.map _ (fun a b hne heq => hne (Nat.add_right_cancel heq))
        List.nodup_range
    · intro a ha b hb
      obtain ⟨k, -, rfl⟩ := List.mem_map.1 hb
      have hlt := h.known a ha
      omega
  known := by
    intro i hi
    rw [Pool.spawn, List.length_append, List.length_replicate]
    rcases List.mem_append.1 hi with hi | hi
    · have hlt := h.known i hi
      omega
    · obtain ⟨k, hk, rfl⟩ := List.mem_map.1 hi
      have hlt := List.mem_range.1 hk
      omega
  covers := by
    intro i hi
    by_cases hlt : i < p.workers.length
    · refine List.mem_append_left _ (h.covers i ?_)
      rwa [isFinished_eq, Pool.spawn, List.getElem?_append_left hlt, ← isFinished_eq] at hi
    · exact mem_held_spawn (Nat.le_of_not_lt hlt) hi

theorem Covered.start (h : p.Covered) : p.start.2.Covered := by
  rcases p.start_cases with ⟨-, hstart⟩ | ⟨-, -, hstart⟩ | ⟨-, -, hstart⟩
  · exact hstart ▸ h
  · exact hstart ▸ h.swept
  · have hspawn := h.swept.spawn p.missing
    rw [hstart]
    exact ⟨hspawn.distinct, hspawn.known, hspawn.covers⟩

theorem Accounted.start (h : p.Accounted) : p.start.2.Accounted := by
  have hswept : p.swept.Accounted := ⟨h.spawned, h.panics, h.active⟩
  rcases p.start_cases with ⟨-, hstart⟩ | ⟨-, -, hstart⟩ | ⟨-, -, hstart⟩
  · exact hstart ▸ h
  · exact hstart ▸ hswept
  · have hspawn := hswept.spawn p.missing
    rw [hstart]
    exact ⟨hspawn.spawned, hspawn.panics, hspawn.active⟩

/-- A start spawns one worker for each slot that it fills. -/
theorem spawned_start (p : Pool ω) :
    p.start.2.spawned = p.spawned + (p.start.2.unfinished - p.unfinished) := by
  have hsame (h : p.start.2.unfinished = p.unfinished) (h' : p.start.2.spawned = p.spawned) :
      p.start.2.spawned = p.spawned + (p.start.2.unfinished - p.unfinished) := by
    rw [h, h', Nat.sub_self, Nat.add_zero]
  rcases p.start_cases with ⟨-, hstart⟩ | ⟨-, -, hstart⟩ | ⟨-, -, hstart⟩
  · exact hsame (by rw [hstart]) (by rw [hstart])
  · exact hsame (by rw [hstart]; rfl) (by rw [hstart]; rfl)
  · have hcount : p.start.2.unfinished = p.unfinished + p.missing := by
      rw [hstart]
      exact unfinished_spawn p.swept p.missing
    rw [hcount, Nat.add_sub_cancel_left, hstart]
    rfl

/-- A start fills all slots of a pool that was not shut down. -/
theorem unfinished_start (h : p.Covered) (hopen : p.control.interrupted = false)
    (hfew : p.unfinished ≤ p.config.concurrency) :
    p.start.2.unfinished = p.config.concurrency ∧
      (p.start.1 = true ↔ p.unfinished < p.config.concurrency) := by
  have hmissing : p.missing = p.config.concurrency - p.unfinished := by
    rw [missing, h.length_live]
  rcases p.start_cases with ⟨hshut, -⟩ | ⟨-, hfull, hstart⟩ | ⟨-, hempty, hstart⟩
  · cases hopen.symm.trans hshut
  · have hsame : p.start.2.unfinished = p.unfinished := by
      rw [hstart]
      rfl
    rw [hsame, hstart]
    simp only [Bool.false_eq_true, false_iff]
    omega
  · have hcount : p.start.2.unfinished = p.unfinished + p.missing := by
      rw [hstart]
      exact unfinished_spawn p.swept p.missing
    rw [hcount, hstart]
    simp only [true_iff]
    omega

end Pool

end JobEngine
