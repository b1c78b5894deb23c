-- SUMMARY: An abrupt shutdown aborts the workers whose handles the pool holds, and no others.
import JobEngine.Proofs.Pool.Slots

/-!
# Aborted workers

An abrupt shutdown marks the workers whose handles the pool holds, and a marked worker never goes
on: its next turn ends it. While a graceful shutdown is under way, it has taken the handles away, so
an abrupt one that comes in between finds none of them. The workers that it misses are then told
apart by where their handles are: each worker that has not ended and is not marked has its handle in
the pool or with a graceful shutdown under way.
-/

namespace JobEngine

variable {ω : Type}

namespace Pool

variable {p q : Pool ω} {i j now : Nat} {w : Worker ω} {phase : WorkerPhase ω} {s : ω}

/-! ## Marks -/

/-- The worker was aborted: its next turn ends it. -/
def isAborted (p : Pool ω) (i : Nat) : Bool := (p.workers[i]?).any (·.aborted)

/-- Where a worker stands. -/
def phase? (p : Pool ω) (i : Nat) : Option (WorkerPhase ω) := (p.workers[i]?).map (·.phase)

theorem workers_shutdownNow (p : Pool ω) (i : Nat) :
    p.shutdownNow.workers[i]? =
      (p.workers[i]?).map fun w => if i ∈ p.held then { w with aborted := true } else w :=
  List.getElem?_mapIdx

theorem isAborted_shutdownNow (h : i < p.workers.length) :
    p.shutdownNow.isAborted i = (p.isAborted i || decide (i ∈ p.held)) := by
  rw [isAborted, workers_shutdownNow, isAborted, List.getElem?_eq_getElem h]
  by_cases hheld : i ∈ p.held <;> simp [hheld]

theorem phase?_shutdownNow (p : Pool ω) (i : Nat) : p.shutdownNow.phase? i = p.phase? i := by
  rw [phase?, workers_shutdownNow, Option.map_map, phase?]
  refine congrArg (Option.map · _) (funext fun w => ?_)
  simp only [Function.comp_apply]
  split <;> rfl

theorem isFinished_shutdownNow (p : Pool ω) (i : Nat) :
    p.shutdownNow.isFinished i = p.isFinished i := by
  rw [isFinished_eq, workers_shutdownNow, isFinished_eq]
  cases p.workers[i]? with
  | none => rfl
  | some w =>
    simp only [Option.map_some, Option.all_some]
    split <;> rfl

/-- A worker that goes on keeps its mark, and so does every other one. -/
theorem Moves.isAborted (h : p.Moves i w phase q) (j : Nat) : q.isAborted j = p.isAborted j := by
  rw [Pool.isAborted, h.workers, Pool.isAborted]
  by_cases hij : i = j
  · subst hij
    rw [List.getElem?_set_self (List.getElem?_eq_some_iff.1 h.worker).1, h.worker]
    rfl
  · rw [List.getElem?_set_ne hij]

/-! ## Turns of aborted workers -/

/-- Carrying an aborted worker on ends it, if it has not ended, and does nothing else but report
that fewer workers are active. -/
inductive Stops (p : Pool ω) (i : Nat) (w : Worker ω) (s : ω) : Pool ω → ω → Prop where
  | ended (finished : w.isFinished = true) : Stops p i w s p s
  | stops {q : Pool ω} {t : ω} (workers : q.workers = p.workers.set i (w.moveTo (.ended .aborted)))
    (stats : q.stats = p.stats) (control : q.control = p.control)
    (state : t = s ∨ ∃ n, t = p.report (·.recordActiveWorkers n) s) : Stops p i w s q t

theorem stops_poll (hw : p.workers[i]? = some w) (ha : w.aborted = true) (now : Nat) (s : ω) :
    p.Stops i w s (p.poll i now s).2.1 (p.poll i now s).2.2 := by
  obtain ⟨phase, aborted⟩ := w
  subst ha
  unfold poll
  rw [hw]
  cases phase with
  | spawned => exact .stops (workers_setPhase hw _) rfl rfl (.inl rfl)
  | looping phase => exact .stops (workers_setPhase hw _) rfl rfl (.inr ⟨_, rfl⟩)
  | ended ending => exact .ended rfl

/-- An aborted worker has ended after its turn, and no iteration was counted. -/
theorem Stops.ends {t : ω} (h : p.Stops i w s q t) (hw : p.workers[i]? = some w) :
    q.isFinished i = true ∧ q.stats = p.stats := by
  cases h with
  | ended finished =>
    refine ⟨?_, rfl⟩
    rw [isFinished_eq, hw]
    exact finished
  | stops workers stats control state =>
    refine ⟨?_, stats⟩
    rw [isFinished_eq, workers, List.getElem?_set_self (List.getElem?_eq_some_iff.1 hw).1]
    rfl

/-- Starting a pool adds workers and leaves the others as they are. -/
theorem workers_start (h : i < p.workers.length) : p.start.2.workers[i]? = p.workers[i]? := by
  rcases p.start_cases with ⟨-, hstart⟩ | ⟨-, -, hstart⟩ | ⟨-, -, hstart⟩ <;> rw [hstart]
  · rfl
  · exact List.getElem?_append_left h

/-! ## Handles -/

/-- The handle of a worker is with a graceful shutdown under way. -/
def UnderWay (waiting : List (List Nat)) (i : Nat) : Prop := ∃ handles ∈ waiting, i ∈ handles

/-- The handle of each worker that has not ended is with the pool or with a graceful shutdown under
way, or the worker was aborted. -/
def InHand (waiting : List (List Nat)) (p : Pool ω) : Prop :=
  ∀ i, p.isFinished i = false → i ∈ p.held ∨ UnderWay waiting i ∨ p.isAborted i = true

theorem InHand.swept {waiting : List (List Nat)} (h : p.InHand waiting) :
    p.swept.InHand waiting := by
  intro i hi
  have hlive : p.isFinished i = false := hi
  rcases h i hlive with hheld | hway | habort
  · exact .inl (List.mem_filter.2 ⟨hheld, by rw [hlive]; rfl⟩)
  · exact .inr (.inl hway)
  · exact .inr (.inr habort)

theorem InHand.spawn {waiting : List (List Nat)} (h : p.InHand waiting) (count : Nat) :
    (p.spawn count).InHand waiting := by
  intro i hi
  by_cases hlt : i < p.workers.length
  · have hsame : (p.spawn count).workers[i]? = p.workers[i]? := List.getElem?_append_left hlt
    rw [isFinished_eq, hsame, ← isFinished_eq] at hi
    rcases h i hi with hheld | hway | habort
    · exact .inl (List.mem_append_left _ hheld)
    · exact .inr (.inl hway)
    · exact .inr (.inr (by rwa [isAborted, hsame]))
  · exact .inl (mem_held_spawn (Nat.le_of_not_lt hlt) hi)

theorem InHand.start {waiting : List (List Nat)} (h : p.InHand waiting) :
    p.start.2.InHand waiting := by
  rcases p.start_cases with ⟨-, hstart⟩ | ⟨-, -, hstart⟩ | ⟨-, -, hstart⟩ <;> rw [hstart]
  · exact h
  · exact h.swept
  · exact h.swept.spawn p.missing

end Pool

namespace PoolScene

variable {x : PoolScene ω} {a : Act ω} {acts : List (Act ω)} {i : Nat} {w : Worker ω}

open Pool

theorem inHand_after (h : x.pool.InHand x.waiting) (a : Act ω) :
    (x.after a).pool.InHand (x.after a).waiting := by
  intro i hi
  cases a with
  | start => exact h.start i hi
  | pause | resume | around => exact h i hi
  | drain =>
    rcases h i hi with hheld | ⟨handles, hmem, hin⟩ | habort
    · exact .inr (.inl ⟨x.pool.held, List.mem_append_right _ (List.mem_singleton_self _), hheld⟩)
    · exact .inr (.inl ⟨handles, List.mem_append_left _ hmem, hin⟩)
    · exact .inr (.inr habort)
  | conclude k =>
    cases hk : x.waiting[k]? with
    | none =>
      simp only [after, hk] at hi ⊢
      exact h i hi
    | some back =>
      simp only [after, hk] at hi ⊢
      have hlive : x.pool.isFinished i = false := hi
      rcases h i hlive with hheld | ⟨handles, hmem, hin⟩ | habort
      · exact .inl (List.mem_append_left _ hheld)
      · obtain ⟨l, hl⟩ := List.mem_iff_getElem?.1 hmem
        by_cases hlk : l = k
        · rw [hlk, hk] at hl
          obtain rfl := Option.some.inj hl
          exact .inl (List.mem_append_right _ (List.mem_filter.2 ⟨hin, by rw [hlive]; rfl⟩))
        · exact .inr (.inl ⟨handles, List.mem_eraseIdx_iff_getElem?.2 ⟨l, hlk, hl⟩, hin⟩)
      · exact .inr (.inr habort)
  | shutdownNow =>
    have hlive : x.pool.isFinished i = false := x.pool.isFinished_shutdownNow i ▸ hi
    have habort := isAborted_shutdownNow (lt_of_not_isFinished hlive)
    rcases h i hlive with hheld | hway | hmarked
    · exact .inr (.inr (habort.trans (by simp [hheld])))
    · exact .inr (.inl hway)
    · exact .inr (.inr (habort.trans (by simp [hmarked])))
  | turn j now =>
    rcases x.pool.poll_cases j now x.state with hsame | ⟨w, phase, hmoves⟩
    · have hpool : (x.after (.turn j now)).pool = x.pool := hsame
      rw [hpool] at hi ⊢
      exact h i hi
    · have hlive : x.pool.isFinished i = false := hmoves.isFinished_of hi
      rcases h i hlive with hheld | hway | habort
      · exact .inl (hmoves.held.symm ▸ hheld)
      · exact .inr (.inl hway)
      · exact .inr (.inr ((hmoves.isAborted i).trans habort))

theorem inHand_afterAll (h : x.pool.InHand x.waiting) (acts : List (Act ω)) :
    (x.afterAll acts).pool.InHand (x.afterAll acts).waiting := by
  induction acts generalizing x with
  | nil => exact h
  | cons a rest ih => exact ih (inHand_after h a)

theorem inHand_of_workers_eq_nil (h : x.pool.workers = []) : x.pool.InHand x.waiting := by
  intro i hi
  rw [isFinished_eq, h] at hi
  cases hi

/-! ## What becomes of aborted workers -/

/-- An aborted worker stays where it is until it ends. -/
theorem aborted_after (hw : x.pool.workers[i]? = some w) (ha : w.aborted = true) (a : Act ω) :
    ∃ v, (x.after a).pool.workers[i]? = some v ∧ v.aborted = true ∧
      (v.phase = w.phase ∨ v.phase = .ended .aborted) := by
  have hlt : i < x.pool.workers.length := (List.getElem?_eq_some_iff.1 hw).1
  cases a with
  | start => exact ⟨w, (workers_start hlt).trans hw, ha, .inl rfl⟩
  | pause | resume | drain | around => exact ⟨w, hw, ha, .inl rfl⟩
  | conclude k =>
    refine ⟨w, ?_, ha, .inl rfl⟩
    rw [after]
    split <;> exact hw
  | shutdownNow =>
    have hafter := x.pool.workers_shutdownNow i
    rw [hw, Option.map_some] at hafter
    refine ⟨_, hafter, ?_, .inl ?_⟩ <;> split
    · rfl
    · exact ha
    · rfl
    · rfl
  | turn j now =>
    by_cases hj : j = i
    · subst hj
      have hstops := stops_poll hw ha now x.state
      change ∃ v, (x.pool.poll j now x.state).2.1.workers[j]? = some v ∧ _
      generalize (x.pool.poll j now x.state).2.1 = q at hstops ⊢
      generalize (x.pool.poll j now x.state).2.2 = t at hstops
      cases hstops with
      | ended finished => exact ⟨w, hw, ha, .inl rfl⟩
      | stops workers stats control state =>
        refine ⟨w.moveTo (.ended .aborted), ?_, ha, .inr rfl⟩
        rw [workers]
        exact List.getElem?_set_self hlt
    · refine ⟨w, ?_, ha, .inl rfl⟩
      rcases x.pool.poll_cases j now x.state with hsame | ⟨v, phase, hmoves⟩
      · have hpool : (x.after (.turn j now)).pool = x.pool := hsame
        rw [hpool]
        exact hw
      · exact (hmoves.workers ▸ List.getElem?_set_ne hj).trans hw

theorem aborted_afterAll (hw : x.pool.workers[i]? = some w) (ha : w.aborted = true)
    (acts : List (Act ω)) :
    ∃ v, (x.afterAll acts).pool.workers[i]? = some v ∧ v.aborted = true ∧
      (v.phase = w.phase ∨ v.phase = .ended .aborted) := by
  induction acts generalizing x w with
  | nil => exact ⟨w, hw, ha, .inl rfl⟩
  | cons a rest ih =>
    obtain ⟨u, hu, hua, hphase⟩ := aborted_after hw ha a
    obtain ⟨v, hv, hva, hphase'⟩ := ih hu hua
    refine ⟨v, hv, hva, ?_⟩
    rcases hphase' with hsame | hended
    · rwa [hsame]
    · exact .inr hended

/-- Whatever is done with a pool and in whatever order, an abrupt shutdown marks the workers whose
handles the pool holds. Of those that have not ended it misses the ones whose handles a graceful
shutdown under way has taken, and leaves them as they are. A worker that is marked makes no further
step: it stays where it is until its next turn, which ends it and counts nothing. -/
theorem shutdownNow_aborts_held (hx : x.pool.workers = []) (acts : List (Act ω)) :
    let y := x.afterAll acts
    let z := y.after .shutdownNow
    ∀ i, y.pool.isFinished i = false →
      (z.pool.isAborted i = true ↔ y.pool.isAborted i = true ∨ i ∈ y.pool.held) ∧
      (¬ UnderWay y.waiting i → z.pool.isAborted i = true) ∧
      (z.pool.isAborted i = false → z.pool.workers[i]? = y.pool.workers[i]?) ∧
      (z.pool.isAborted i = true → ∀ later, let u := z.afterAll later
        (u.pool.phase? i = y.pool.phase? i ∨ u.pool.phase? i = some (.ended .aborted)) ∧
          ∀ now, (u.after (.turn i now)).pool.isFinished i = true ∧
            (u.after (.turn i now)).pool.stats = u.pool.stats) := by
  intro y z i hi
  have hlt : i < y.pool.workers.length := lt_of_not_isFinished hi
  have hmarked : z.pool.isAborted i = (y.pool.isAborted i || decide (i ∈ y.pool.held)) :=
    isAborted_shutdownNow hlt
  refine ⟨?marked, fun hfree => ?reached, fun hmissed => ?missed, fun habort later => ?stopped⟩
  case marked => rw [hmarked, Bool.or_eq_true, decide_eq_true_iff]
  case reached =>
    rw [hmarked, Bool.or_eq_true, decide_eq_true_iff]
    rcases inHand_afterAll (inHand_of_workers_eq_nil hx) acts i hi with hheld | hway | hbefore
    · exact .inr hheld
    · exact absurd hway hfree
    · exact .inl hbefore
  case missed =>
    rw [hmarked, Bool.or_eq_false_iff, decide_eq_false_iff_not] at hmissed
    exact (y.pool.workers_shutdownNow i).trans (by simp [hmissed.2])
  case stopped =>
    obtain ⟨w, hw, ha⟩ : ∃ w, z.pool.workers[i]? = some w ∧ w.aborted = true := by
      rwa [isAborted, Option.any_eq_true] at habort
    obtain ⟨v, hv, hva, hphase⟩ := aborted_afterAll hw ha later
    refine ⟨?_, fun now => ?_⟩
    · have hstands : z.pool.phase? i = y.pool.phase? i := y.pool.phase?_shutdownNow i
      rw [← hstands, phase?, phase?, hv, hw, Option.map_some, Option.map_some]
      exact hphase.imp (congrArg some) (congrArg some)
    · exact (stops_poll hv hva now (z.afterAll later).state).ends hv

/-- A pool of one worker whose iterations take two seconds. -/
def sluggish : PoolScene Unit where
  pool := {
    config := { concurrency := 1 }
    runner := .sleep 2000 (.done .processed)
    report := fun _ s => s }
  state := ()

/-- The pool is started, its worker begins an iteration, and a graceful shutdown begins. -/
def halfway : List (Act Unit) := [.start, .turn 0 0, .turn 0 0, .drain]

/-- The graceful shutdown gave up. -/
def givenUp : PoolScene Unit := sluggish.afterAll (halfway ++ [.conclude 0])

/-- After the graceful shutdown gave up, an abrupt one aborts the worker. -/
theorem sluggish_aborted :
    givenUp.pool.isFinished 0 = false ∧ (givenUp.after .shutdownNow).pool.isAborted 0 = true ∧
      ((givenUp.after .shutdownNow).after (.turn 0 2000)).pool.isFinished 0 = true ∧
      ((givenUp.after .shutdownNow).after (.turn 0 2000)).pool.stats.processed = 0 := by
  have hlive : givenUp.pool.isFinished 0 = false := by decide +kernel
  have hback : givenUp.waiting = [] := by decide +kernel
  have hnone : (givenUp.after .shutdownNow).pool.stats.processed = 0 := by decide +kernel
  have haborts := shutdownNow_aborts_held (x := sluggish) rfl (halfway ++ [.conclude 0])
  rw [← givenUp] at haborts
  generalize givenUp = y at hlive hback hnone haborts ⊢
  obtain ⟨-, hreached, -, hstopped⟩ := haborts 0 hlive
  have habort := hreached (by rw [hback]; rintro ⟨handles, hmem, -⟩; cases hmem)
  obtain ⟨-, hturn⟩ := hstopped habort []
  exact ⟨hlive, habort, (hturn 2000).1, (congrArg (·.processed) (hturn 2000).2).trans hnone⟩

/-- While the graceful shutdown waits, an abrupt one misses the worker, and its iteration is
completed and counted. -/
theorem sluggish_missed :
    (sluggish.afterAll halfway).pool.isFinished 0 = false ∧
      (sluggish.afterAll (halfway ++ [.shutdownNow])).pool.isAborted 0 = false ∧
      (sluggish.afterAll (halfway ++ [.shutdownNow, .turn 0 2000])).pool.stats.processed = 1 := by
  decide +kernel

end PoolScene

end JobEngine
