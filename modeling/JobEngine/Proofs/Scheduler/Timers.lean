-- SUMMARY: What carrying a timer on, starting one and stopping one do to the timers of a scheduler.
import JobEngine.Scheduler.Timer

/-!
# Timers of a scheduler

A timer that is carried on changes its own phase; `Scheduler.Carries` says how. A stop cancels the
timer that is held and a join gives it away, so after either the scheduler is not running, and only
a start sets it running again. None of these ends a timer: it ends in its own turn.
-/

namespace JobEngine

variable {ω : Type}

/-- A tick of the timer is in progress. -/
def Timer.isTicking (t : Timer ω) : Bool :=
  match t.phase with
  | .ticking .. => true
  | _ => false

theorem Timer.not_isFinished_of_isTicking {t : Timer ω} (h : t.isTicking) :
    t.isFinished = false := by
  unfold isTicking at h
  unfold isFinished
  split at h
  · rename_i hphase
    rw [hphase]
  · cases h

namespace Scheduler

variable {m : Scheduler ω} {i j nextDue now : Nat} {t : Timer ω} {rest : Suspended ω Unit} {s : ω}

/-! ## Phases of timers -/

/-- How many timers have not ended. -/
def unfinished (m : Scheduler ω) : Nat := m.timers.countP (!·.isFinished)

/-- How many ticks of timers are in progress. -/
def ticking (m : Scheduler ω) : Nat := m.timers.countP (·.isTicking)

/-- Where a timer stands. -/
def phase? (m : Scheduler ω) (i : Nat) : Option (TimerPhase ω) := (m.timers[i]?).map (·.phase)

theorem ticking_le_unfinished (m : Scheduler ω) : m.ticking ≤ m.unfinished := by
  refine List.countP_mono_left fun t _ ht => ?_
  rw [Timer.not_isFinished_of_isTicking ht]
  rfl

theorem phase?_eq (h : m.timers[i]? = some t) : m.phase? i = some t.phase := by rw [phase?, h]; rfl

theorem setPhase_phase? (h : m.timers[i]? = some t) (phase : TimerPhase ω) (j : Nat) :
    (m.setPhase i phase).phase? j = if i = j then some phase else m.phase? j := by
  rw [phase?, setPhase, List.getElem?_modify]
  split
  · rename_i hij
    subst hij
    rw [h]
    rfl
  · cases hj : m.timers[j]? <;> simp [phase?, hj]

theorem timers_setPhase (h : m.timers[i]? = some t) (phase : TimerPhase ω) :
    (m.setPhase i phase).timers = m.timers.set i { t with phase } := by
  have : Inhabited (Timer ω) := ⟨t⟩
  rw [setPhase, List.modify_eq_set, h]
  rfl

theorem unfinished_setPhase_le (h : m.timers[i]? = some t) (ht : t.isFinished = false)
    (phase : TimerPhase ω) : (m.setPhase i phase).unfinished ≤ m.unfinished := by
  obtain ⟨hlt, hget⟩ := List.getElem?_eq_some_iff.1 h
  have hpos : 0 < m.timers.countP (!·.isFinished) :=
    List.countP_pos_iff.2 ⟨t, hget ▸ List.getElem_mem hlt, by rw [ht]; rfl⟩
  rw [unfinished, timers_setPhase h, List.countP_set hlt, hget, ht, unfinished]
  simp only [Bool.not_false, if_true]
  split <;> omega

theorem phase?_of_ticking_eq_zero (h : m.ticking = 0) :
    m.phase? i ≠ some (.ticking nextDue rest) := by
  intro hphase
  obtain ⟨t, ht, hticking⟩ := Option.map_eq_some_iff.1 hphase
  have hnone := List.countP_eq_zero.1 h t (List.mem_of_getElem? ht)
  rw [Timer.isTicking, hticking] at hnone
  exact hnone rfl

theorem exists_phase?_of_ticking_pos (h : 0 < m.ticking) :
    ∃ i nextDue rest, m.phase? i = some (.ticking nextDue rest) := by
  obtain ⟨t, hmem, hticking⟩ := List.countP_pos_iff.1 h
  obtain ⟨i, hi⟩ := List.mem_iff_getElem?.1 hmem
  unfold Timer.isTicking at hticking
  split at hticking
  · rename_i nextDue rest hphase
    exact ⟨i, nextDue, rest, by rw [phase?, hi, Option.map_some, hphase]⟩
  · cases hticking

/-- Two members of a list that satisfy `f` are the same one when no more than one does. -/
theorem eq_of_countP_le_one {α : Type} {f : α → Bool} {l : List α} {a b : α}
    (h : l.countP f ≤ 1) (hi : l[i]? = some a) (ha : f a) (hj : l[j]? = some b) (hb : f b) :
    i = j := by
  induction l generalizing i j with
  | nil => cases hi
  | cons c rest ih =>
    have hrest {k : Nat} {d : α} (hk : rest[k]? = some d) (hd : f d) : 0 < rest.countP f :=
      List.countP_pos_iff.2 ⟨d, List.mem_of_getElem? hk, hd⟩
    rw [List.countP_cons] at h
    cases i with
    | zero =>
      cases j with
      | zero => rfl
      | succ j =>
        have hpos := hrest hj hb
        rw [Option.some.inj hi, if_pos ha] at h
        omega
    | succ i =>
      cases j with
      | zero =>
        have hpos := hrest hi ha
        rw [Option.some.inj hj, if_pos hb] at h
        omega
      | succ j => exact congrArg (· + 1) (ih (by omega) hi hj)

section Alone

/-! No more than one timer has not ended, and this is the one. -/

variable (few : m.unfinished ≤ 1) (timer : m.timers[i]? = some t) (unended : t.isFinished = false)

include few timer unended

theorem eq_of_phase?_ticking (h : m.phase? j = some (.ticking nextDue rest)) : i = j := by
  obtain ⟨u, hu, hphase⟩ := Option.map_eq_some_iff.1 h
  exact eq_of_countP_le_one few timer (by rw [unended]; rfl) hu
    (by rw [Timer.isFinished, hphase]; rfl)

/-- If it does not tick, none does. -/
theorem phase?_ne_ticking (h : t.isTicking = false) :
    m.phase? j ≠ some (.ticking nextDue rest) := by
  intro hj
  have hij := eq_of_phase?_ticking few timer unended hj
  rw [← hij, phase?_eq timer] at hj
  rw [Timer.isTicking, Option.some.inj hj] at h
  cases h

/-- When it goes on to a phase, no other one ticks. -/
theorem eq_of_setPhase_ticking {phase : TimerPhase ω}
    (h : (m.setPhase i phase).phase? j = some (.ticking nextDue rest)) :
    phase = .ticking nextDue rest := by
  rw [setPhase_phase? timer] at h
  split at h
  · exact Option.some.inj h
  · rename_i hne
    exact absurd (eq_of_phase?_ticking few timer unended h) hne

end Alone

/-! ## Carrying a timer on -/

/-- What carrying a timer on may come to. -/
inductive Carries (m : Scheduler ω) (i now : Nat) (s : ω) : Scheduler ω × ω → Prop where
  | stays : Carries m i now s (m, s)
  | ends {t : Timer ω} {due : Nat} (timer : m.timers[i]? = some t) (phase : t.phase = .waiting due)
    (cancelled : t.cancelled = true) : Carries m i now s (m.setPhase i .ended, s)
  /-- A tick begins. -/
  | begins {t : Timer ω} {due : Nat} (timer : m.timers[i]? = some t)
    (phase : t.phase = .waiting due) (nextDue : Nat) :
    Carries m i now s (m.afterTick i nextDue (m.tick.poll now s)).2
  /-- A tick goes on. -/
  | goesOn {t : Timer ω} {nextDue : Nat} {rest : Suspended ω Unit} (timer : m.timers[i]? = some t)
    (phase : t.phase = .ticking nextDue rest) :
    Carries m i now s (m.afterTick i nextDue ((rest.next (now - rest.since)).poll now s)).2

theorem carries_poll (ticksOnce : Bool) (i now : Nat) (m : Scheduler ω) (s : ω) :
    m.Carries i now s (m.poll ticksOnce i now s).2 := by
  unfold poll
  cases hi : m.timers[i]? with
  | none => exact .stays
  | some t =>
    cases hphase : t.phase with
    | ended =>
      simp only [hphase]
      exact .stays
    | waiting due =>
      simp only [hphase]
      split
      · rename_i hcancelled
        exact .ends hi hphase (Bool.and_eq_true_iff.1 hcancelled).1
      · split
        · exact .begins hi hphase _
        · exact .stays
    | ticking nextDue rest =>
      simp only [hphase]
      split
      · rename_i hready
        rw [Suspended.resume, if_pos hready]
        exact .goesOn hi hphase
      · exact .stays

theorem afterTick_eq (m : Scheduler ω) (i nextDue : Nat) (r : Pause ω Unit × ω) :
    ∃ ticks phase, (m.afterTick i nextDue r).2.1 =
      ({ m with ticks } : Scheduler ω).setPhase i phase := by
  obtain ⟨(⟨⟨⟩⟩ | p) | rest, s⟩ := r <;> exact ⟨_, _, rfl⟩

/-- Nothing happens to the timers, or one that has not ended goes on to another phase. -/
theorem Carries.moves {r : Scheduler ω × ω} (h : m.Carries i now s r) :
    r.1 = m ∨ ∃ t ticks phase, m.timers[i]? = some t ∧ t.isFinished = false ∧
      r.1 = ({ m with ticks } : Scheduler ω).setPhase i phase := by
  cases h with
  | stays => exact .inl rfl
  | ends timer phase cancelled =>
    exact .inr ⟨_, m.ticks, .ended, timer, by rw [Timer.isFinished, phase], rfl⟩
  | begins timer phase nextDue =>
    obtain ⟨ticks, next, hr⟩ := m.afterTick_eq i nextDue (m.tick.poll now s)
    exact .inr ⟨_, ticks, next, timer, by rw [Timer.isFinished, phase], hr⟩
  | @goesOn t nextDue rest timer phase =>
    obtain ⟨ticks, next, hr⟩ :=
      m.afterTick_eq i nextDue ((rest.next (now - rest.since)).poll now s)
    exact .inr ⟨_, ticks, next, timer, by rw [Timer.isFinished, phase], hr⟩

theorem Carries.unfinished_le {r : Scheduler ω × ω} (h : m.Carries i now s r) :
    r.1.unfinished ≤ m.unfinished := by
  rcases h.moves with hsame | ⟨t, ticks, phase, timer, ht, hr⟩
  · exact Nat.le_of_eq (congrArg unfinished hsame)
  · rw [hr]
    exact unfinished_setPhase_le (m := { m with ticks }) timer ht phase

theorem isRunning_iff :
    m.isRunning = true ↔ ∃ k t, m.slot = some k ∧ m.timers[k]? = some t ∧
      t.cancelled = false ∧ t.isFinished = false := by
  unfold isRunning held?
  cases hslot : m.slot with
  | none => simp
  | some k => cases ht : m.timers[k]? <;> simp [ht]

/-- A scheduler that is running was so before a timer was carried on. -/
theorem Carries.isRunning_of {r : Scheduler ω × ω} (h : m.Carries i now s r)
    (hr : r.1.isRunning = true) : m.isRunning = true := by
  rcases h.moves with hsame | ⟨t, ticks, phase, timer, ht, hmoves⟩
  · exact hsame ▸ hr
  · rw [hmoves] at hr
    obtain ⟨k, u, hslot, hu, hcancelled, hlive⟩ := isRunning_iff.1 hr
    rw [timers_setPhase (m := { m with ticks }) timer] at hu
    refine isRunning_iff.2 ?_
    by_cases hik : i = k
    · subst hik
      rw [List.getElem?_set_self (List.getElem?_eq_some_iff.1 timer).1] at hu
      obtain rfl := Option.some.inj hu
      exact ⟨i, t, hslot, timer, hcancelled, ht⟩
    · rw [List.getElem?_set_ne hik] at hu
      exact ⟨k, u, hslot, hu, hcancelled, hlive⟩

/-! ## Starting and stopping -/

theorem start_of_running (h : m.isRunning = true) (now : Nat) : m.start now = (false, m) := if_pos h

theorem start_of_not_running (h : m.isRunning = false) (now : Nat) :
    m.start now = (true, { m with
      timers := m.timers ++ [{ phase := .waiting (now * 1000000 + m.initialDelay.nanos) }]
      slot := some m.timers.length }) := by
  rw [start, h]
  rfl

theorem isRunning_start (m : Scheduler ω) (now : Nat) : (m.start now).2.isRunning = true := by
  cases h : m.isRunning with
  | true =>
    rw [start_of_running h]
    exact h
  | false =>
    rw [start_of_not_running h]
    exact isRunning_iff.2 ⟨_, _, rfl, List.getElem?_concat_length, rfl, rfl⟩

theorem isRunning_stop (m : Scheduler ω) : m.stop.isRunning = false := by
  cases h : m.stop.isRunning with
  | false => rfl
  | true =>
    obtain ⟨k, t, hslot, ht, hcancelled, -⟩ := isRunning_iff.1 h
    unfold stop at hslot ht
    split at hslot
    · rename_i hnone
      cases hnone.symm.trans hslot
    · rename_i i hi
      cases hi.symm.trans hslot
      rw [hi, List.getElem?_modify_eq] at ht
      obtain ⟨u, -, rfl⟩ := Option.map_eq_some_iff.1 ht
      cases hcancelled

theorem isRunning_take (m : Scheduler ω) : m.take.2.isRunning = false := rfl

/-- Stopping a timer shows in nothing but its being cancelled. -/
theorem map_timers_stop {α : Type} {f : Timer ω → α}
    (hf : ∀ t, f { t with cancelled := true } = f t) (m : Scheduler ω) :
    m.stop.timers.map f = m.timers.map f := by
  unfold stop
  split
  · rfl
  · apply List.ext_getElem?
    intro i
    rw [List.getElem?_map, List.getElem?_map, List.getElem?_modify]
    split
    · cases m.timers[i]? <;> simp [hf]
    · simp

theorem stop_phase? (m : Scheduler ω) (i : Nat) : m.stop.phase? i = m.phase? i := by
  have hphases := m.map_timers_stop (f := (·.phase)) fun _ => rfl
  rw [phase?, ← List.getElem?_map, hphases, List.getElem?_map, phase?]

theorem unfinished_stop (m : Scheduler ω) : m.stop.unfinished = m.unfinished := by
  have hcount := congrArg (List.countP id) (m.map_timers_stop (f := (!·.isFinished)) fun _ => rfl)
  rwa [List.countP_map, List.countP_map] at hcount

theorem ticks_stop (m : Scheduler ω) : m.stop.ticks = m.ticks := by
  unfold stop
  split <;> rfl

end Scheduler

end JobEngine
