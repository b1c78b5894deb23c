-- SUMMARY: Ticks come one after another unless a timer is started before an earlier one has ended.
import JobEngine.Proofs.Loop.Turns
import JobEngine.Proofs.Scheduler.Rounds
import JobEngine.Proofs.Scheduler.Timers
import JobEngine.Scheduler.Run

/-!
# Overlapping ticks

A timer runs one tick at a time, so ticks overlap only when timers do. Stopping a timer does not end
it, and a join gives it away before it has ended; either way the next start begins another one, and
both may tick. Such a start is hasty. There are never more ticks in progress than one and one for
each hasty start. In a run without hasty starts, the journal of the commands is made of whole rounds
but for the tick in progress.
-/

namespace JobEngine

variable {ω : Type}

/-! ## Runs -/

namespace SchedulerRun

variable {x : SchedulerRun ω}

/-- What may happen to a scheduler. -/
inductive Act (ω : Type) where
  | start (now : Nat)
  | stop
  /-- A join begins: the held timer is given away. -/
  | take
  /-- A timer is carried on. If it is cancelled and due at once, `ticksOnce` says that it ticks. -/
  | turn (i now : Nat) (ticksOnce : Bool)
  /-- Others change the state. -/
  | around (change : ω → ω)

/-- The run after an act. -/
def after (x : SchedulerRun ω) : Act ω → SchedulerRun ω
  | .start now => { x with scheduler := (x.scheduler.start now).2 }
  | .stop => x.stop
  | .take => { x with scheduler := x.scheduler.take.2 }
  | .turn i now ticksOnce =>
    let (scheduler, state) := (x.scheduler.poll ticksOnce i now x.state).2
    { x with scheduler, state }
  | .around change => { x with state := change x.state }

def afterAll (x : SchedulerRun ω) (acts : List (Act ω)) : SchedulerRun ω := acts.foldl after x

/-- Whether an act begins a timer while an earlier one has not ended. -/
def isHasty (x : SchedulerRun ω) : Act ω → Bool
  | .start _ => !x.scheduler.isRunning && x.scheduler.unfinished != 0
  | _ => false

/-- How many starts of a run are hasty. -/
def hasty : SchedulerRun ω → List (Act ω) → Nat
  | _, [] => 0
  | x, a :: rest => (x.isHasty a).toNat + hasty (x.after a) rest

/-- An act lets the held timer go on without being held, or stops it. -/
def Act.isRelease : Act ω → Bool
  | .stop | .take => true
  | _ => false

@[simp] theorem afterAll_cons (x : SchedulerRun ω) (a : Act ω) (acts : List (Act ω)) :
    x.afterAll (a :: acts) = (x.after a).afterAll acts := rfl

/-- Without a tick that was asked for, only timers take turns. -/
theorem takeTurns_eq (h : x.single = none) (l : List (SchedulerTask × Nat)) :
    ∃ turns : List (Nat × Nat), VirtualTime.takeTurns poll x l =
      x.afterAll (turns.map fun t => .turn t.1 t.2 true) := by
  induction l generalizing x with
  | nil => exact ⟨[], rfl⟩
  | cons r rest ih =>
    obtain ⟨task | -, now⟩ := r
    · obtain ⟨turns, hturns⟩ := ih (x := x.after (.turn task now true)) h
      exact ⟨(task, now) :: turns, hturns⟩
    · have hidle : (poll .single now x).2 = x := by simp only [poll, h]
      obtain ⟨turns, hturns⟩ := ih h
      refine ⟨turns, ?_⟩
      rw [VirtualTime.takeTurns, List.foldl_cons, hidle]
      exact hturns

/-- A join gives the held timer away and lets timers take turns. -/
theorem join_eq (clock : VirtualTime SchedulerTask) (h : x.single = none) :
    ∃ turns : List (Nat × Nat), (x.join poll clock).2 =
      x.afterAll (.take :: turns.map fun t => .turn t.1 t.2 true) := by
  cases hslot : x.scheduler.slot with
  | none =>
    refine ⟨[], ?_⟩
    simp only [join, Scheduler.join, Scheduler.take, hslot]
    rfl
  | some i =>
    simp only [join, Scheduler.join, Scheduler.take, hslot]
    let ended : Goal SchedulerTask (SchedulerRun ω) :=
      .state (fun s => s.scheduler.isFinished i) none
    obtain ⟨l, hl⟩ : VirtualTime.ByTurns poll (x.after .take)
        (clock.wait poll ended (x.after .take)).2 := VirtualTime.byTurns_wait ended clock _
    obtain ⟨turns, hturns⟩ := takeTurns_eq (x := x.after .take) h l
    exact ⟨turns, hl.trans hturns⟩

theorem unfinished_after {n : Nat} (h : x.scheduler.unfinished ≤ 1 + n) (a : Act ω) :
    (x.after a).scheduler.unfinished ≤ 1 + n + (x.isHasty a).toNat := by
  cases a with
  | start now =>
    cases hrunning : x.scheduler.isRunning with
    | true =>
      have hsame : (x.after (.start now)).scheduler = x.scheduler :=
        congrArg Prod.snd (Scheduler.start_of_running hrunning now)
      rw [hsame]
      omega
    | false =>
      have hmore : (x.after (.start now)).scheduler.unfinished = x.scheduler.unfinished + 1 := by
        rw [after, Scheduler.start_of_not_running hrunning]
        exact List.countP_append
      rw [hmore, isHasty, hrunning]
      cases hcount : x.scheduler.unfinished with
      | zero => omega
      | succ k =>
        simp
        omega
  | stop => exact x.scheduler.unfinished_stop ▸ Nat.le_add_right_of_le h
  | turn i now ticksOnce =>
    exact Nat.le_trans (Scheduler.carries_poll ticksOnce i now _ _).unfinished_le h
  | take | around => exact h

/-- No more timers have not ended than one and one for each hasty start. -/
theorem unfinished_afterAll {n : Nat} (h : x.scheduler.unfinished ≤ 1 + n) (acts : List (Act ω)) :
    (x.afterAll acts).scheduler.unfinished ≤ 1 + n + x.hasty acts := by
  induction acts generalizing x n with
  | nil => exact h
  | cons a rest ih =>
    have hafter := unfinished_after h a
    rw [Nat.add_assoc] at hafter
    have hall := ih hafter
    rw [hasty]
    change ((x.after a).afterAll rest).scheduler.unfinished ≤ _
    omega

end SchedulerRun

/-! ## Journals -/

open Activity Command

variable {J : Journal ω} {cs : List (Command ω)}

namespace Scheduler

variable {m : Scheduler ω} {i nextDue now : Nat} {t : Timer ω} {rest : Suspended ω Unit} {s : ω}

/-- The commands of the scheduler keep a journal, in which nobody else notes anything. -/
structure Journaled (J : Journal ω) (cs : List (Command ω)) (m : Scheduler ω) : Prop where
  commands : m.commands = cs.map (·.noted J)
  silent : ∀ c ∈ cs, c.run.Always J.Silent
  report : ∀ f s, J.Silent s (m.report f s)

theorem Journaled.tick (h : m.Journaled J cs) : Notes J m.tick (round cs) := by
  rw [Scheduler.tick, h.commands]
  exact notes_tick h.report h.silent

/-- What timers do is of no concern. -/
theorem Journaled.withTimers (h : m.Journaled J cs) (timers : List (Timer ω)) (slot : Option Nat)
    (ticks : Nat) : ({ m with timers, slot, ticks } : Scheduler ω).Journaled J cs :=
  ⟨h.commands, h.silent, h.report⟩

theorem Journaled.stop (h : m.Journaled J cs) : m.stop.Journaled J cs := by
  unfold Scheduler.stop
  split
  · exact h
  · exact h.withTimers _ _ _

/-- A tick that is carried on makes all its marks and is counted, or it makes some and stays in
progress. -/
theorem afterTick_of_notes {work : Activity ω Unit} {left : List CommandMark}
    (h : Notes J work left) (m : Scheduler ω) (i nextDue now : Nat) (s : ω) :
    (∃ t, J.read t = J.read s ++ left ∧ (m.afterTick i nextDue (work.poll now s)).2 =
        (m.countTick.setPhase i (.waiting nextDue), t)) ∨
      ∃ rest t new left', left = new ++ left' ∧ left' ≠ [] ∧ J.read t = J.read s ++ new ∧
        (∀ waited, Notes J (rest.next waited) left') ∧
        (m.afterTick i nextDue (work.poll now s)).2 =
          (m.setPhase i (.ticking nextDue rest), t) := by
  rcases h.poll now s with ⟨⟨⟩, t, hpoll, hread⟩ | ⟨rest, t, new, left', hpoll, hleft⟩
  · exact .inl ⟨t, hread, by rw [hpoll]; rfl⟩
  · exact .inr ⟨rest, t, new, left', hleft.1, hleft.2.1, hleft.2.2.1, hleft.2.2.2,
      by rw [hpoll]; rfl⟩

end Scheduler

namespace SchedulerRun

variable {x : SchedulerRun ω} {base : List CommandMark} {i now : Nat} {t : Timer ω}
  {r : Scheduler ω × ω}

/-- No more than one timer has not ended, and the journal has a round for each tick that was counted
and the marks that the tick in progress made so far. -/
structure Orderly (J : Journal ω) (cs : List (Command ω)) (base : List CommandMark)
    (x : SchedulerRun ω) : Prop where
  journaled : x.scheduler.Journaled J cs
  few : x.scheduler.unfinished ≤ 1
  idle : (∀ i nextDue rest, x.scheduler.phase? i ≠ some (.ticking nextDue rest)) →
    J.read x.state = base ++ rounds cs x.scheduler.ticks
  busy : ∀ i nextDue rest, x.scheduler.phase? i = some (.ticking nextDue rest) →
    ∃ part left, round cs = part ++ left ∧ left ≠ [] ∧
      J.read x.state = base ++ rounds cs x.scheduler.ticks ++ part ∧
      ∀ waited, Notes J (rest.next waited) left

/-- The marks that are left for a tick of the timer, which begins or goes on. -/
theorem Orderly.works (h : x.Orderly J cs base) {work : Activity ω Unit}
    {part left : List CommandMark} (timer : x.scheduler.timers[i]? = some t)
    (ht : t.isFinished = false) (hround : round cs = part ++ left)
    (hread : J.read x.state = base ++ rounds cs x.scheduler.ticks ++ part)
    (hwork : Notes J work left) (nextDue now : Nat) :
    let r := (x.scheduler.afterTick i nextDue (work.poll now x.state)).2
    ({ x with scheduler := r.1, state := r.2 } : SchedulerRun ω).Orderly J cs base := by
  intro r
  have hfew : r.1.unfinished ≤ 1 := by
    obtain ⟨ticks, phase, hr⟩ := x.scheduler.afterTick_eq i nextDue (work.poll now x.state)
    rw [hr]
    exact Nat.le_trans
      (Scheduler.unfinished_setPhase_le (m := { x.scheduler with ticks }) timer ht phase) h.few
  rcases Scheduler.afterTick_of_notes hwork x.scheduler i nextDue now x.state with
    ⟨s, hnotes, hr⟩ | ⟨rest, s, new, left', hleft, hpending, hnotes, hlater, hr⟩
  · -- The tick ends, and the journal has a whole round more.
    change r = _ at hr
    rw [hr] at hfew ⊢
    refine ⟨h.journaled.withTimers _ _ _, hfew, fun _ => ?_, fun j nextDue' rest' hj => ?_⟩
    · change J.read s = base ++ rounds cs (x.scheduler.ticks + 1)
      rw [hnotes, hread, rounds_succ, hround]
      simp only [List.append_assoc]
    · cases Scheduler.eq_of_setPhase_ticking (m := x.scheduler.countTick) h.few timer ht hj
  · -- The tick waits, and the marks that it made are part of a round.
    change r = _ at hr
    rw [hr] at hfew ⊢
    refine ⟨h.journaled.withTimers _ _ _, hfew, fun hnone => ?_, fun j nextDue' rest' hj => ?_⟩
    · refine absurd ?_ (hnone i nextDue rest)
      rw [Scheduler.setPhase_phase? timer, if_pos rfl]
    · obtain ⟨rfl, rfl⟩ :=
        TimerPhase.ticking.inj (Scheduler.eq_of_setPhase_ticking h.few timer ht hj)
      refine ⟨part ++ new, left', ?_, hpending, ?_, hlater⟩
      · rw [hround, hleft, List.append_assoc]
      · change J.read s = base ++ rounds cs x.scheduler.ticks ++ (part ++ new)
        rw [hnotes, hread, List.append_assoc (base ++ _)]

theorem Orderly.carries (h : x.Orderly J cs base) (hr : x.scheduler.Carries i now x.state r) :
    ({ x with scheduler := r.1, state := r.2 } : SchedulerRun ω).Orderly J cs base := by
  cases hr with
  | stays => exact h
  | @ends t due timer phase cancelled =>
    have ht : t.isFinished = false := by rw [Timer.isFinished, phase]
    have hread := h.idle fun j nextDue rest =>
      Scheduler.phase?_ne_ticking h.few timer ht (by rw [Timer.isTicking, phase])
    refine ⟨h.journaled.withTimers _ _ _,
      Nat.le_trans (Scheduler.unfinished_setPhase_le timer ht _) h.few, fun _ => hread,
      fun j nextDue rest hj => ?_⟩
    cases Scheduler.eq_of_setPhase_ticking h.few timer ht hj
  | @begins t due timer phase nextDue =>
    have ht : t.isFinished = false := by rw [Timer.isFinished, phase]
    have hread := h.idle fun j nextDue rest =>
      Scheduler.phase?_ne_ticking h.few timer ht (by rw [Timer.isTicking, phase])
    exact h.works timer ht (List.nil_append _).symm (hread.trans (List.append_nil _).symm)
      h.journaled.tick nextDue now
  | @goesOn t nextDue rest timer phase =>
    have ht : t.isFinished = false := by rw [Timer.isFinished, phase]
    obtain ⟨part, left, hround, -, hread, hlater⟩ :=
      h.busy i nextDue rest (phase ▸ Scheduler.phase?_eq timer)
    exact h.works timer ht hround hread (hlater _) nextDue now

/-- Stopping a timer and changing the rest of the state are of no concern. -/
theorem Orderly.of_phases {m : Scheduler ω} {s : ω} (h : x.Orderly J cs base)
    (hm : m.Journaled J cs) (hcount : m.unfinished = x.scheduler.unfinished)
    (hphases : ∀ i, m.phase? i = x.scheduler.phase? i) (hticks : m.ticks = x.scheduler.ticks)
    (hs : J.Silent x.state s) :
    ({ x with scheduler := m, state := s } : SchedulerRun ω).Orderly J cs base := by
  refine ⟨hm, Nat.le_trans (Nat.le_of_eq hcount) h.few, fun hidle => ?_,
    fun i nextDue rest hi => ?_⟩
  · rw [hticks, hs]
    exact h.idle fun i nextDue rest => hphases i ▸ hidle i nextDue rest
  · obtain ⟨part, left, hround, hpending, hread, hlater⟩ := h.busy i nextDue rest (hphases i ▸ hi)
    exact ⟨part, left, hround, hpending, by rw [hticks, hs, hread], hlater⟩

theorem Orderly.start (h : x.Orderly J cs base) (hnone : x.scheduler.unfinished = 0)
    (hrunning : x.scheduler.isRunning = false) : (x.after (.start now)).Orderly J cs base := by
  have hidle (i nextDue : Nat) (rest : Suspended ω Unit) :
      x.scheduler.phase? i ≠ some (.ticking nextDue rest) :=
    Scheduler.phase?_of_ticking_eq_zero
      (Nat.eq_zero_of_le_zero (hnone ▸ x.scheduler.ticking_le_unfinished))
  have hfew := unfinished_after (n := 0) h.few (.start now)
  rw [isHasty, hnone, bne_self_eq_false, Bool.and_false] at hfew
  rw [after, Scheduler.start_of_not_running hrunning] at hfew ⊢
  refine ⟨h.journaled.withTimers _ _ _, hfew, fun _ => h.idle hidle, fun i nextDue rest hi => ?_⟩
  obtain ⟨t, ht, hphase⟩ := Option.map_eq_some_iff.1 hi
  rw [List.getElem?_append] at ht
  split at ht
  · exact absurd (by rw [Scheduler.phase?, ht, Option.map_some, hphase]) (hidle i nextDue rest)
  · have hmem := List.mem_of_getElem? ht
    rw [List.mem_singleton.1 hmem] at hphase
    cases hphase

theorem orderly_after (h : x.Orderly J cs base) {a : Act ω} (hcalm : x.isHasty a = false)
    (haround : ∀ change, a = .around change → ∀ s, J.Silent s (change s)) :
    (x.after a).Orderly J cs base := by
  cases a with
  | start now =>
    cases hrunning : x.scheduler.isRunning with
    | true =>
      have hsame : x.after (.start now) = x := by
        rw [after, Scheduler.start_of_running hrunning]
      rw [hsame]
      exact h
    | false =>
      refine h.start ?_ hrunning
      rwa [isHasty, hrunning, Bool.not_false, Bool.true_and, bne_eq_false_iff_eq] at hcalm
  | stop =>
    exact h.of_phases h.journaled.stop x.scheduler.unfinished_stop x.scheduler.stop_phase?
      x.scheduler.ticks_stop rfl
  | take =>
    exact h.of_phases (h.journaled.withTimers _ _ _) rfl (fun _ => rfl) rfl rfl
  | turn i now ticksOnce => exact h.carries (Scheduler.carries_poll ticksOnce i now _ _)
  | around change =>
    exact h.of_phases h.journaled rfl (fun _ => rfl) rfl (haround change rfl x.state)

theorem orderly_afterAll (h : x.Orderly J cs base) {acts : List (Act ω)} (hcalm : x.hasty acts = 0)
    (haround : ∀ change, .around change ∈ acts → ∀ s, J.Silent s (change s)) :
    (x.afterAll acts).Orderly J cs base := by
  induction acts generalizing x with
  | nil => exact h
  | cons a rest ih =>
    rw [hasty, Nat.add_eq_zero_iff, Bool.toNat_eq_zero] at hcalm
    exact ih (orderly_after h hcalm.1 fun change ha => haround change (ha ▸ List.mem_cons_self))
      hcalm.2 fun change hmem => haround change (List.mem_cons_of_mem _ hmem)

end SchedulerRun

/-! ## Runs without stops and joins -/

namespace Scheduler

variable {m : Scheduler ω} {i : Nat} {t : Timer ω} {phase : TimerPhase ω}

/-- No timer was begun, or one was that the scheduler holds and that goes on ticking. -/
def Attended (m : Scheduler ω) : Prop :=
  m.timers = [] ∨
    ∃ t, m.timers = [t] ∧ m.slot = some 0 ∧ t.cancelled = false ∧ t.isFinished = false

theorem Attended.timer (h : m.Attended) (hi : m.timers[i]? = some t) :
    m.timers = [t] ∧ i = 0 ∧ m.slot = some 0 ∧ t.cancelled = false := by
  rcases h with hnone | ⟨u, hone, hslot, hcancelled, -⟩
  · rw [hnone] at hi
    cases hi
  · rw [hone] at hi
    cases i with
    | zero =>
      cases hi
      exact ⟨hone, rfl, hslot, hcancelled⟩
    | succ i => cases hi

theorem Attended.setPhase (h : m.Attended) (hi : m.timers[i]? = some t)
    (hphase : ({ t with phase } : Timer ω).isFinished = false) : (m.setPhase i phase).Attended := by
  obtain ⟨hone, rfl, hslot, hcancelled⟩ := h.timer hi
  refine .inr ⟨{ t with phase }, ?_, hslot, hcancelled, hphase⟩
  rw [timers_setPhase hi, hone]
  rfl

/-- A start finds nothing to do, or there is no timer yet. -/
theorem Attended.isRunning (h : m.Attended) : m.isRunning = true ∨ m.timers = [] := by
  rcases h with hnone | ⟨t, hone, hslot, hcancelled, hlive⟩
  · exact .inr hnone
  · exact .inl (isRunning_iff.2 ⟨0, t, hslot, by rw [hone]; rfl, hcancelled, hlive⟩)

end Scheduler

namespace SchedulerRun

variable {x : SchedulerRun ω} {base : List CommandMark} {i now : Nat} {r : Scheduler ω × ω}

theorem attended_carries (h : x.Orderly J cs base) (hx : x.scheduler.Attended)
    (hr : x.scheduler.Carries i now x.state r) : r.1.Attended := by
  have hworks {t : Timer ω} {work : Activity ω Unit} {left : List CommandMark}
      (hwork : Notes J work left) (timer : x.scheduler.timers[i]? = some t) (nextDue : Nat) :
      (x.scheduler.afterTick i nextDue (work.poll now x.state)).2.1.Attended := by
    rcases Scheduler.afterTick_of_notes hwork x.scheduler i nextDue now x.state with
      ⟨s, -, hr⟩ | ⟨rest, s, new, left', -, -, -, -, hr⟩ <;> rw [hr]
    · exact Scheduler.Attended.setPhase (m := x.scheduler.countTick) hx timer rfl
    · exact hx.setPhase timer rfl
  cases hr with
  | stays => exact hx
  | ends timer phase cancelled =>
    obtain ⟨-, -, -, hkept⟩ := hx.timer timer
    cases cancelled.symm.trans hkept
  | begins timer phase nextDue => exact hworks h.journaled.tick timer nextDue
  | @goesOn t nextDue rest timer phase =>
    obtain ⟨part, left, -, -, -, hlater⟩ :=
      h.busy i nextDue rest (phase ▸ Scheduler.phase?_eq timer)
    exact hworks (hlater _) timer nextDue

theorem attended_after (h : x.Orderly J cs base) (hx : x.scheduler.Attended) {a : Act ω}
    (ha : a.isRelease = false) : x.isHasty a = false ∧ (x.after a).scheduler.Attended := by
  cases a with
  | start now =>
    rcases hx.isRunning with hrunning | hnone
    · have hsame : x.after (.start now) = x := by rw [after, Scheduler.start_of_running hrunning]
      exact ⟨by rw [isHasty, hrunning]; rfl, hsame.symm ▸ hx⟩
    · have hrunning : x.scheduler.isRunning = false := by
        cases hslot : x.scheduler.slot <;>
          simp [Scheduler.isRunning, Scheduler.held?, hslot, hnone]
      refine ⟨by rw [isHasty, Scheduler.unfinished, hnone, hrunning]; rfl, ?_⟩
      rw [after, Scheduler.start_of_not_running hrunning, hnone]
      exact .inr ⟨_, rfl, rfl, rfl, rfl⟩
  | stop | take => cases ha
  | turn i now ticksOnce =>
    exact ⟨rfl, attended_carries h hx (Scheduler.carries_poll ticksOnce i now _ _)⟩
  | around change => exact ⟨rfl, hx⟩

/-- Without stops and joins no start is hasty. -/
theorem hasty_of_attended (h : x.Orderly J cs base) (hx : x.scheduler.Attended)
    {acts : List (Act ω)} (hacts : ∀ a ∈ acts, a.isRelease = false)
    (haround : ∀ change, .around change ∈ acts → ∀ s, J.Silent s (change s)) :
    x.hasty acts = 0 := by
  induction acts generalizing x with
  | nil => rfl
  | cons a rest ih =>
    obtain ⟨hcalm, hafter⟩ := attended_after h hx (hacts a List.mem_cons_self)
    have horderly := orderly_after h hcalm fun change ha => haround change (ha ▸ List.mem_cons_self)
    rw [hasty, hcalm, ih horderly hafter (fun b hb => hacts b (List.mem_cons_of_mem _ hb))
      fun change hmem => haround change (List.mem_cons_of_mem _ hmem)]
    rfl

/-! ## All runs -/

/-- Whatever is done with a scheduler, in whatever order and however long commands take, there are
no more ticks in progress than one and one for each hasty start. Without hasty starts no two ticks
are, and the commands begin and end in whole rounds, one for each tick that was counted, but for
what the tick in progress has done so far. No start is hasty unless the timer was stopped or given
to a join. -/
theorem ticks_overlap_after_hasty_starts (hcommands : x.scheduler.Journaled J cs)
    (hfresh : x.scheduler.timers = []) (hticks : x.scheduler.ticks = 0) (acts : List (Act ω))
    (haround : ∀ change, .around change ∈ acts → ∀ s, J.Silent s (change s)) :
    let y := x.afterAll acts
    y.scheduler.ticking ≤ 1 + x.hasty acts ∧
    (x.hasty acts = 0 →
      (y.scheduler.ticking = 0 →
        J.read y.state = J.read x.state ++ rounds cs y.scheduler.ticks) ∧
      (y.scheduler.ticking ≠ 0 → ∃ part left, round cs = part ++ left ∧ left ≠ [] ∧
        J.read y.state = J.read x.state ++ rounds cs y.scheduler.ticks ++ part)) ∧
    ((∀ a ∈ acts, a.isRelease = false) → x.hasty acts = 0) := by
  intro y
  have hnone : x.scheduler.unfinished = 0 := by rw [Scheduler.unfinished, hfresh]; rfl
  have horderly : x.Orderly J cs (J.read x.state) := {
    journaled := hcommands
    few := hnone ▸ Nat.zero_le 1
    idle := fun _ => by rw [hticks]; exact (List.append_nil _).symm
    busy := fun i nextDue rest hi => by
      rw [Scheduler.phase?, hfresh] at hi
      cases hi }
  refine ⟨?count, fun hcalm => ?rounds, fun hkept => ?calm⟩
  case count =>
    exact Nat.le_trans y.scheduler.ticking_le_unfinished
      (unfinished_afterAll (n := 0) (by omega) acts)
  case rounds =>
    have hafter := orderly_afterAll horderly hcalm haround
    refine ⟨fun hidle => hafter.idle fun i nextDue rest =>
      Scheduler.phase?_of_ticking_eq_zero hidle, fun hbusy => ?_⟩
    obtain ⟨i, nextDue, rest, hi⟩ :=
      Scheduler.exists_phase?_of_ticking_pos (Nat.pos_of_ne_zero hbusy)
    obtain ⟨part, left, hround, hpending, hread, -⟩ := hafter.busy i nextDue rest hi
    exact ⟨part, left, hround, hpending, hread⟩
  case calm => exact hasty_of_attended horderly (.inl hfresh) hkept haround

/-- The state is nothing but the journal. -/
def onlyMarks : Journal (List CommandMark) where
  read := id
  note mark marks := marks ++ [mark]
  read_note _ _ := rfl

/-- A sweep that takes a tenth of a second. -/
def sweep : Command (List CommandMark) := ⟨"sweep", .sleep 100 (.done (.ok ()))⟩

/-- A scheduler that sweeps once a second. -/
def sweeper : SchedulerRun (List CommandMark) where
  scheduler := .build [sweep.noted onlyMarks] (.ofMillis 10) (.ofSecs 1) fun _ s => s
  state := []

/-- The timer is stopped while it ticks, and started again after it has ended. -/
def patient : List (Act (List CommandMark)) :=
  [.start 0, .turn 0 10 false, .stop, .turn 0 110 false, .turn 0 110 false, .start 120,
    .turn 1 130 false]

theorem sweeper_rounds :
    sweeper.hasty patient = 0 ∧ (sweeper.afterAll patient).scheduler.ticking ≤ 1 ∧
      (sweeper.afterAll patient).scheduler.ticking ≠ 0 ∧
      ∃ part left, round [sweep] = part ++ left ∧ left ≠ [] ∧
        (sweeper.afterAll patient).state = rounds [sweep] 1 ++ part := by
  have hcommands : sweeper.scheduler.Journaled onlyMarks [sweep] := {
    commands := rfl
    silent := fun c hc => by rw [List.mem_singleton.1 hc]; exact fun _ => trivial
    report := fun _ _ => rfl }
  have hcalm : sweeper.hasty patient = 0 := by decide +kernel
  have hbusy : (sweeper.afterAll patient).scheduler.ticking ≠ 0 := by decide +kernel
  have hticks : (sweeper.afterAll patient).scheduler.ticks = 1 := by decide +kernel
  obtain ⟨hcount, hrounds, -⟩ :=
    ticks_overlap_after_hasty_starts hcommands rfl rfl patient (by simp [patient])
  obtain ⟨part, left, hround, hpending, hread⟩ := (hrounds hcalm).2 hbusy
  rw [hcalm] at hcount
  rw [hticks] at hread
  exact ⟨hcalm, hcount, hbusy, part, left, hround, hpending, hread⟩

/-- The timer is started again while its tick is in progress. -/
def impatient : List (Act (List CommandMark)) :=
  [.start 0, .turn 0 10 false, .stop, .start 15, .turn 1 25 false]

/-- Two ticks are in progress, and the second sweep began before the first one ended. -/
theorem impatient_overlap :
    (sweeper.afterAll impatient).scheduler.ticking = 2 ∧
      (sweeper.afterAll impatient).state = [.begun "sweep", .begun "sweep"] := by
  decide +kernel

end SchedulerRun

end JobEngine
