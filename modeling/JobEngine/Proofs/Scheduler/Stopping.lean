-- SUMMARY: After a stop no tick begins but by a cancelled timer that is due and chooses to tick.
import JobEngine.Proofs.Scheduler.Overlap

/-!
# Stopping

A stop cancels the timer that is held, and as long as no timer is given away to a join, every other
one was cancelled before or has ended. A cancelled timer ends in its next turn, unless it is due in
that turn: then it may just as well tick once more. A tick that outlasts the interval makes its
timer due at its end, so that a tick may begin long after the stop; and if every tick does, one tick
may follow another. If the choice never falls to the tick, none begins until the next start.
-/

namespace JobEngine

variable {ω α β : Type}

/-! ## Work that does not panic -/

namespace Activity

/-- The work does not panic, whatever others do while it waits. -/
def NeverPanics : Activity ω α → Prop
  | .done _ => True
  | .panic _ => False
  | .step _ next => ∀ s, (next s).NeverPanics
  | .wait _ _ next => ∀ waited, (next waited).NeverPanics

variable {work : Activity ω α}

theorem NeverPanics.bind {k : α → Activity ω β} (h : work.NeverPanics)
    (hk : ∀ a, (k a).NeverPanics) : (work.bind k).NeverPanics := by
  induction work with
  | done a => exact hk a
  | panic p => exact h.elim
  | step change next ih => exact fun s => ih s (h s)
  | wait limit ready next ih => exact fun waited => ih waited (h waited)

theorem neverPanics_caught (work : Activity ω α) : work.caught.NeverPanics := by
  induction work with
  | done a => trivial
  | panic p => trivial
  | step change next ih => exact ih
  | wait limit ready next ih => exact ih

theorem NeverPanics.timed (h : work.NeverPanics) (elapsed : Nat) :
    (work.timed elapsed).NeverPanics := by
  induction work generalizing elapsed with
  | done a => trivial
  | panic p => exact h
  | step change next ih => exact fun s => ih s (h s) elapsed
  | wait limit ready next ih => exact fun waited => ih waited (h waited) (elapsed + waited)

/-- Carried on, it ends with a result, or it waits and does not panic later either. -/
theorem NeverPanics.poll (h : work.NeverPanics) (now : Nat) (s : ω) :
    (∃ a t, work.poll now s = (.ended (.done a), t)) ∨
      ∃ rest t, work.poll now s = (.waiting rest, t) ∧
        ∀ waited, (rest.next waited).NeverPanics := by
  induction work generalizing s with
  | done a => exact .inl ⟨a, s, rfl⟩
  | panic p => exact h.elim
  | step change next ih => exact ih s (h s) (change s)
  | wait limit ready next ih =>
    unfold Activity.poll
    split
    · exact ih 0 (h 0) s
    · exact .inr ⟨_, s, rfl, h⟩

end Activity

theorem Command.neverPanics_runAll (report : MetricsSink ω) (cs : List (Command ω)) :
    (runAll report cs).NeverPanics := by
  induction cs with
  | nil => trivial
  | cons c rest ih => exact (Activity.neverPanics_caught _).bind fun _ _ => ih

namespace Scheduler

variable {m : Scheduler ω} {i now : Nat} {t : Timer ω} {s : ω}

/-- A panic of a command does not end a tick. -/
theorem neverPanics_tick (m : Scheduler ω) : m.tick.NeverPanics :=
  ((Command.neverPanics_runAll m.report m.commands).timed 0).bind fun _ _ => trivial

/-! ## Ticks that were begun -/

/-- How many ticks were begun: those that ended and those in progress. -/
def begun (m : Scheduler ω) : Nat := m.ticks + m.ticking

/-- The tick of a timer that ticks goes on to its end. -/
def Steady (m : Scheduler ω) : Prop :=
  ∀ i nextDue rest, m.phase? i = some (.ticking nextDue rest) →
    ∀ waited, (rest.next waited).NeverPanics

theorem ticking_setPhase (h : m.timers[i]? = some t) (phase : TimerPhase ω) :
    (m.setPhase i phase).ticking + t.isTicking.toNat =
      m.ticking + (Timer.isTicking { t with phase }).toNat := by
  obtain ⟨hlt, hget⟩ := List.getElem?_eq_some_iff.1 h
  unfold ticking
  rw [timers_setPhase h, List.countP_set hlt, hget]
  cases hticking : t.isTicking with
  | false => cases Timer.isTicking { t with phase } <;> simp
  | true =>
    have hpos : 0 < m.timers.countP (·.isTicking) :=
      List.countP_pos_iff.2 ⟨t, List.mem_of_getElem? h, hticking⟩
    cases Timer.isTicking { t with phase }
    all_goals
      simp
      omega

theorem Steady.setPhase (h : m.Steady) (timer : m.timers[i]? = some t) {phase : TimerPhase ω}
    (hphase : ∀ nextDue rest, phase = .ticking nextDue rest →
      ∀ waited, (rest.next waited).NeverPanics) : (m.setPhase i phase).Steady := by
  intro j nextDue rest hj
  rw [setPhase_phase? timer] at hj
  split at hj
  · exact hphase nextDue rest (Option.some.inj hj)
  · exact h j nextDue rest hj

/-- A tick that begins or goes on is counted, or it stays in progress. -/
theorem Steady.afterTick (h : m.Steady) (timer : m.timers[i]? = some t)
    {work : Activity ω Unit} (hwork : work.NeverPanics) (nextDue now : Nat) (s : ω) :
    let r := (m.afterTick i nextDue (work.poll now s)).2.1
    r.Steady ∧ r.begun + t.isTicking.toNat = m.begun + 1 := by
  rcases hwork.poll now s with ⟨⟨⟩, u, hpoll⟩ | ⟨rest, u, hpoll, hlater⟩
  · have hcounted : (m.countTick.setPhase i (.waiting nextDue)).ticking + t.isTicking.toNat =
        m.ticking + 0 := ticking_setPhase (m := m.countTick) timer (.waiting nextDue)
    rw [hpoll]
    have hsteady : (m.countTick.setPhase i (.waiting nextDue)).Steady := by
      refine Steady.setPhase (m := m.countTick) h timer ?_
      intro _ _ hphase
      cases hphase
    refine ⟨hsteady, ?_⟩
    change m.ticks + 1 + (m.countTick.setPhase i (.waiting nextDue)).ticking + _ =
      m.ticks + m.ticking + 1
    omega
  · have hpending : (m.setPhase i (.ticking nextDue rest)).ticking + t.isTicking.toNat =
        m.ticking + 1 := ticking_setPhase timer (.ticking nextDue rest)
    rw [hpoll]
    refine ⟨h.setPhase timer ?_, ?_⟩
    · intro nextDue' rest' hphase
      obtain ⟨-, rfl⟩ := TimerPhase.ticking.inj hphase
      exact hlater
    · change m.ticks + (m.setPhase i (.ticking nextDue rest)).ticking + _ =
        m.ticks + m.ticking + 1
      omega

/-- Carrying a timer on begins a tick: it is due, and it is not cancelled or the choice falls to the
tick. -/
def begins (m : Scheduler ω) (ticksOnce : Bool) (i now : Nat) : Bool :=
  match m.timers[i]? with
  | none => false
  | some t =>
    match t.phase with
    | .waiting due => decide (due ≤ now * 1000000) && (!t.cancelled || ticksOnce)
    | _ => false

theorem Steady.poll (h : m.Steady) (ticksOnce : Bool) (i now : Nat) (s : ω) :
    let r := (m.poll ticksOnce i now s).2.1
    r.Steady ∧ r.begun = m.begun + (m.begins ticksOnce i now).toNat := by
  unfold Scheduler.poll begins
  cases timer : m.timers[i]? with
  | none => exact ⟨h, rfl⟩
  | some t =>
    cases hphase : t.phase with
    | ended =>
      simp only [hphase]
      exact ⟨h, rfl⟩
    | waiting due =>
      simp only [hphase]
      have hidle : t.isTicking = false := by rw [Timer.isTicking, hphase]
      split
      · rename_i hends
        have hended : (m.setPhase i .ended).ticking + t.isTicking.toNat = m.ticking + 0 :=
          ticking_setPhase timer .ended
        rw [hidle] at hended
        obtain ⟨hcancelled, hnot⟩ := Bool.and_eq_true_iff.1 hends
        have hsteady : (m.setPhase i .ended).Steady := by
          refine h.setPhase timer ?_
          intro _ _ hphase
          cases hphase
        refine ⟨hsteady, ?_⟩
        rw [hcancelled, Bool.not_true, Bool.false_or, (Bool.not_eq_true' _).mp hnot]
        change m.ticks + (m.setPhase i .ended).ticking = m.ticks + m.ticking + 0
        exact congrArg (m.ticks + ·) hended
      · rename_i hgoes
        split
        · rename_i hdue
          have hbegins : (!t.cancelled || ticksOnce) = true := by
            cases hcancelled : t.cancelled with
            | false => rfl
            | true =>
              rw [hcancelled, hdue] at hgoes
              simpa using hgoes
          rw [hdue, hbegins]
          have htick := h.afterTick timer m.neverPanics_tick
            (Timer.nextDue m.interval.nanos due (now * 1000000)) now s
          rw [hidle] at htick
          exact htick
        · rename_i hdue
          rw [Bool.eq_false_iff.2 hdue]
          exact ⟨h, rfl⟩
    | ticking nextDue rest =>
      simp only [hphase]
      have hbusy : t.isTicking = true := by rw [Timer.isTicking, hphase]
      split
      · rename_i hready
        have hrest := h i nextDue rest (hphase ▸ phase?_eq timer) (now - rest.since)
        obtain ⟨hsteady, hbegun⟩ := h.afterTick timer hrest nextDue now s
        rw [hbusy] at hbegun
        rw [Suspended.resume, if_pos hready]
        exact ⟨hsteady, Nat.succ.inj hbegun⟩
      · exact ⟨h, rfl⟩

theorem Steady.start (h : m.Steady) (now : Nat) :
    (m.start now).2.Steady ∧ (m.start now).2.begun = m.begun := by
  cases hrunning : m.isRunning with
  | true =>
    rw [start_of_running hrunning]
    exact ⟨h, rfl⟩
  | false =>
    rw [start_of_not_running hrunning]
    refine ⟨?_, ?_⟩
    · intro i nextDue rest hi
      obtain ⟨t, ht, hphase⟩ := Option.map_eq_some_iff.1 hi
      rw [List.getElem?_append] at ht
      split at ht
      · exact h i nextDue rest (hphase ▸ phase?_eq ht)
      · rw [List.mem_singleton.1 (List.mem_of_getElem? ht)] at hphase
        cases hphase
    · exact congrArg (m.ticks + ·) List.countP_append

theorem Steady.stop (h : m.Steady) : m.stop.Steady ∧ m.stop.begun = m.begun := by
  refine ⟨fun i nextDue rest hi => h i nextDue rest (m.stop_phase? i ▸ hi), ?_⟩
  have hcount := congrArg (List.countP id) (m.map_timers_stop (f := (·.isTicking)) fun _ => rfl)
  rw [List.countP_map, List.countP_map] at hcount
  unfold begun
  rw [ticks_stop]
  exact congrArg (m.ticks + ·) hcount

/-! ## Cancelled timers -/

/-- A timer that goes on ticking is the one that is held. -/
def Leashed (m : Scheduler ω) : Prop :=
  ∀ i t, m.timers[i]? = some t → t.cancelled = false → t.isFinished = false → m.slot = some i

/-- Every timer is cancelled, or has ended. -/
def Halted (m : Scheduler ω) : Prop := ∀ t ∈ m.timers, t.cancelled = true ∨ t.isFinished = true

theorem Leashed.start (h : m.Leashed) (now : Nat) : (m.start now).2.Leashed := by
  cases hrunning : m.isRunning with
  | true =>
    rw [start_of_running hrunning]
    exact h
  | false =>
    rw [start_of_not_running hrunning]
    intro i t hi hcancelled hlive
    rw [List.getElem?_append] at hi
    split at hi
    · -- An earlier timer would be running.
      have hheld := isRunning_iff.2 ⟨i, t, h i t hi hcancelled hlive, hi, hcancelled, hlive⟩
      exact absurd hheld (Bool.eq_false_iff.1 hrunning)
    · rename_i hlast
      have hzero : i - m.timers.length = 0 := by
        have hlt := (List.getElem?_eq_some_iff.1 hi).1
        rw [List.length_singleton] at hlt
        omega
      have hlength : i = m.timers.length := by omega
      exact congrArg some hlength.symm

/-- Carrying a timer on cancels none and lets none go on that had ended. -/
theorem Carries.timer_of {r : Scheduler ω × ω} (h : m.Carries i now s r) {j : Nat} {u : Timer ω}
    (hu : r.1.timers[j]? = some u) :
    ∃ t, m.timers[j]? = some t ∧ t.cancelled = u.cancelled ∧
      (t.isFinished = true → u.isFinished = true) ∧ r.1.slot = m.slot := by
  rcases h.moves with hsame | ⟨t, ticks, phase, timer, ht, hr⟩
  · rw [hsame] at hu ⊢
    exact ⟨u, hu, rfl, id, rfl⟩
  · rw [hr] at hu ⊢
    rw [timers_setPhase (m := { m with ticks }) timer] at hu
    by_cases hij : i = j
    · subst hij
      rw [List.getElem?_set_self (List.getElem?_eq_some_iff.1 timer).1] at hu
      obtain rfl := Option.some.inj hu
      exact ⟨t, timer, rfl, fun hended => absurd (ht.symm.trans hended) Bool.false_ne_true, rfl⟩
    · rw [List.getElem?_set_ne hij] at hu
      exact ⟨u, hu, rfl, id, rfl⟩

theorem Leashed.carries {r : Scheduler ω × ω} (h : m.Leashed) (hr : m.Carries i now s r) :
    r.1.Leashed := by
  intro j u hu hcancelled hlive
  obtain ⟨t, ht, hsame, hended, hslot⟩ := hr.timer_of hu
  rw [hslot]
  refine h j t ht (hsame.trans hcancelled) (Bool.eq_false_iff.2 ?_)
  intro hfinished
  exact Bool.eq_false_iff.1 hlive (hended hfinished)

theorem Halted.carries {r : Scheduler ω × ω} (h : m.Halted) (hr : m.Carries i now s r) :
    r.1.Halted := by
  intro u hu
  obtain ⟨j, hj⟩ := List.mem_iff_getElem?.1 hu
  obtain ⟨t, ht, hsame, hended, -⟩ := hr.timer_of hj
  exact (h t (List.mem_of_getElem? ht)).imp (fun hcancelled => hsame.symm.trans hcancelled) hended

theorem getElem?_stop (m : Scheduler ω) (i : Nat) : m.stop.timers[i]? =
    (m.timers[i]?).map fun t => if m.slot = some i then { t with cancelled := true } else t := by
  unfold stop
  cases hslot : m.slot with
  | none => simp
  | some j =>
    rw [List.getElem?_modify]
    by_cases hij : j = i
    · simp [hij]
    · simp [hij]

theorem Leashed.stop (h : m.Leashed) : m.stop.Leashed := by
  intro i u hu hcancelled hlive
  rw [getElem?_stop] at hu
  obtain ⟨t, ht, rfl⟩ := Option.map_eq_some_iff.1 hu
  split at hcancelled
  · cases hcancelled
  · rename_i hother
    rw [if_neg hother] at hlive
    exact absurd (h i t ht hcancelled hlive) hother

/-- A stop leaves no timer that goes on ticking. -/
theorem Leashed.halted_stop (h : m.Leashed) : m.stop.Halted := by
  intro u hu
  obtain ⟨i, hi⟩ := List.mem_iff_getElem?.1 hu
  cases hcancelled : u.cancelled with
  | true => exact .inl rfl
  | false =>
    cases hlive : u.isFinished with
    | true => exact .inr rfl
    | false =>
      -- It would be the held one, which is cancelled.
      have hslot : m.slot = some i := by
        have hheld := h.stop i u hi hcancelled hlive
        unfold Scheduler.stop at hheld
        split at hheld <;> exact hheld
      rw [getElem?_stop] at hi
      obtain ⟨t, -, rfl⟩ := Option.map_eq_some_iff.1 hi
      rw [if_pos hslot] at hcancelled
      cases hcancelled

theorem Halted.stop (h : m.Halted) : m.stop.Halted := by
  refine Leashed.halted_stop ?_
  intro i t hi hcancelled hlive
  rcases h t (List.mem_of_getElem? hi) with hc | hf
  · exact absurd (hcancelled.symm.trans hc) Bool.false_ne_true
  · exact absurd (hlive.symm.trans hf) Bool.false_ne_true

/-- A turn finds a timer cancelled and due. -/
def isOverdue (m : Scheduler ω) (i now : Nat) : Bool :=
  match m.timers[i]? with
  | none => false
  | some t =>
    match t.phase with
    | .waiting due => t.cancelled && decide (due ≤ now * 1000000)
    | _ => false

/-- Of cancelled timers only those begin a tick that are due and choose to. -/
theorem Halted.begins_eq (h : m.Halted) (ticksOnce : Bool) (i now : Nat) :
    m.begins ticksOnce i now = (m.isOverdue i now && ticksOnce) := by
  unfold begins isOverdue
  cases timer : m.timers[i]? with
  | none => rfl
  | some t =>
    cases hphase : t.phase with
    | ended | ticking => simp only [hphase, Bool.false_and]
    | waiting due =>
      have hcancelled : t.cancelled = true := by
        refine (h t (List.mem_of_getElem? timer)).resolve_right ?_
        rw [Timer.isFinished, hphase]
        exact Bool.false_ne_true
      simp only [hphase, hcancelled, Bool.not_true, Bool.false_or, Bool.true_and]

end Scheduler

/-! ## Runs -/

namespace SchedulerRun

variable {x : SchedulerRun ω}

/-- An act begins a tick. -/
def begins (x : SchedulerRun ω) : Act ω → Bool
  | .turn i now ticksOnce => x.scheduler.begins ticksOnce i now
  | _ => false

/-- Every tick that an act begins is counted or in progress after it, and no other is. -/
theorem steady_after (h : x.scheduler.Steady) (a : Act ω) : (x.after a).scheduler.Steady ∧
    (x.after a).scheduler.begun = x.scheduler.begun + (x.begins a).toNat := by
  cases a with
  | start now => exact h.start now
  | stop => exact h.stop
  | turn i now ticksOnce => exact h.poll ticksOnce i now x.state
  | take | around => exact ⟨h, rfl⟩

theorem leashed_after (h : x.scheduler.Leashed) {a : Act ω} (ha : a ≠ .take) :
    (x.after a).scheduler.Leashed := by
  cases a with
  | start now => exact h.start now
  | stop => exact h.stop
  | take => exact absurd rfl ha
  | turn i now ticksOnce => exact h.carries (Scheduler.carries_poll ticksOnce i now _ _)
  | around change => exact h

theorem halted_after (h : x.scheduler.Halted) {a : Act ω} (ha : ∀ now, a ≠ .start now) :
    (x.after a).scheduler.Halted := by
  cases a with
  | start now => exact absurd rfl (ha now)
  | stop => exact h.stop
  | turn i now ticksOnce => exact h.carries (Scheduler.carries_poll ticksOnce i now _ _)
  | take | around => exact h

/-- Without joins, starts and stops keep at most the held timer going on. -/
theorem leashed_afterAll (h : x.scheduler.Leashed) (hs : x.scheduler.Steady) {acts : List (Act ω)}
    (hacts : .take ∉ acts) :
    (x.afterAll acts).scheduler.Leashed ∧ (x.afterAll acts).scheduler.Steady := by
  induction acts generalizing x with
  | nil => exact ⟨h, hs⟩
  | cons a rest ih =>
    have ha : a ≠ .take := fun hsame => hacts (hsame ▸ List.mem_cons_self)
    exact ih (leashed_after h ha) (steady_after hs a).1 fun hmem =>
      hacts (List.mem_cons_of_mem a hmem)

/-- A cancelled timer is due in its turn, and the choice falls to the tick. -/
def isLate (x : SchedulerRun ω) : Act ω → Bool
  | .turn i now ticksOnce => x.scheduler.isOverdue i now && ticksOnce
  | _ => false

/-- How often this happens in a run. -/
def late : SchedulerRun ω → List (Act ω) → Nat
  | _, [] => 0
  | x, a :: rest => (x.isLate a).toNat + late (x.after a) rest

/-- While all timers are cancelled or have ended, only late ticks begin. -/
theorem begun_of_halted (h : x.scheduler.Halted) (hs : x.scheduler.Steady) {acts : List (Act ω)}
    (hacts : ∀ now, .start now ∉ acts) :
    (x.afterAll acts).scheduler.begun = x.scheduler.begun + x.late acts := by
  induction acts generalizing x with
  | nil => rfl
  | cons a rest ih =>
    have ha (now : Nat) : a ≠ .start now := fun hsame => hacts now (hsame ▸ List.mem_cons_self)
    obtain ⟨hsteady, hbegun⟩ := steady_after hs a
    have hlate : x.begins a = x.isLate a := by
      cases a with
      | turn i now ticksOnce => exact h.begins_eq ticksOnce i now
      | start | stop | take | around => rfl
    have hrest := ih (halted_after h ha) hsteady fun now hmem =>
      hacts now (List.mem_cons_of_mem a hmem)
    rw [afterAll_cons, hrest, hbegun, hlate, late, Nat.add_assoc]

/-- Nothing ticks late if the choice never falls to the tick. -/
theorem late_eq_zero {acts : List (Act ω)} (h : ∀ i now, .turn i now true ∉ acts) :
    x.late acts = 0 := by
  induction acts generalizing x with
  | nil => rfl
  | cons a rest ih =>
    have hnot : x.isLate a = false := by
      cases a with
      | turn i now ticksOnce =>
        cases ticksOnce with
        | true => exact absurd List.mem_cons_self (h i now)
        | false => exact Bool.and_false _
      | start | stop | take | around => rfl
    rw [late, hnot, ih fun i now hmem => h i now (List.mem_cons_of_mem a hmem)]
    rfl

/-- Whatever starts and stops came before, after a stop and until the next start a tick begins in
each turn in which a cancelled timer is due and the choice falls to the tick, and in no other. If it
never falls to the tick, none begins. -/
theorem ticks_begun_after_stop (hfresh : x.scheduler.timers = []) {before later : List (Act ω)}
    (hbefore : .take ∉ before) (hlater : ∀ now, .start now ∉ later) :
    let y := (x.afterAll before).stop
    y.scheduler.isRunning = false ∧
      (y.afterAll later).scheduler.begun = y.scheduler.begun + y.late later ∧
      ((∀ i now, .turn i now true ∉ later) →
        (y.afterAll later).scheduler.begun = y.scheduler.begun) := by
  intro y
  have hnone (i : Nat) : x.scheduler.timers[i]? = none := by rw [hfresh]; rfl
  have hleashed : x.scheduler.Leashed := by
    intro i t hi
    rw [hnone] at hi
    cases hi
  have hsteady : x.scheduler.Steady := by
    intro i nextDue rest hi
    rw [Scheduler.phase?, hnone] at hi
    cases hi
  obtain ⟨hkept, hgoes⟩ := leashed_afterAll hleashed hsteady hbefore
  have hbegun := begun_of_halted (x := y) hkept.halted_stop hgoes.stop.1 hlater
  refine ⟨Scheduler.isRunning_stop _, hbegun, ?_⟩
  intro hnever
  rw [hbegun, late_eq_zero hnever]
  rfl

/-- A scheduler that sweeps twenty times a second, although a sweep takes a tenth. -/
def hurried : SchedulerRun (List CommandMark) where
  scheduler := .build [sweep.noted onlyMarks] (.ofMillis 10) (.ofMillis 50) fun _ s => s
  state := []

/-- The scheduler is stopped during its first sweep, and the timer ticks once more at its end. -/
theorem hurried_begun_after_stop :
    let y := (hurried.afterAll [.start 0, .turn 0 10 false]).stop
    let z := y.afterAll [.turn 0 110 true, .turn 0 110 true, .turn 0 210 false, .turn 0 210 false]
    y.scheduler.isRunning = false ∧ z.scheduler.begun = y.scheduler.begun + 1 ∧
      z.scheduler.unfinished = 0 := by
  have hbefore : (.take : Act (List CommandMark)) ∉ [.start 0, .turn 0 10 false] := by simp
  have hlater (now : Nat) : (.start now : Act (List CommandMark)) ∉
      [.turn 0 110 true, .turn 0 110 true, .turn 0 210 false, .turn 0 210 false] := by simp
  obtain ⟨hstopped, hbegun, -⟩ := ticks_begun_after_stop (x := hurried) rfl hbefore hlater
  exact ⟨hstopped, hbegun.trans (by decide +kernel), by decide +kernel⟩

/-- At 10 ms a sweep begins, at some later time the scheduler is stopped, and at 110 ms, when the
sweep has ended, another one begins. -/
theorem hurried_sweeps_after_stop :
    let y := (hurried.afterAll [.start 0, .turn 0 10 false]).stop
    let z := y.afterAll [.turn 0 110 true, .turn 0 110 true]
    y.scheduler.isRunning = false ∧ y.scheduler.begun = 1 ∧ y.state = [.begun "sweep"] ∧
      z.scheduler.begun = 2 ∧ z.state = [.begun "sweep", .ended "sweep", .begun "sweep"] := by
  decide +kernel

end SchedulerRun

end JobEngine
