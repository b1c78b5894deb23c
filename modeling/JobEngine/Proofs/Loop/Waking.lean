-- SUMMARY: A wait ends at its deadline, the first resume or the first interrupt, whichever is first.
import JobEngine.Loop.Group
import Mathlib.Order.Bounds.Defs

/-!
# Waking a waiter

A waiter alone in virtual time: it enters its wait, calls are made on its control one after another,
and after each of them it is carried on. Between the calls time goes by, and the alarm of the wait
rings when it is due. A pause moves nothing but the number of signals that the wait has seen, so the
wait keeps the deadline and the alarm that it was entered with.
-/

namespace JobEngine

open VirtualTime (defaultFuel)

variable {ω : Type}

/-! ## Calls -/

/-- A call on the control of a group. -/
inductive Signal where
  | pause
  | resume
  | interrupt
deriving DecidableEq

/-- The call ends waits. -/
def Signal.isWaking : Signal → Bool
  | .pause => false
  | .resume | .interrupt => true

/-- A call with the milliseconds since the one before it. -/
structure TimedSignal where
  delay : Nat
  signal : Signal

/-- When the calls are made that end waits. -/
def wakings (now : Nat) : List TimedSignal → List Nat
  | [] => []
  | c :: rest =>
    if c.signal.isWaking then (now + c.delay) :: wakings (now + c.delay) rest
    else wakings (now + c.delay) rest

/-- When the last call is made. -/
def lastCall (now : Nat) : List TimedSignal → Nat
  | [] => now
  | c :: rest => lastCall (now + c.delay) rest

section Wakings

variable {now t : Nat} {c : TimedSignal} {calls rest : List TimedSignal}

theorem mem_wakings_cons (h : t ∈ wakings now (c :: rest)) :
    t = now + c.delay ∨ t ∈ wakings (now + c.delay) rest := by
  unfold wakings at h
  split at h
  · exact List.mem_cons.1 h
  · exact .inr h

theorem le_of_mem_wakings (h : t ∈ wakings now calls) : now ≤ t := by
  induction calls generalizing now with
  | nil => cases h
  | cons c rest ih =>
    rcases mem_wakings_cons h with rfl | hrest
    · exact Nat.le_add_right now c.delay
    · exact Nat.le_trans (Nat.le_add_right now c.delay) (ih hrest)

/-- No call is made before the first one. -/
theorem first_le_of_mem_wakings (h : t ∈ wakings now (c :: rest)) : now + c.delay ≤ t := by
  rcases mem_wakings_cons h with rfl | hrest
  · exact Nat.le_refl _
  · exact le_of_mem_wakings hrest

theorem mem_wakings_of_isWaking (h : c.signal.isWaking = true) :
    now + c.delay ∈ wakings now (c :: rest) := by
  rw [wakings, if_pos h]
  exact List.mem_cons_self

theorem le_lastCall (now : Nat) (calls : List TimedSignal) : now ≤ lastCall now calls := by
  induction calls generalizing now with
  | nil => exact Nat.le_refl now
  | cons c rest ih => exact Nat.le_trans (Nat.le_add_right now c.delay) (ih (now + c.delay))

end Wakings

namespace LoopGroup

/-- The group after a call. -/
def signalled (g : LoopGroup ω) : Signal → LoopGroup ω
  | .pause => g.pause
  | .resume => g.resume
  | .interrupt => g.interrupt

/-- A group in virtual time. -/
abbrev Timed (ω : Type) := VirtualTime Nat × LoopGroup ω

/-- Carry the first member on. -/
def Timed.carried (s : Timed ω) : Timed ω := s.1.visit poll defaultFuel 0 s.2

/-- Let time go by. -/
def Timed.later (s : Timed ω) (span : Nat) : Timed ω := s.1.sleep poll span s.2

/-- Time goes by, and a call is made. -/
def Timed.told (s : Timed ω) (c : TimedSignal) : Timed ω :=
  ((s.later c.delay).1, (s.later c.delay).2.signalled c.signal)

/-- Time goes by, a call is made, and the waiter is carried on. -/
def Timed.called (s : Timed ω) (c : TimedSignal) : Timed ω := (s.told c).carried

/-- The waiter enters its wait of `interval` milliseconds at `now`. -/
def Timed.entered (c : LoopControl) (state : ω) (interval now : Nat) : Timed ω :=
  Timed.carried (({ now } : VirtualTime Nat).spawn 0,
    { control := c, members := [.sleeping now interval], state })

end LoopGroup

/-! ## Turns of a waiter -/

namespace VirtualTime

variable {ρ σ : Type} {poll : Poll ρ σ} {fuel now : Nat} {r : ρ} {s t : σ}

theorem turns_of_again (h : poll r now s = (.again, t)) :
    turns poll (fuel + 1) r now s = turns poll fuel r now t := by
  rw [turns, h]

theorem turns_of_blocked {alarm : Option Nat} (h : poll r now s = (.blocked alarm, t)) :
    turns poll (fuel + 1) r now s = (.blocked alarm, t) := by
  unfold turns
  rw [h]

theorem turns_of_ended (h : poll r now s = (.ended, t)) :
    turns poll (fuel + 1) r now s = (.ended, t) := by
  unfold turns
  rw [h]

theorem visit_of_again [DecidableEq ρ] {x : VirtualTime ρ} (h : poll r x.now s = (.again, t)) :
    x.visit poll (fuel + 1) r s = x.visit poll fuel r t := by
  unfold visit
  rw [turns_of_again h]

/-- Fuel enough for some turns, or for some alarms. -/
theorem exists_defaultFuel : ∃ fuel, defaultFuel = fuel + 3 := ⟨999997, rfl⟩

end VirtualTime

/-- What ends a wait: an interrupt, its deadline, or a signal it has not seen that left the loops
running. -/
def Rest.IsOver (r : Rest) (now : Nat) (c : LoopControl) : Prop :=
  c.interrupted = true ∨ r.deadline ≤ now ∨ (r.seen ≠ c.signals ∧ c.paused = false)

theorem Rest.check_of_over {r : Rest} {now : Nat} {c : LoopControl} (h : r.IsOver now c) :
    r.check now c = none := by
  unfold check
  split
  · rfl
  · rename_i hgoes
    rw [Bool.or_eq_true, decide_eq_true_eq, not_or] at hgoes
    rcases h with hstopped | hdue | ⟨hunseen, hrunning⟩
    · exact absurd hstopped hgoes.1
    · exact absurd hdue hgoes.2
    · rw [if_neg hunseen, hrunning]
      rfl

/-- A wait that is not over has seen all signals afterwards. -/
theorem Rest.check_of_not_over {r : Rest} {now : Nat} {c : LoopControl} (h : ¬ r.IsOver now c) :
    r.check now c = some ⟨r.deadline, c.signals⟩ := by
  unfold IsOver at h
  rw [not_or, not_or, not_and, Bool.not_eq_true, Bool.not_eq_false] at h
  obtain ⟨hopen, hearly, hpaused⟩ := h
  unfold check
  rw [hopen, decide_eq_false hearly, Bool.or_false, if_neg Bool.false_ne_true]
  split
  · rename_i hseen
    rw [← hseen]
  · rename_i hunseen
    rw [if_pos (hpaused hunseen)]

namespace LoopGroup

variable {g : LoopGroup ω} {s : Timed ω} {now deadline seen fuel e : Nat} {rest : Rest}

theorem poll_of_over (members : g.members = [.resting rest])
    (isOver : rest.IsOver now g.control) :
    poll 0 now g = (.ended, { g with members := [.ended now] }) := by
  unfold poll
  rw [members]
  simp only [List.getElem?_cons_zero, Rest.check_of_over isOver, move, members]
  rfl

theorem poll_of_seen (members : g.members = [.resting rest]) (goes : ¬ rest.IsOver now g.control)
    (seen : rest.seen = g.control.signals) :
    poll 0 now g = (.blocked (some rest.deadline), g) := by
  have hsame : (⟨rest.deadline, g.control.signals⟩ : Rest) = rest := by rw [← seen]
  unfold poll
  rw [members]
  simp only [List.getElem?_cons_zero, Rest.check_of_not_over goes, hsame, if_true]

theorem poll_of_unseen (members : g.members = [.resting rest])
    (goes : ¬ rest.IsOver now g.control) (unseen : rest.seen ≠ g.control.signals) :
    poll 0 now g =
      (.again, { g with members := [.resting ⟨rest.deadline, g.control.signals⟩] }) := by
  have hother : (⟨rest.deadline, g.control.signals⟩ : Rest) ≠ rest :=
    fun hsame => unseen (congrArg Rest.seen hsame).symm
  unfold poll
  rw [members]
  simp only [List.getElem?_cons_zero, Rest.check_of_not_over goes, if_neg hother, move, members]
  rfl

/-- In its turns a waiter whose wait is over returns. -/
theorem turns_of_over (members : g.members = [.resting rest])
    (isOver : rest.IsOver now g.control) :
    VirtualTime.turns poll (fuel + 1) 0 now g = (.ended, { g with members := [.ended now] }) :=
  VirtualTime.turns_of_ended (poll_of_over members isOver)

/-- In its turns a waiter whose wait is not over sees the signals that it has not seen. -/
theorem turns_of_not_over (members : g.members = [.resting rest])
    (goes : ¬ rest.IsOver now g.control) :
    VirtualTime.turns poll (fuel + 2) 0 now g = (.blocked (some rest.deadline),
      { g with members := [.resting ⟨rest.deadline, g.control.signals⟩] }) := by
  by_cases seen : rest.seen = g.control.signals
  · rw [VirtualTime.turns_of_blocked (poll_of_seen members goes seen), ← seen, ← members]
  · -- The second turn finds nothing new.
    let later : Rest := ⟨rest.deadline, g.control.signals⟩
    have goes' : ¬ later.IsOver now g.control := by
      intro hover
      refine goes (hover.imp_right (Or.imp_right ?_))
      intro h
      exact absurd rfl h.1
    have hagain : poll 0 now { g with members := [.resting later] } =
        (.blocked (some later.deadline), { g with members := [.resting later] }) :=
      poll_of_seen rfl goes' rfl
    rw [VirtualTime.turns_of_again (poll_of_unseen members goes seen)]
    exact VirtualTime.turns_of_blocked hagain

/-! ## Where the waiter stands -/

/-- The waiter goes on waiting, has seen all signals, and has its alarm set. -/
structure Timed.Resting (s : Timed ω) (deadline : Nat) : Prop where
  tasks : s.1.tasks = [0]
  alarms : ∃ order, s.1.alarms = [⟨0, deadline, order⟩]
  members : s.2.members = [.resting ⟨deadline, s.2.control.signals⟩]
  undisturbed : s.2.control.interrupted = false
  early : s.1.now < deadline

/-- The wait was over at `e`. -/
structure Timed.Returned (s : Timed ω) (e : Nat) : Prop where
  tasks : s.1.tasks = []
  alarms : s.1.alarms = []
  members : s.2.members = [.ended e]

theorem Timed.Resting.endedAt? (h : s.Resting deadline) :
    s.2.members.map (·.endedAt?) = [none] := by
  rw [h.members]
  rfl

theorem Timed.Returned.endedAt? (h : s.Returned e) : s.2.members.map (·.endedAt?) = [some e] := by
  rw [h.members]
  rfl

/-! ## Being carried on -/

/-- The waiter is the only task, and no alarm is set or that of its deadline. -/
structure Timed.Alone (s : Timed ω) (deadline : Nat) : Prop where
  tasks : s.1.tasks = [0]
  alarms : s.1.alarms = [] ∨ ∃ order, s.1.alarms = [⟨0, deadline, order⟩]

theorem remove_of_alone (h : s.Alone deadline) :
    (s.1.remove 0).tasks = [] ∧ (s.1.remove 0).alarms = [] := by
  unfold VirtualTime.remove
  rw [h.tasks]
  rcases h.alarms with hnone | ⟨order, halarm⟩
  · rw [hnone]
    exact ⟨rfl, rfl⟩
  · rw [halarm]
    exact ⟨rfl, rfl⟩

theorem setAlarm_of_alone (h : s.Alone deadline) :
    (s.1.setAlarm 0 (some deadline)).tasks = [0] ∧
      (∃ order, (s.1.setAlarm 0 (some deadline)).alarms = [⟨0, deadline, order⟩]) ∧
      (s.1.setAlarm 0 (some deadline)).now = s.1.now := by
  unfold VirtualTime.setAlarm
  rcases h.alarms with hnone | ⟨order, halarm⟩
  · simp [hnone, h.tasks]
  · simp [halarm, h.tasks]

/-- A wait that is over returns when the waiter is carried on. -/
theorem visit_of_over (fuel : Nat) (h : s.Alone deadline) (members : s.2.members = [.resting rest])
    (isOver : rest.IsOver s.1.now s.2.control) :
    Timed.Returned (s.1.visit poll (fuel + 2) 0 s.2) s.1.now ∧
      (s.1.visit poll (fuel + 2) 0 s.2).1.now = s.1.now := by
  obtain ⟨htasks, halarms⟩ := remove_of_alone h
  unfold VirtualTime.visit
  rw [turns_of_over members isOver]
  exact ⟨⟨htasks, halarms, rfl⟩, rfl⟩

/-- A wait that is not over goes on when the waiter is carried on. -/
theorem visit_of_not_over (fuel : Nat) (h : s.Alone deadline)
    (members : s.2.members = [.resting ⟨deadline, seen⟩])
    (goes : ¬ (⟨deadline, seen⟩ : Rest).IsOver s.1.now s.2.control) :
    Timed.Resting (s.1.visit poll (fuel + 2) 0 s.2) deadline ∧
      (s.1.visit poll (fuel + 2) 0 s.2).1.now = s.1.now := by
  obtain ⟨htasks, halarms, hnow⟩ := setAlarm_of_alone h
  unfold VirtualTime.visit
  rw [turns_of_not_over members goes]
  unfold Rest.IsOver at goes
  rw [not_or, not_or, Bool.not_eq_true, Nat.not_le] at goes
  exact ⟨⟨htasks, halarms, rfl, goes.1, hnow.symm ▸ goes.2.1⟩, hnow⟩

/-- A waiter that finds no news is left as it stands. -/
theorem visit_of_resting (fuel : Nat) (h : s.Resting deadline) :
    s.1.visit poll (fuel + 2) 0 s.2 = s := by
  have goes : ¬ (⟨deadline, s.2.control.signals⟩ : Rest).IsOver s.1.now s.2.control := by
    rintro (hstopped | hdue | ⟨hunseen, -⟩)
    · exact Bool.false_ne_true (h.undisturbed.symm.trans hstopped)
    · exact Nat.not_le_of_lt h.early hdue
    · exact hunseen rfl
  obtain ⟨order, halarm⟩ := h.alarms
  unfold VirtualTime.visit
  rw [turns_of_not_over h.members goes, ← h.members]
  unfold VirtualTime.setAlarm
  rw [halarm]
  simp

/-- A waiter that has returned is not carried on. -/
theorem visit_of_returned (fuel : Nat) (h : s.Returned e) :
    Timed.Returned (s.1.visit poll (fuel + 2) 0 s.2) e ∧
      (s.1.visit poll (fuel + 2) 0 s.2).1.now = s.1.now := by
  have hpoll : poll 0 s.1.now s.2 = (.ended, s.2) := by
    unfold poll
    rw [h.members]
    rfl
  unfold VirtualTime.visit
  rw [VirtualTime.turns_of_ended hpoll]
  unfold VirtualTime.remove
  rw [h.tasks, h.alarms]
  exact ⟨⟨rfl, rfl, h.members⟩, rfl⟩

end LoopGroup

/-! ## Time going by -/

namespace VirtualTime

variable {ρ σ : Type} [DecidableEq ρ] {poll : Poll ρ σ} {x : VirtualTime ρ} {r : ρ} {s : σ}
  {fuel limit span time t order : Nat}

theorem sleep_zero : x.sleep poll 0 s = (x, s) := by
  unfold sleep wait
  rw [if_pos]
  simp [Goal.deadline]

theorem sleep_of_pos (h : 0 < span) :
    x.sleep poll span s =
      let r := round poll defaultFuel none x.tasks x s
      proceed poll defaultFuel (.time (x.now + span)) defaultFuel r.1 r.2 := by
  have hgoes : ¬ ((Goal.time (x.now + span) : Goal ρ σ).isReached x s ||
      (Goal.time (x.now + span) : Goal ρ σ).deadline.any (· ≤ x.now)) = true := by
    simp [Goal.isReached, Goal.deadline]
    omega
  unfold sleep wait
  rw [if_neg hgoes]
  rfl

theorem round_single : round poll fuel none [r] x s = x.visit poll fuel r s := rfl

/-- Without alarms nothing happens until the time has come. -/
theorem proceed_of_no_alarm (alarms : x.alarms = []) :
    proceed poll limit (.time time) (fuel + 1) x s = ({ x with now := time }, s) := by
  unfold proceed nextTime?
  rw [alarms]
  rfl

/-- An alarm that is not due before the time does not ring. -/
theorem proceed_of_late_alarm (alarms : x.alarms = [⟨r, t, order⟩]) (late : time ≤ t) :
    proceed poll limit (.time time) (fuel + 1) x s = ({ x with now := time }, s) := by
  unfold proceed nextTime?
  rw [alarms]
  simp [Goal.isReached, Goal.deadline, late]

/-- An alarm that is due before the time rings. -/
theorem proceed_of_alarm (alarms : x.alarms = [⟨r, t, order⟩]) (early : t < time) :
    proceed poll limit (.time time) (fuel + 1) x s =
      proceed poll limit (.time time) fuel
        (({ x with now := t } : VirtualTime ρ).visit poll limit r s).1
        (({ x with now := t } : VirtualTime ρ).visit poll limit r s).2 := by
  have hnext : x.nextTime? = some t := by
    unfold nextTime?
    rw [alarms]
    rfl
  have hdue : ({ x with now := t } : VirtualTime ρ).due = [r] := by
    unfold due
    rw [alarms]
    simp
  have hlate : ¬ (Option.any (· ≤ t) (some time)) = true := by
    simpa using early
  rw [proceed, hnext]
  simp only [Goal.isReached, Goal.deadline, Goal.awaited, inFront, Bool.false_eq_true, if_false,
    if_neg hlate, hdue, round_single]

end VirtualTime

namespace LoopGroup

variable {s : Timed ω} {deadline e span : Nat} {c : TimedSignal}

theorem Timed.Returned.later (h : s.Returned e) (span : Nat) :
    (s.later span).Returned e ∧ (s.later span).1.now = s.1.now + span := by
  obtain ⟨fuel, hfuel⟩ := VirtualTime.exists_defaultFuel
  unfold Timed.later
  rcases Nat.eq_zero_or_pos span with rfl | hspan
  · rw [VirtualTime.sleep_zero]
    exact ⟨h, rfl⟩
  · have hround : VirtualTime.round poll (fuel + 3) none [] s.1 s.2 = s := rfl
    rw [VirtualTime.sleep_of_pos hspan, h.tasks, hfuel, hround,
      VirtualTime.proceed_of_no_alarm h.alarms]
    exact ⟨⟨h.tasks, h.alarms, h.members⟩, rfl⟩

/-- Up to the deadline of a wait only the clock moves. -/
theorem Timed.Resting.later_of_le (h : s.Resting deadline) (hle : s.1.now + span ≤ deadline) :
    s.later span = ({ s.1 with now := s.1.now + span }, s.2) := by
  obtain ⟨fuel, hfuel⟩ := VirtualTime.exists_defaultFuel
  obtain ⟨order, halarm⟩ := h.alarms
  unfold Timed.later
  rcases Nat.eq_zero_or_pos span with rfl | hspan
  · exact VirtualTime.sleep_zero
  · rw [VirtualTime.sleep_of_pos hspan, h.tasks, hfuel, VirtualTime.round_single,
      visit_of_resting _ h]
    exact VirtualTime.proceed_of_late_alarm halarm hle

/-- When time goes on past its deadline, the wait returns at its deadline. -/
theorem Timed.Resting.later_of_lt (h : s.Resting deadline) (hlt : deadline < s.1.now + span) :
    (s.later span).Returned deadline ∧ (s.later span).1.now = s.1.now + span := by
  obtain ⟨fuel, hfuel⟩ := VirtualTime.exists_defaultFuel
  obtain ⟨order, halarm⟩ := h.alarms
  have hspan : 0 < span := by
    have hearly := h.early
    omega
  let rung : Timed ω := ({ s.1 with now := deadline }, s.2)
  have halone : rung.Alone deadline := ⟨h.tasks, .inr h.alarms⟩
  have hover : (⟨deadline, s.2.control.signals⟩ : Rest).IsOver rung.1.now rung.2.control :=
    .inr (.inl (Nat.le_refl deadline))
  obtain ⟨hreturned, -⟩ := visit_of_over (fuel + 1) halone h.members hover
  unfold Timed.later
  rw [VirtualTime.sleep_of_pos hspan, h.tasks, hfuel, VirtualTime.round_single,
    visit_of_resting _ h, VirtualTime.proceed_of_alarm halarm hlt,
    VirtualTime.proceed_of_no_alarm hreturned.alarms]
  exact ⟨⟨hreturned.tasks, hreturned.alarms, hreturned.members⟩, rfl⟩

/-! ## A call -/

theorem members_signalled (g : LoopGroup ω) (signal : Signal) :
    (g.signalled signal).members = g.members := by
  cases signal <;> rfl

/-- Of the calls a pause alone does not end a wait. -/
theorem Timed.Resting.isOver_iff (h : s.Resting deadline) (now : Nat) (signal : Signal) :
    (⟨deadline, s.2.control.signals⟩ : Rest).IsOver now (s.2.signalled signal).control ↔
      signal.isWaking = true ∨ deadline ≤ now := by
  unfold Rest.IsOver signalled
  cases signal with
  | pause => simp [pause, LoopControl.pause, Signal.isWaking, h.undisturbed]
  | resume => simp [resume, LoopControl.resume, Signal.isWaking, h.undisturbed]
  | interrupt => simp [interrupt, LoopControl.interrupt, Signal.isWaking]

/-- A wait that has returned when a call is made stays as it is. -/
theorem called_of_returned (hlater : (s.later c.delay).Returned e)
    (hnow : (s.later c.delay).1.now = s.1.now + c.delay) :
    (s.called c).Returned e ∧ (s.called c).1.now = s.1.now + c.delay := by
  obtain ⟨fuel, hfuel⟩ := VirtualTime.exists_defaultFuel
  have htold : (s.told c).Returned e :=
    ⟨hlater.tasks, hlater.alarms, (members_signalled _ c.signal).trans hlater.members⟩
  unfold Timed.called Timed.carried
  rw [hfuel, ← hnow]
  exact visit_of_returned _ htold

theorem Timed.Returned.called (h : s.Returned e) (c : TimedSignal) :
    (s.called c).Returned e ∧ (s.called c).1.now = s.1.now + c.delay := by
  obtain ⟨hlater, hnow⟩ := h.later c.delay
  exact called_of_returned hlater hnow

/-- A call that comes after the deadline finds that the wait has returned. -/
theorem Timed.Resting.called_late (h : s.Resting deadline) (hlate : deadline < s.1.now + c.delay) :
    (s.called c).Returned deadline ∧ (s.called c).1.now = s.1.now + c.delay := by
  obtain ⟨hlater, hnow⟩ := h.later_of_lt hlate
  exact called_of_returned hlater hnow

section InTime

/-! A call that does not come after the deadline finds the waiter waiting. -/

variable (h : s.Resting deadline) (inTime : s.1.now + c.delay ≤ deadline)

include h inTime

theorem Timed.Resting.told : (s.told c).Alone deadline ∧ (s.told c).1.now = s.1.now + c.delay ∧
    (s.told c).2 = s.2.signalled c.signal ∧
    (s.told c).2.members = [.resting ⟨deadline, s.2.control.signals⟩] := by
  unfold Timed.told
  rw [h.later_of_le inTime]
  exact ⟨⟨h.tasks, .inr h.alarms⟩, rfl, rfl, (members_signalled _ _).trans h.members⟩

/-- If it is a resume or an interrupt, or comes at the deadline, the wait returns there and then. -/
theorem Timed.Resting.returned_called
    (hends : c.signal.isWaking = true ∨ deadline ≤ s.1.now + c.delay) :
    (s.called c).Returned (s.1.now + c.delay) ∧ (s.called c).1.now = s.1.now + c.delay := by
  obtain ⟨fuel, hfuel⟩ := VirtualTime.exists_defaultFuel
  obtain ⟨halone, hnow, hgroup, hmembers⟩ := h.told inTime
  have hover : (⟨deadline, s.2.control.signals⟩ : Rest).IsOver (s.told c).1.now
      (s.told c).2.control := by
    rw [hnow, hgroup]
    exact (h.isOver_iff _ _).2 hends
  unfold Timed.called Timed.carried
  rw [hfuel, ← hnow]
  exact visit_of_over (fuel + 1) halone hmembers hover

/-- If it is a pause and comes before the deadline, the wait goes on. -/
theorem Timed.Resting.resting_called
    (hgoes : ¬ (c.signal.isWaking = true ∨ deadline ≤ s.1.now + c.delay)) :
    (s.called c).Resting deadline ∧ (s.called c).1.now = s.1.now + c.delay := by
  obtain ⟨fuel, hfuel⟩ := VirtualTime.exists_defaultFuel
  obtain ⟨halone, hnow, hgroup, hmembers⟩ := h.told inTime
  have hover : ¬ (⟨deadline, s.2.control.signals⟩ : Rest).IsOver (s.told c).1.now
      (s.told c).2.control := by
    rw [hnow, hgroup]
    exact mt (h.isOver_iff _ _).1 hgoes
  unfold Timed.called Timed.carried
  rw [hfuel, ← hnow]
  exact visit_of_not_over (fuel + 1) halone hmembers hover

end InTime

/-! ## All calls -/

/-- The waiter's scene after calls, one after another. -/
def Timed.calledAll (s : Timed ω) (calls : List TimedSignal) : Timed ω := calls.foldl Timed.called s

theorem Timed.Returned.calledAll (h : s.Returned e) (calls : List TimedSignal) :
    (s.calledAll calls).Returned e ∧ (s.calledAll calls).1.now = lastCall s.1.now calls := by
  induction calls generalizing s with
  | nil => exact ⟨h, rfl⟩
  | cons c rest ih =>
    obtain ⟨hcalled, hnow⟩ := h.called c
    rw [lastCall, ← hnow]
    exact ih hcalled

/-- After calls the wait has returned at the earliest of its deadline and the calls that end waits,
or this is the deadline and lies ahead. -/
theorem Timed.Resting.calledAll (h : s.Resting deadline) (calls : List TimedSignal) :
    ∃ e, IsLeast {t | t = deadline ∨ t ∈ wakings s.1.now calls} e ∧
      (s.calledAll calls).1.now = lastCall s.1.now calls ∧
      (((s.calledAll calls).Returned e ∧ e ≤ lastCall s.1.now calls) ∨
        ((s.calledAll calls).Resting e ∧ lastCall s.1.now calls < e)) := by
  induction calls generalizing s with
  | nil =>
    refine ⟨deadline, ⟨.inl rfl, ?_⟩, rfl, .inr ⟨h, h.early⟩⟩
    rintro t (rfl | hmem)
    · exact Nat.le_refl t
    · cases hmem
  | cons c rest ih =>
    rw [lastCall]
    by_cases hlate : deadline < s.1.now + c.delay
    · -- The wait returned at its deadline before any of the calls.
      obtain ⟨hcalled, hnow⟩ := h.called_late hlate
      obtain ⟨hall, hlast⟩ := hcalled.calledAll rest
      rw [hnow] at hlast
      refine ⟨deadline, ⟨.inl rfl, ?_⟩, hlast, .inl ⟨hall, ?_⟩⟩
      · rintro t (rfl | hmem)
        · exact Nat.le_refl t
        · exact Nat.le_trans (Nat.le_of_lt hlate) (first_le_of_mem_wakings hmem)
      · exact Nat.le_trans (Nat.le_of_lt hlate) (le_lastCall _ rest)
    · have inTime := Nat.le_of_not_lt hlate
      by_cases hends : c.signal.isWaking = true ∨ deadline ≤ s.1.now + c.delay
      · obtain ⟨hcalled, hnow⟩ := h.returned_called inTime hends
        obtain ⟨hall, hlast⟩ := hcalled.calledAll rest
        rw [hnow] at hlast
        refine ⟨s.1.now + c.delay, ⟨?_, ?_⟩, hlast, .inl ⟨hall, le_lastCall _ rest⟩⟩
        · rcases hends with hwaking | hdue
          · exact .inr (mem_wakings_of_isWaking hwaking)
          · exact .inl (Nat.le_antisymm inTime hdue)
        · rintro t (rfl | hmem)
          · exact inTime
          · exact first_le_of_mem_wakings hmem
      · -- A pause: the same wait, only later.
        obtain ⟨hcalled, hnow⟩ := h.resting_called inTime hends
        have hsleeps : wakings s.1.now (c :: rest) = wakings (s.called c).1.now rest := by
          rw [hnow, wakings, if_neg (not_or.1 hends).1]
        rw [hsleeps, ← hnow]
        exact ih hcalled

/-! ## Entering a wait -/

/-- A wait that is entered returns at once if the control is interrupted or there is no time to
wait, and goes on to its deadline otherwise. -/
theorem entered_cases (c : LoopControl) (state : ω) (interval now : Nat) :
    (Timed.entered c state interval now).1.now = now ∧
      (((c.interrupted = true ∨ interval = 0) ∧ (Timed.entered c state interval now).Returned now) ∨
        (c.interrupted = false ∧
          (Timed.entered c state interval now).Resting (now + interval))) := by
  obtain ⟨fuel, hfuel⟩ := VirtualTime.exists_defaultFuel
  let entering : LoopGroup ω := { control := c, members := [.sleeping now interval], state }
  let inside : Timed ω := (({ now } : VirtualTime Nat).spawn 0, { entering with
    control := { c with waits := c.waits + 1 }
    members := [.resting ⟨now + interval, c.signals⟩] })
  have hpoll : poll 0 now entering = (.again, inside.2) := by
    unfold poll
    simp only [entering, List.getElem?_cons_zero, Nat.le_refl, if_true]
    rfl
  have hinside :
      Timed.entered c state interval now = inside.1.visit poll (fuel + 2) 0 inside.2 := by
    unfold Timed.entered Timed.carried
    rw [hfuel]
    exact VirtualTime.visit_of_again hpoll
  have halone : inside.Alone (now + interval) := ⟨rfl, .inl rfl⟩
  rw [hinside]
  by_cases hover : (⟨now + interval, c.signals⟩ : Rest).IsOver now inside.2.control
  · obtain ⟨hreturned, hnow⟩ := visit_of_over fuel halone rfl hover
    refine ⟨hnow, .inl ⟨?_, hreturned⟩⟩
    rcases hover with hstopped | hdue | ⟨hunseen, -⟩
    · exact .inl hstopped
    · have hdue' : now + interval ≤ now := hdue
      exact .inr (by omega)
    · exact absurd rfl hunseen
  · obtain ⟨hresting, hnow⟩ := visit_of_not_over fuel halone rfl hover
    exact ⟨hnow, .inr ⟨Bool.eq_false_iff.2 fun hstopped => hover (.inl hstopped), hresting⟩⟩

/-- A wait of `interval` milliseconds that is entered at `now` returns at the earliest of its
deadline and the resumes and interrupts that come after, or at once if the control is interrupted
already. It does so whether or not the control is paused, and wherever pauses come in between. -/
theorem wait_returns_at_earliest (c : LoopControl) (state : ω) (interval now : Nat)
    (calls : List TimedSignal) :
    ∃ e, IsLeast {t | t = now + interval ∨ t ∈ wakings now calls ∨
        (c.interrupted = true ∧ t = now)} e ∧
      ∀ span, let s := ((Timed.entered c state interval now).calledAll calls).later span
        s.1.now = lastCall now calls + span ∧
        s.2.members.map (·.endedAt?) =
          [if e ≤ lastCall now calls ∨ e < s.1.now then some e else none] := by
  obtain ⟨hnow, ⟨hover, hreturned⟩ | ⟨hopen, hresting⟩⟩ := entered_cases c state interval now
  · obtain ⟨hall, hlast⟩ := hreturned.calledAll calls
    rw [hnow] at hlast
    refine ⟨now, ⟨?_, ?_⟩, fun span => ?_⟩
    · rcases hover with hstopped | hnone
      · exact .inr (.inr ⟨hstopped, rfl⟩)
      · exact .inl (by rw [hnone]; rfl)
    · rintro t (rfl | hmem | ⟨-, rfl⟩)
      · exact Nat.le_add_right now interval
      · exact le_of_mem_wakings hmem
      · exact Nat.le_refl t
    · obtain ⟨hlater, htime⟩ := hall.later span
      rw [hlast] at htime
      refine ⟨htime, ?_⟩
      rw [if_pos (.inl (le_lastCall now calls))]
      exact hlater.endedAt?
  · obtain ⟨e, hleast, hlast, hcases⟩ := hresting.calledAll calls
    rw [hnow] at hleast hlast hcases
    refine ⟨e, ?_, fun span => ?_⟩
    · simpa [hopen] using hleast
    · rcases hcases with ⟨hall, hle⟩ | ⟨hall, hlt⟩
      · obtain ⟨hlater, htime⟩ := hall.later span
        rw [hlast] at htime
        refine ⟨htime, ?_⟩
        rw [if_pos (.inl hle)]
        exact hlater.endedAt?
      · -- Only the deadline is ahead: it is reached in the time that goes by, or not.
        rcases Nat.lt_or_ge e (lastCall now calls + span) with hreached | hahead
        · rw [← hlast] at hreached
          obtain ⟨hlater, htime⟩ := hall.later_of_lt hreached
          refine ⟨hlast ▸ htime, ?_⟩
          rw [if_pos (.inr (htime.symm ▸ hreached))]
          exact hlater.endedAt?
        · have hsame := hall.later_of_le (hlast.symm ▸ hahead)
          have htime : (((Timed.entered c state interval now).calledAll calls).later span).1.now =
              lastCall now calls + span := by rw [hsame, hlast]
          have hgoes : ¬ (e ≤ lastCall now calls ∨ e < lastCall now calls + span) := by
            rintro (hle | hless)
            · exact Nat.not_le_of_lt hlt hle
            · exact Nat.not_lt_of_le hahead hless
          refine ⟨htime, ?_⟩
          rw [htime, if_neg hgoes, hsame]
          exact hall.endedAt?

end LoopGroup

end JobEngine
