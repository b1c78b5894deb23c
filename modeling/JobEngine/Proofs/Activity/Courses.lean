-- SUMMARY: How work goes while others change the state during its waits, with and without a limit.
import JobEngine.Proofs.Activity.Steps

/-!
# Courses of work

`Activity.run` carries work to its end alone. Among others, work is carried on from one wait to the
next, and they change the state while it waits. A wait ends when the state is ready for it or when
its time is up. The list of the waits, how long each took and the state after it, settles how the
work goes: there is one course at most for each list.

Under a limit work goes as it does without one, unless it still has to wait when the limit is up.
-/

namespace JobEngine

/-- Change the result of an ending that has one. -/
def Ending.map {α β : Type} (f : α → β) : Ending α → Ending β
  | .done a => .done (f a)
  | .panic p => .panic p

namespace Activity

variable {ω α β : Type} {R : ω → ω → Prop} {work : Activity ω α} {now later later' budget : Nat}
  {s t t' : ω} {e e' : Ending α} {waits : List (Nat × ω)}

/-! ## Courses -/

/-- A wait can end after `waited` milliseconds in state `s`. -/
def Over (limit : Option Nat) (ready : ω → Bool) (waited : Nat) (s : ω) : Prop :=
  limit = some waited ∨ ready s = true ∧ ∀ ms, limit = some ms → waited ≤ ms

/-- Work that begins at time `now` in state `s` waits as `waits` tells, while others change the
state by `R`, and ends at time `later` in state `t`. -/
inductive Course (R : ω → ω → Prop) :
    Activity ω α → Nat → ω → List (Nat × ω) → Ending α → Nat → ω → Prop where
  | done {a : α} {now : Nat} {s : ω} : Course R (.done a) now s [] (.done a) now s
  | panic {p : PanicPayload} {now : Nat} {s : ω} : Course R (.panic p) now s [] (.panic p) now s
  | step {change : ω → ω} {next : ω → Activity ω α} {now later : Nat} {s t : ω}
    {waits : List (Nat × ω)} {e : Ending α}
    (rest : Course R (next s) now (change s) waits e later t) :
    Course R (.step change next) now s waits e later t
  | wait {limit : Option Nat} {ready : ω → Bool} {next : Nat → Activity ω α}
    {now waited later : Nat} {s u t : ω} {waits : List (Nat × ω)} {e : Ending α} (around : R s u)
    (ends : Over limit ready waited u)
    (rest : Course R (next waited) (now + waited) u waits e later t) :
    Course R (.wait limit ready next) now s ((waited, u) :: waits) e later t

/-- Work that begins in state `s` waits as `waits` tells, and is still at a wait in state `t`, when
`budget` milliseconds have passed. -/
inductive Overruns (R : ω → ω → Prop) :
    Activity ω α → Nat → ω → List (Nat × ω) → ω → Prop where
  | stopped {limit : Option Nat} {ready : ω → Bool} {next : Nat → Activity ω α} {budget : Nat}
    {s t : ω} (around : R s t) (unready : ready t = false)
    (longer : ∀ ms, limit = some ms → budget < ms) :
    Overruns R (.wait limit ready next) budget s [(budget, t)] t
  | step {change : ω → ω} {next : ω → Activity ω α} {budget : Nat} {s t : ω}
    {waits : List (Nat × ω)} (rest : Overruns R (next s) budget (change s) waits t) :
    Overruns R (.step change next) budget s waits t
  | wait {limit : Option Nat} {ready : ω → Bool} {next : Nat → Activity ω α} {waited budget : Nat}
    {s u t : ω} {waits : List (Nat × ω)} (around : R s u) (ends : Over limit ready waited u)
    (within : waited ≤ budget) (rest : Overruns R (next waited) (budget - waited) u waits t) :
    Overruns R (.wait limit ready next) budget s ((waited, u) :: waits) t

/-- A wait that is stopped could not have ended by then. -/
theorem not_over {limit : Option Nat} {ready : ω → Bool} (unready : ready t = false)
    (longer : ∀ ms, limit = some ms → budget < ms) : ¬ Over limit ready budget t := by
  rintro (hlimit | ⟨hready, -⟩)
  · exact absurd (longer _ hlimit) (Nat.lt_irrefl _)
  · exact absurd hready (by simp [unready])

theorem Course.le (h : Course R work now s waits e later t) : now ≤ later := by
  induction h with
  | done => exact Nat.le_refl _
  | panic => exact Nat.le_refl _
  | step rest ih => exact ih
  | wait around ends rest ih => exact Nat.le_trans (Nat.le_add_right _ _) ih

/-- There is one course at most with given waits. -/
theorem Course.unique (h : Course R work now s waits e later t)
    (h' : Course R work now s waits e' later' t') : e = e' ∧ later = later' ∧ t = t' := by
  induction h with
  | done =>
    cases h'
    exact ⟨rfl, rfl, rfl⟩
  | panic =>
    cases h'
    exact ⟨rfl, rfl, rfl⟩
  | step rest ih =>
    cases h' with
    | step rest' => exact ih rest'
  | wait around ends rest ih =>
    cases h' with
    | wait around' ends' rest' => exact ih rest'

theorem Overruns.unique (h : Overruns R work budget s waits t)
    (h' : Overruns R work budget s waits t') : t = t' := by
  induction h with
  | stopped around unready longer =>
    cases h' with
    | stopped => rfl
    | wait around' ends within rest => exact absurd ends (not_over unready longer)
  | step rest ih =>
    cases h' with
    | step rest' => exact ih rest'
  | wait around ends within rest ih =>
    cases h' with
    | stopped around' unready longer => exact absurd ends (not_over unready longer)
    | wait around' ends' within' rest' => exact ih rest'

/-- Work that overran its limit had not ended. -/
theorem Overruns.not_course (h : Overruns R work budget s waits t) :
    ¬ Course R work now s waits e later t' := by
  intro h'
  induction h generalizing now with
  | stopped around unready longer =>
    cases h' with
    | wait around' ends rest => exact not_over unready longer ends
  | step rest ih =>
    cases h' with
    | step rest' => exact ih rest'
  | wait around ends within rest ih =>
    cases h' with
    | wait around' ends' rest' => exact ih rest'

/-! ## Work alone -/

/-- Work alone is work whose surroundings change nothing. -/
theorem Course.of_run (hrefl : ∀ s, R s s) (h : work.run now s = (some (e, later), t)) :
    ∃ waits, Course R work now s waits e later t := by
  induction work generalizing now s with
  | done a =>
    simp only [run, Prod.mk.injEq, Option.some.injEq] at h
    obtain ⟨⟨rfl, rfl⟩, rfl⟩ := h
    exact ⟨[], .done⟩
  | panic p =>
    simp only [run, Prod.mk.injEq, Option.some.injEq] at h
    obtain ⟨⟨rfl, rfl⟩, rfl⟩ := h
    exact ⟨[], .panic⟩
  | step change next ih =>
    obtain ⟨waits, hcourse⟩ := ih s h
    exact ⟨waits, .step hcourse⟩
  | wait limit ready next ih =>
    by_cases hready : ready s
    · rw [run_wait_ready hready] at h
      obtain ⟨waits, hcourse⟩ := ih 0 h
      exact ⟨_, .wait (hrefl s) (.inr ⟨hready, fun _ _ => Nat.zero_le _⟩) hcourse⟩
    · cases limit with
      | none =>
        rw [run_wait_none hready] at h
        cases h
      | some ms =>
        rw [run_wait_some hready] at h
        obtain ⟨waits, hcourse⟩ := ih ms h
        exact ⟨_, .wait (hrefl s) (.inl rfl) hcourse⟩

/-! ## What courses preserve -/

section Preserved

variable {P : ω → ω → Prop} (htrans : ∀ {s t u}, P s t → P t u → P s u)
  (hR : ∀ {s t}, R s t → P s t)
include htrans hR

/-- What the surroundings and every step of the work do, its whole course does. -/
theorem Course.preserves (hrefl : ∀ s, P s s) (h : Course R work now s waits e later t)
    (hwork : work.Always P) : P s t := by
  induction h with
  | done => exact hrefl _
  | panic => exact hrefl _
  | @step change next now later s t waits e rest ih =>
    exact htrans (hwork s).1 (ih (hwork s).2)
  | wait around ends rest ih => exact htrans (hR around) (ih (hwork _))

theorem Overruns.preserves (h : Overruns R work budget s waits t) (hwork : work.Always P) :
    P s t := by
  induction h with
  | stopped around unready longer => exact hR around
  | @step change next budget s t waits rest ih => exact htrans (hwork s).1 (ih (hwork s).2)
  | wait around ends within rest ih => exact htrans (hR around) (ih (hwork _))

end Preserved

/-! ## Work made of other work -/

/-- Work that goes on with the result of other work first does that work, and panics if that does.
-/
theorem course_bind {k : α → Activity ω β} {e : Ending β} :
    Course R (work.bind k) now s waits e later t ↔
      (∃ first rest a mid u, waits = first ++ rest ∧ Course R work now s first (.done a) mid u ∧
        Course R (k a) mid u rest e later t) ∨
      ∃ p, e = .panic p ∧ Course R work now s waits (.panic p) later t := by
  constructor
  · intro h
    induction work generalizing now s waits with
    | done a => exact .inl ⟨[], waits, a, now, s, rfl, .done, h⟩
    | panic p =>
      cases h
      exact .inr ⟨p, rfl, .panic⟩
    | step change next ih =>
      cases h with
      | step rest =>
        rcases ih _ rest with ⟨first, later, a, mid, u, hwaits, hfirst, hrest⟩ | ⟨p, he, hp⟩
        · exact .inl ⟨first, later, a, mid, u, hwaits, .step hfirst, hrest⟩
        · exact .inr ⟨p, he, .step hp⟩
    | wait limit ready next ih =>
      cases h with
      | @wait _ _ _ _ waited _ _ u' _ _ _ around ends rest =>
        rcases ih _ rest with ⟨first, later, a, mid, u, rfl, hfirst, hrest⟩ | ⟨p, he, hp⟩
        · have hcourse := Course.wait around ends hfirst
          exact .inl ⟨(waited, u') :: first, later, a, mid, u, rfl, hcourse, hrest⟩
        · exact .inr ⟨p, he, .wait around ends hp⟩
  · rintro (⟨first, rest, a, mid, u, rfl, hfirst, hrest⟩ | ⟨p, rfl, hp⟩)
    · induction work generalizing now s first with
      | done b =>
        cases hfirst
        exact hrest
      | panic p => cases hfirst
      | step change next ih =>
        cases hfirst with
        | step hfirst => exact .step (ih _ _ hfirst)
      | wait limit ready next ih =>
        cases hfirst with
        | wait around ends hfirst => exact .wait around ends (ih _ _ hfirst)
    · induction work generalizing now s waits with
      | done b => cases hp
      | panic q =>
        cases hp
        exact .panic
      | step change next ih =>
        cases hp with
        | step hp => exact .step (ih _ hp)
      | wait limit ready next ih =>
        cases hp with
        | wait around ends hp => exact .wait around ends (ih _ hp)

/-- Work whose result is changed when it ends. -/
theorem course_map {f : α → β} {e : Ending β} :
    Course R (work.bind fun a => .done (f a)) now s waits e later t ↔
      ∃ e', e = e'.map f ∧ Course R work now s waits e' later t := by
  rw [course_bind]
  constructor
  · rintro (⟨first, rest, a, mid, u, rfl, hfirst, hrest⟩ | ⟨p, rfl, hp⟩)
    · cases hrest
      rw [List.append_nil]
      exact ⟨.done a, rfl, hfirst⟩
    · exact ⟨.panic p, rfl, hp⟩
  · rintro ⟨e', rfl, h⟩
    cases e' with
    | done a => exact .inl ⟨waits, [], a, later, t, (List.append_nil _).symm, h, .done⟩
    | panic p => exact .inr ⟨p, rfl, h⟩

/-- Caught work ends as the work does, and tells how. -/
theorem course_caught {e : Ending (Ending α)} :
    Course R work.caught now s waits e later t ↔
      ∃ e', e = .done e' ∧ Course R work now s waits e' later t := by
  constructor
  · intro h
    induction work generalizing now s waits with
    | done a =>
      cases h
      exact ⟨_, rfl, .done⟩
    | panic p =>
      cases h
      exact ⟨_, rfl, .panic⟩
    | step change next ih =>
      cases h with
      | step rest =>
        obtain ⟨e', he, hcourse⟩ := ih _ rest
        exact ⟨e', he, .step hcourse⟩
    | wait limit ready next ih =>
      cases h with
      | wait around ends rest =>
        obtain ⟨e', he, hcourse⟩ := ih _ rest
        exact ⟨e', he, .wait around ends hcourse⟩
  · rintro ⟨e', rfl, h⟩
    induction h with
    | done => exact .done
    | panic => exact .done
    | step rest ih => exact .step ih
    | wait around ends rest ih => exact .wait around ends ih

/-- Timed work tells how long the work took. -/
theorem course_timed {e : Ending (α × Nat)} {elapsed : Nat} :
    Course R (work.timed elapsed) now s waits e later t ↔
      ∃ e', e = e'.map (·, elapsed + (later - now)) ∧ Course R work now s waits e' later t := by
  constructor
  · intro h
    induction work generalizing now s waits elapsed with
    | done a =>
      cases h
      exact ⟨.done a, by simp [Ending.map], .done⟩
    | panic p =>
      cases h
      exact ⟨.panic p, rfl, .panic⟩
    | step change next ih =>
      cases h with
      | step rest =>
        obtain ⟨e', he, hcourse⟩ := ih _ rest
        exact ⟨e', he, .step hcourse⟩
    | wait limit ready next ih =>
      cases h with
      | @wait _ _ _ _ waited _ _ _ _ _ _ around ends rest =>
        obtain ⟨e', he, hcourse⟩ := ih _ rest
        have hle := hcourse.le
        rw [show elapsed + waited + (later - (now + waited)) = elapsed + (later - now) by omega]
          at he
        exact ⟨e', he, .wait around ends hcourse⟩
  · rintro ⟨e', rfl, h⟩
    induction h generalizing elapsed with
    | done =>
      rw [Nat.sub_self]
      exact .done
    | panic => exact .panic
    | step rest ih => exact .step ih
    | @wait limit ready next now waited later s u t waits e around ends rest ih =>
      have hle := rest.le
      have hrest := @ih (elapsed + waited)
      rw [show elapsed + waited + (later - (now + waited)) = elapsed + (later - now) by omega]
        at hrest
      exact .wait around ends hrest

theorem overruns_caught :
    Overruns R work.caught budget s waits t ↔ Overruns R work budget s waits t := by
  constructor
  · intro h
    induction work generalizing budget s waits with
    | done a => cases h
    | panic p => cases h
    | step change next ih =>
      cases h with
      | step rest => exact .step (ih _ rest)
    | wait limit ready next ih =>
      cases h with
      | stopped around unready longer => exact .stopped around unready longer
      | wait around ends within rest => exact .wait around ends within (ih _ rest)
  · intro h
    induction h with
    | stopped around unready longer => exact .stopped around unready longer
    | step rest ih => exact .step ih
    | wait around ends within rest ih => exact .wait around ends within ih

/-! ## Work under a limit -/

/-- What is left of work under a limit once it has waited. -/
def resumed (budget : Nat) (limit : Option Nat) (ready : ω → Bool) (next : Nat → Activity ω α)
    (waited : Nat) : Activity ω (Option α) :=
  if waited < budget then (next waited).within (budget - waited)
  else if limit.any (· ≤ budget) then (next waited).within (budget - waited)
  else .step id fun s => if ready s then (next waited).within (budget - waited) else .done none

section Resumed

variable {limit : Option Nat} {ready : ω → Bool} {next : Nat → Activity ω α} {waited : Nat}
  {r : Ending (Option α)}

theorem within_wait : (wait limit ready next).within budget =
    .wait (some (cutLimit budget limit)) ready (resumed budget limit ready next) := rfl

/-- A wait that is cut off at the limit ends as it does otherwise, or the work is stopped. -/
theorem over_cutLimit :
    Over (some (cutLimit budget limit)) ready waited s ↔
      waited ≤ budget ∧ Over limit ready waited s ∨
        waited = budget ∧ ready s = false ∧ ∀ ms, limit = some ms → budget < ms := by
  cases limit with
  | none =>
    cases hready : ready s
    all_goals
      simp only [Over, cutLimit, hready, Option.some.injEq, reduceCtorEq]
      grind
  | some ms =>
    cases hready : ready s
    all_goals
      simp only [Over, cutLimit, hready, Option.some.injEq]
      grind

/-- A wait that ended in time is not stopped. -/
theorem course_resumed_of_over (hle : waited ≤ budget) (hover : Over limit ready waited s) :
    Course R (resumed budget limit ready next waited) now s waits r later t ↔
      Course R ((next waited).within (budget - waited)) now s waits r later t := by
  unfold resumed
  split
  · rfl
  · split
    · rfl
    · rename_i hlate hlong
      obtain rfl : waited = budget := by omega
      have hready : ready s := by
        rcases hover with rfl | ⟨hready, -⟩
        · simp at hlong
        · exact hready
      constructor
      · rintro (_ | _ | rest | _)
        simpa only [id, hready, if_true] using rest
      · intro h
        refine .step ?_
        simpa only [id, hready, if_true] using h

/-- A wait that takes longer than the limit is stopped. -/
theorem course_resumed_of_unready (hready : ready s = false)
    (longer : ∀ ms, limit = some ms → budget < ms) :
    Course R (resumed budget limit ready next budget) now s waits r later t ↔
      waits = [] ∧ r = .done none ∧ later = now ∧ t = s := by
  have hany : limit.any (· ≤ budget) = false := by
    cases limit with
    | none => rfl
    | some ms => simpa using longer ms rfl
  simp only [resumed, Nat.lt_irrefl, if_false, hany, Bool.false_eq_true]
  constructor
  · rintro (_ | _ | rest | _)
    simp only [id, hready, Bool.false_eq_true, if_false] at rest
    cases rest
    exact ⟨rfl, rfl, rfl, rfl⟩
  · rintro ⟨rfl, rfl, rfl, rfl⟩
    refine .step ?_
    simp only [id, hready, Bool.false_eq_true, if_false]
    exact .done

end Resumed

/-- Under a limit work ends as it does without one, if it ends in time, and is stopped otherwise. -/
theorem course_within {r : Ending (Option α)} :
    Course R (work.within budget) now s waits r later t ↔
      (∃ e, r = e.map some ∧ later ≤ now + budget ∧ Course R work now s waits e later t) ∨
        r = .done none ∧ later = now + budget ∧ Overruns R work budget s waits t := by
  constructor
  · intro h
    induction work generalizing now s waits budget with
    | done a =>
      cases h
      exact .inl ⟨.done a, rfl, Nat.le_add_right _ _, .done⟩
    | panic p =>
      cases h
      exact .inl ⟨.panic p, rfl, Nat.le_add_right _ _, .panic⟩
    | step change next ih =>
      cases h with
      | step rest =>
        rcases ih _ rest with ⟨e, hr, hle, hcourse⟩ | ⟨hr, hlater, hover⟩
        · exact .inl ⟨e, hr, hle, .step hcourse⟩
        · exact .inr ⟨hr, hlater, .step hover⟩
    | wait limit ready next ih =>
      rw [within_wait] at h
      cases h with
      | wait around ends rest =>
        rcases over_cutLimit.1 ends with ⟨hle, hover⟩ | ⟨rfl, hready, longer⟩
        · rw [course_resumed_of_over hle hover] at rest
          rcases ih _ rest with ⟨e, hr, hlater, hcourse⟩ | ⟨hr, hlater, hoverrun⟩
          · exact .inl ⟨e, hr, by omega, .wait around hover hcourse⟩
          · exact .inr ⟨hr, by omega, .wait around hover hle hoverrun⟩
        · obtain ⟨rfl, rfl, rfl, rfl⟩ := (course_resumed_of_unready hready longer).1 rest
          exact .inr ⟨rfl, rfl, .stopped around hready longer⟩
  · rintro (⟨e, rfl, hle, h⟩ | ⟨rfl, rfl, h⟩)
    · induction h generalizing budget with
      | done => exact .done
      | panic => exact .panic
      | step rest ih => exact .step (ih hle)
      | @wait limit ready next now waited later s u t waits e around ends rest ih =>
        have hwaited := rest.le
        have hrest := @ih (budget - waited) (by omega)
        have hcut := over_cutLimit.2 (.inl ⟨show waited ≤ budget by omega, ends⟩)
        rw [within_wait]
        exact .wait around hcut ((course_resumed_of_over (by omega) ends).2 hrest)
    · induction h generalizing now with
      | stopped around unready longer =>
        rw [within_wait]
        refine .wait around (over_cutLimit.2 (.inr ⟨rfl, unready, longer⟩)) ?_
        exact (course_resumed_of_unready unready longer).2 ⟨rfl, rfl, rfl, rfl⟩
      | step rest ih => exact .step ih
      | @wait limit ready next waited budget s u t waits around ends within rest ih =>
        have hrest := @ih (now + waited)
        rw [Nat.add_assoc, Nat.add_sub_cancel' within] at hrest
        rw [within_wait]
        exact .wait around (over_cutLimit.2 (.inl ⟨within, ends⟩))
          ((course_resumed_of_over within ends).2 hrest)

/-- Work under a limit does not wait for ever. -/
theorem exists_run_within (work : Activity ω α) (budget now : Nat) (s : ω) :
    ∃ r later t, (work.within budget).run now s = (some (r, later), t) := by
  induction work generalizing budget now s with
  | done a => exact ⟨_, _, _, rfl⟩
  | panic p => exact ⟨_, _, _, rfl⟩
  | step change next ih => exact ih s budget now (change s)
  | wait limit ready next ih =>
    have hresumed (waited now : Nat) :
        ∃ r later t, (resumed budget limit ready next waited).run now s = (some (r, later), t) := by
      unfold resumed
      split
      · exact ih waited _ _ _
      · split
        · exact ih waited _ _ _
        · simp only [run, id]
          split
          · exact ih waited _ _ _
          · exact ⟨_, _, _, rfl⟩
    rw [within_wait]
    by_cases hready : ready s
    · rw [run_wait_ready hready]
      exact hresumed 0 now
    · rw [run_wait_some hready]
      exact hresumed _ _

end Activity

end JobEngine
