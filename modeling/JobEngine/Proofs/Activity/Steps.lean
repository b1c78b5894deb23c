-- SUMMARY: The steps that activities make, alone and with surroundings that change.
import JobEngine.Activity

/-!
# Steps of activities

Work changes the state step by step, and between its steps others may change the state. `Interrupted`
is work with surroundings that may change before each of its steps. It keeps a log of the steps that
were made. What every step of the work does from every state, `Activity.Always`, is what each step of
the log did, whoever came in between.
-/

namespace JobEngine

namespace Activity

variable {ω α β : Type} {P : ω → ω → Prop} {R : ω → ω → Prop}

/-! ## What every step does -/

/-- Every step does `P`, from whichever state it is made. -/
def Always (P : ω → ω → Prop) : Activity ω α → Prop
  | .done _ => True
  | .panic _ => True
  | .step change next => ∀ s, P s (change s) ∧ (next s).Always P
  | .wait _ _ next => ∀ waited, (next waited).Always P

theorem Always.mono {Q : ω → ω → Prop} {work : Activity ω α} (h : work.Always P)
    (hPQ : ∀ {s t}, P s t → Q s t) : work.Always Q := by
  induction work with
  | done a => trivial
  | panic p => trivial
  | step change next ih => exact fun s => ⟨hPQ (h s).1, ih s (h s).2⟩
  | wait limit ready next ih => exact fun waited => ih waited (h waited)

theorem Always.bind {work : Activity ω α} {k : α → Activity ω β} (h : work.Always P)
    (hk : ∀ a, (k a).Always P) : (work.bind k).Always P := by
  induction work with
  | done a => exact hk a
  | panic p => trivial
  | step change next ih => exact fun s => ⟨(h s).1, ih s (h s).2⟩
  | wait limit ready next ih => exact fun waited => ih waited (h waited)

theorem Always.caught {work : Activity ω α} (h : work.Always P) : work.caught.Always P := by
  induction work with
  | done a => trivial
  | panic p => trivial
  | step change next ih => exact fun s => ⟨(h s).1, ih s (h s).2⟩
  | wait limit ready next ih => exact fun waited => ih waited (h waited)

theorem Always.timed {work : Activity ω α} (h : work.Always P) (elapsed : Nat) :
    (work.timed elapsed).Always P := by
  induction work generalizing elapsed with
  | done a => trivial
  | panic p => trivial
  | step change next ih => exact fun s => ⟨(h s).1, ih s (h s).2 elapsed⟩
  | wait limit ready next ih => exact fun waited => ih waited (h waited) _

/-- Work that may be stopped makes no further steps but one that changes nothing. -/
theorem Always.within {work : Activity ω α} (h : work.Always P) (hrefl : ∀ s, P s s)
    (budget : Nat) : (work.within budget).Always P := by
  induction work generalizing budget with
  | done a => trivial
  | panic p => trivial
  | step change next ih => exact fun s => ⟨(h s).1, ih s (h s).2 budget⟩
  | wait limit ready next ih =>
    intro waited
    have hnext := ih waited (h waited) (budget - waited)
    simp only
    split
    · exact hnext
    · split
      · exact hnext
      · intro s
        refine ⟨hrefl s, ?_⟩
        simp only
        split
        · exact hnext
        · trivial

/-! ## Alone -/

/-- Two pieces of work come to the same when nobody else changes the state. -/
def SameAlone (work work' : Activity ω α) : Prop := ∀ now s, work.run now s = work'.run now s

section Wait

variable {limit : Option Nat} {ready : ω → Bool} {next : Nat → Activity ω α} {now ms : Nat} {s : ω}

theorem run_wait_ready (h : ready s) :
    (wait limit ready next).run now s = (next 0).run now s := by
  cases limit <;> exact if_pos h

theorem run_wait_none (h : ¬ ready s) : (wait none ready next).run now s = (none, s) := if_neg h

theorem run_wait_some (h : ¬ ready s) :
    (wait (some ms) ready next).run now s = (next ms).run (now + ms) s :=
  if_neg h

end Wait

theorem run_bind (work : Activity ω α) (k : α → Activity ω β) (now : Nat) (s : ω) :
    (work.bind k).run now s =
      match work.run now s with
      | (some (.done a, later), t) => (k a).run later t
      | (some (.panic p, later), t) => (some (.panic p, later), t)
      | (none, t) => (none, t) := by
  induction work generalizing now s with
  | done a => rfl
  | panic p => rfl
  | step change next ih => exact ih s now (change s)
  | wait limit ready next ih =>
    by_cases hready : ready s
    · simp only [bind, run_wait_ready hready]
      exact ih 0 now s
    · cases limit with
      | none => simp only [bind, run_wait_none hready]
      | some ms =>
        simp only [bind, run_wait_some hready]
        exact ih ms (now + ms) s

theorem run_caught (work : Activity ω α) (now : Nat) (s : ω) :
    work.caught.run now s =
      match work.run now s with
      | (some (e, later), t) => (some (.done e, later), t)
      | (none, t) => (none, t) := by
  induction work generalizing now s with
  | done a => rfl
  | panic p => rfl
  | step change next ih => exact ih s now (change s)
  | wait limit ready next ih =>
    by_cases hready : ready s
    · simp only [caught, run_wait_ready hready]
      exact ih 0 now s
    · cases limit with
      | none => simp only [caught, run_wait_none hready]
      | some ms =>
        simp only [caught, run_wait_some hready]
        exact ih ms (now + ms) s

/-- Work does not end before it begins. -/
theorem le_of_run {work : Activity ω α} {e : Ending α} {now later : Nat} {s t : ω}
    (h : work.run now s = (some (e, later), t)) : now ≤ later := by
  induction work generalizing now s with
  | done a =>
    simp only [run, Prod.mk.injEq, Option.some.injEq] at h
    omega
  | panic p =>
    simp only [run, Prod.mk.injEq, Option.some.injEq] at h
    omega
  | step change next ih => exact ih s h
  | wait limit ready next ih =>
    by_cases hready : ready s
    · rw [run_wait_ready hready] at h
      exact ih 0 h
    · cases limit with
      | none =>
        rw [run_wait_none hready] at h
        cases h
      | some ms =>
        rw [run_wait_some hready] at h
        exact Nat.le_trans (Nat.le_add_right now ms) (ih ms h)

theorem run_timed (work : Activity ω α) (elapsed now : Nat) (s : ω) :
    (work.timed elapsed).run now s =
      match work.run now s with
      | (some (.done a, later), t) => (some (.done (a, elapsed + (later - now)), later), t)
      | (some (.panic p, later), t) => (some (.panic p, later), t)
      | (none, t) => (none, t) := by
  induction work generalizing elapsed now s with
  | done a => simp [timed, run]
  | panic p => rfl
  | step change next ih => exact ih s elapsed now (change s)
  | wait limit ready next ih =>
    by_cases hready : ready s
    · simp only [timed, run_wait_ready hready]
      exact ih 0 (elapsed + 0) now s
    · cases limit with
      | none => simp only [timed, run_wait_none hready]
      | some ms =>
        simp only [timed, run_wait_some hready]
        rw [ih ms]
        split
        · rename_i a later t hrun
          have hle := le_of_run hrun
          simp only [Prod.mk.injEq, Option.some.injEq, Ending.done.injEq, and_true, true_and]
          omega
        · rfl
        · rfl

section Same

variable {work work' : Activity ω α} {k k' : α → Activity ω β}

theorem SameAlone.refl (work : Activity ω α) : work.SameAlone work := fun _ _ => rfl

theorem SameAlone.bind (h : work.SameAlone work') (hk : ∀ a, (k a).SameAlone (k' a)) :
    (work.bind k).SameAlone (work'.bind k') := by
  intro now s
  rw [run_bind, run_bind, h now s]
  split
  · exact hk _ _ _
  · rfl
  · rfl

theorem SameAlone.caught (h : work.SameAlone work') : work.caught.SameAlone work'.caught := by
  intro now s
  rw [run_caught, run_caught, h now s]

theorem SameAlone.timed (h : work.SameAlone work') (elapsed : Nat) :
    (work.timed elapsed).SameAlone (work'.timed elapsed) := by
  intro now s
  rw [run_timed, run_timed, h now s]

end Same

/-! ## With surroundings that change -/

/-- The work is carried from `s` to its result and `t`. Before each step and at the end the
surroundings may change the state by `R`, and they decide how long each wait takes. The log has the
states before and after each step. -/
inductive Interrupted (R : ω → ω → Prop) :
    Activity ω α → ω → List (ω × ω) → α → ω → Prop where
  | done {a : α} {s t : ω} (around : R s t) : Interrupted R (.done a) s [] a t
  | step {change : ω → ω} {next : ω → Activity ω α} {s u t : ω} {log : List (ω × ω)} {a : α}
    (around : R s u) (later : Interrupted R (next u) (change u) log a t) :
    Interrupted R (.step change next) s ((u, change u) :: log) a t
  | wait {limit : Option Nat} {ready : ω → Bool} {next : Nat → Activity ω α} {waited : Nat}
    {s t : ω} {log : List (ω × ω)} {a : α} (later : Interrupted R (next waited) s log a t) :
    Interrupted R (.wait limit ready next) s log a t

/-- The state gets from `s` to `t` by the steps of the log, with changes by `R` between them. -/
def Linked (R : ω → ω → Prop) : ω → List (ω × ω) → ω → Prop
  | s, [], t => R s t
  | s, (u, v) :: log, t => R s u ∧ Linked R v log t

variable {work : Activity ω α} {s t : ω} {log : List (ω × ω)} {a : α}

theorem Interrupted.linked (h : Interrupted R work s log a t) : Linked R s log t := by
  induction h with
  | done around => exact around
  | step around later ih => exact ⟨around, ih⟩
  | wait later ih => exact ih

theorem Interrupted.always (h : Interrupted R work s log a t) (hP : work.Always P) :
    ∀ x ∈ log, P x.1 x.2 := by
  induction h with
  | done around => simp
  | @step change next s u t log a around later ih =>
    exact List.forall_mem_cons.2 ⟨(hP u).1, ih (hP u).2⟩
  | @wait limit ready next waited s t log a later ih => exact ih (hP waited)

/-- Work that goes on with the result of other work first does that work. -/
theorem Interrupted.of_bind {k : α → Activity ω β} {b : β} (hrefl : ∀ s, R s s)
    (h : Interrupted R (work.bind k) s log b t) :
    ∃ u a first rest, log = first ++ rest ∧ Interrupted R work s first a u ∧
      Interrupted R (k a) u rest b t := by
  induction work generalizing s log with
  | done a => exact ⟨s, a, [], log, rfl, .done (hrefl s), h⟩
  | panic p => cases h
  | step change next ih =>
    cases h with
    | step around later =>
      obtain ⟨u, a, first, rest, rfl, hfirst, hrest⟩ := ih _ later
      exact ⟨u, a, _, rest, rfl, .step around hfirst, hrest⟩
  | wait limit ready next ih =>
    cases h with
    | wait later =>
      obtain ⟨u, a, first, rest, rfl, hfirst, hrest⟩ := ih _ later
      exact ⟨u, a, first, rest, rfl, .wait hfirst, hrest⟩

/-- Work alone is work whose surroundings change nothing. -/
theorem interrupted_of_run {now later : Nat} (hrefl : ∀ s, R s s)
    (h : work.run now s = (some (.done a, later), t)) : ∃ log, Interrupted R work s log a t := by
  induction work generalizing now s with
  | done b =>
    simp only [run, Prod.mk.injEq, Option.some.injEq, Ending.done.injEq] at h
    obtain ⟨⟨rfl, -⟩, rfl⟩ := h
    exact ⟨[], .done (hrefl s)⟩
  | panic p => simp [run] at h
  | step change next ih =>
    obtain ⟨log, hlog⟩ := ih s h
    exact ⟨_, .step (hrefl s) hlog⟩
  | wait limit ready next ih =>
    by_cases hready : ready s
    · rw [run_wait_ready hready] at h
      obtain ⟨log, hlog⟩ := ih 0 h
      exact ⟨log, .wait hlog⟩
    · cases limit with
      | none =>
        rw [run_wait_none hready] at h
        cases h
      | some ms =>
        rw [run_wait_some hready] at h
        obtain ⟨log, hlog⟩ := ih ms h
        exact ⟨log, .wait hlog⟩

end Activity

end JobEngine
