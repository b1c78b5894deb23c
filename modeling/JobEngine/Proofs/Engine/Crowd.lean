-- SUMMARY: Routines side by side, with storage calls that take their time.
import JobEngine.Proofs.Engine.Routines

/-!
# Work side by side

Workers and ticks run side by side, and a storage call takes its time: once the breaker has let it
through it is made, some time later the storage answers it, and some time after that its outcome is
recorded. In between the clock runs, and others make calls of their own. A `Crowd` is a number of
routines that move on in any order, a storage call in three moves. A routine with nobody about moves as
it does alone.
-/

namespace JobEngine

open Routine

/-! ## Work in progress -/

/-- Have a storage call refused. -/
def EngineState.turnAway (s : EngineState) (c : StorageCall) :
    Except EngineError c.Answer × EngineState :=
  s.available.2.refused

/-- Report how a storage call came out to the breaker. -/
def EngineState.recordOutcome {α : Type} (s : EngineState) : Except EngineError α → EngineState
  | .ok _ => s.recordSuccess
  | .error e => (s.recordError e).recordFailure

/-- Where a piece of work stands: between storage calls, or within one that was made, or within one
that the storage has answered. -/
inductive Stage where
  | between (r : Routine Unit)
  | made (c : StorageCall) (after : Except EngineError c.Answer → EngineState → EngineState)
    (next : Except EngineError c.Answer → Routine Unit)
  | answered (c : StorageCall) (answer : Except EngineError c.Answer)
    (after : Except EngineError c.Answer → EngineState → EngineState)
    (next : Except EngineError c.Answer → Routine Unit)

/-- What a move of a piece of work was. -/
inductive Mark where
  | own
  | refused
  | made
  | answered
  | recorded
deriving DecidableEq

/-- A piece of work moves on. -/
inductive Move : Stage → EngineState → Mark → Stage → EngineState → Prop where
  | step {change : EngineState → EngineState} {next : EngineState → Routine Unit} {s : EngineState} :
    Move (.between (.step change next)) s .own (.between (next s)) (change s)
  | wait {limit : Option Nat} {ready : EngineState → Bool} {next : Nat → Routine Unit} {waited : Nat}
    {s : EngineState} :
    Move (.between (.wait limit ready next)) s .own (.between (next waited)) s
  | refuse {c : StorageCall} {after : Except EngineError c.Answer → EngineState → EngineState}
    {next : Except EngineError c.Answer → Routine Unit} {s : EngineState}
    (closed : s.available.1 = false) :
    Move (.between (.call c after next)) s .refused (.between (next (s.turnAway c).1))
      (after (s.turnAway c).1 (s.turnAway c).2)
  | make {c : StorageCall} {after : Except EngineError c.Answer → EngineState → EngineState}
    {next : Except EngineError c.Answer → Routine Unit} {s : EngineState}
    (passes : s.available.1 = true) :
    Move (.between (.call c after next)) s .made (.made c after next) s.available.2
  | answer {c : StorageCall} {after : Except EngineError c.Answer → EngineState → EngineState}
    {next : Except EngineError c.Answer → Routine Unit} {s : EngineState} :
    Move (.made c after next) s .answered (.answered c (c.on s.now s.backend).1 after next)
      { s with backend := (c.on s.now s.backend).2 }
  | record {c : StorageCall} {answer : Except EngineError c.Answer}
    {after : Except EngineError c.Answer → EngineState → EngineState}
    {next : Except EngineError c.Answer → Routine Unit} {s : EngineState} :
    Move (.answered c answer after next) s .recorded (.between (next answer))
      (after answer (s.recordOutcome answer))

/-- A move, with the states before and after it. -/
structure Entry where
  before : EngineState
  mark : Mark
  after : EngineState

/-- Pieces of work side by side. At each point one may begin, move on, or be dropped between storage
calls, or others change the state by `R`. The log has the moves. -/
inductive Crowd (Begun : Routine Unit → Prop) (R : EngineState → EngineState → Prop) :
    List Stage → EngineState → List Entry → List Stage → EngineState → Prop where
  | now {l : List Stage} {s : EngineState} : Crowd Begun R l s [] l s
  | begin {r : Routine Unit} {l n : List Stage} {s t : EngineState} {log : List Entry}
    (begun : Begun r) (later : Crowd Begun R (.between r :: l) s log n t) :
    Crowd Begun R l s log n t
  | move {p q : Stage} {mark : Mark} {l m n : List Stage} {s u t : EngineState} {log : List Entry}
    (move : Move p s mark q u) (later : Crowd Begun R (l ++ q :: m) u log n t) :
    Crowd Begun R (l ++ p :: m) s (⟨s, mark, u⟩ :: log) n t
  | drop {r : Routine Unit} {l m n : List Stage} {s t : EngineState} {log : List Entry}
    (later : Crowd Begun R (l ++ m) s log n t) : Crowd Begun R (l ++ .between r :: m) s log n t
  | others {l n : List Stage} {s u t : EngineState} {log : List Entry} (around : R s u)
    (later : Crowd Begun R l u log n t) : Crowd Begun R l s log n t

/-! ## Work that nobody disturbs -/

variable {Begun : Routine Unit → Prop} {R : EngineState → EngineState → Prop} {l : List Stage}
  {s t : EngineState}

/-- A call that is let through, answered and recorded at once comes to the same as a guarded call. -/
theorem EngineState.request_of_passes {s : EngineState} (h : s.available.1 = true)
    (c : StorageCall) :
    s.request c =
      ((c.on s.now s.available.2.backend).1,
        { s.available.2 with backend := (c.on s.now s.available.2.backend).2 }.recordOutcome
          (c.on s.now s.available.2.backend).1) := by
  have hpasses : s.guarded (c.on s.now) = s.available.2.applied (c.on s.now) := by
    simp only [guarded]
    split
    · rename_i u hu
      rw [hu]
    · rename_i u hu
      rw [hu] at h
      cases h
  rw [request, hpasses, applied]
  rcases c.on s.now s.available.2.backend with ⟨e | a, b⟩ <;> rfl

theorem EngineState.request_of_closed {s : EngineState} (h : s.available.1 = false)
    (c : StorageCall) : s.request c = s.turnAway c := by
  simp only [request, guarded, turnAway]
  split
  · rename_i u hu
    rw [hu] at h
    cases h
  · rename_i u hu
    rw [hu]

/-- What a routine does alone is a run in which its moves follow each other at once. -/
theorem Crowd.of_run {r : Routine Unit} {now : Nat} {result : Option (Ending Unit × Nat)}
    {u : EngineState} {m : List Stage} {rest : List Entry} (h : r.work.run now s = (result, t))
    (later : Crowd Begun R l t rest m u) :
    ∃ log, Crowd Begun R (.between r :: l) s (log ++ rest) m u := by
  induction r generalizing now s with
  | done a =>
    obtain ⟨-, rfl⟩ := Prod.mk.inj h
    exact ⟨[], Crowd.drop (l := []) later⟩
  | panic p =>
    obtain ⟨-, rfl⟩ := Prod.mk.inj h
    exact ⟨[], Crowd.drop (l := []) later⟩
  | step change next ih =>
    obtain ⟨log, hlog⟩ := ih s h
    exact ⟨_ :: log, Crowd.move (l := []) .step hlog⟩
  | wait limit ready next ih =>
    by_cases hready : ready s
    · rw [work, Activity.run_wait_ready hready] at h
      obtain ⟨log, hlog⟩ := ih 0 h
      exact ⟨_ :: log, Crowd.move (l := []) .wait hlog⟩
    · cases limit with
      | none =>
        rw [work, Activity.run_wait_none hready] at h
        obtain ⟨-, rfl⟩ := Prod.mk.inj h
        exact ⟨[], Crowd.drop (l := []) later⟩
      | some ms =>
        rw [work, Activity.run_wait_some hready] at h
        obtain ⟨log, hlog⟩ := ih ms h
        exact ⟨_ :: log, Crowd.move (l := []) .wait hlog⟩
  | call c after next ih =>
    obtain ⟨log, hlog⟩ : ∃ log, Crowd Begun R (.between (next (s.request c).1) :: l)
        (after (s.request c).1 (s.request c).2) (log ++ rest) m u := ih _ h
    cases havailable : s.available.1 with
    | true =>
      rw [s.request_of_passes havailable c] at hlog
      exact ⟨_ :: _ :: _ :: log, Crowd.move (l := []) (.make havailable)
        (Crowd.move (l := []) .answer (Crowd.move (l := []) .record hlog))⟩
    | false =>
      rw [s.request_of_closed havailable c] at hlog
      exact ⟨_ :: log, Crowd.move (l := []) (.refuse havailable) hlog⟩

end JobEngine
