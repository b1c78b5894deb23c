-- SUMMARY: What a polling loop does on its way over one boundary, and what of the control it leaves.
import JobEngine.Loop.Polling

/-!
# Phases of a loop

`Crossing` says once what each step of a loop can do. On its way from one phase to the next a loop
may begin its body, begin a wait, or find no iteration left; `LoopPhase.marks` reads that off the two
phases. The counters that the loops share move by just these marks, and a loop touches neither the
flags nor the limit of its control.
-/

namespace JobEngine

variable {ω : Type}

/-! ## Crossings -/

/-- Where a loop may stand after its body was carried on, and what it then left to the others. -/
inductive BodyEnd (spec : PollingLoop ω) (s : LoopShared ω) :
    LoopPhase ω → LoopShared ω → Prop where
  | waiting (rest : Suspended ω IterationStatus) (state : ω) :
    BodyEnd spec s (.running rest) { s with state }
  | panicked (payload : PanicPayload) (state : ω) :
    BodyEnd spec s (.ended (some payload)) { s with state }
  | repeating (status : IterationStatus) (state : ω) (interval : spec.interval = none) :
    BodyEnd spec s .gate { s with state, stats := s.stats.record status }
  | resting (status : IterationStatus) (state : ω) (rest : Rest) (interval : spec.interval.isSome) :
    BodyEnd spec s (.resting rest)
      { s with
        state
        stats := s.stats.record status
        control := { s.control with waits := s.control.waits + 1 } }

/-- One more iteration was begun. -/
def LoopShared.enter (s : LoopShared ω) : LoopShared ω :=
  { s with control := { s.control with iterations := s.control.iterations + 1 } }

/-- The loop goes from one phase to the next and leaves the control, the counters and the state as
they then stand. -/
inductive Crossing (spec : PollingLoop ω) (now : Nat) (s : LoopShared ω) :
    LoopPhase ω → LoopPhase ω → LoopShared ω → Prop where
  | interrupted (stopped : s.control.interrupted = true) : Crossing spec now s .gate (.ended none) s
  | spent {limit : Nat} (admitted : s.control.interrupted = false) (running : s.control.paused = false)
    (limited : s.control.limit = some limit) (full : limit ≤ s.control.iterations) :
    Crossing spec now s .gate (.ended none) s
  | begun {p : LoopPhase ω} {t : LoopShared ω} (admitted : s.control.interrupted = false)
    (running : s.control.paused = false)
    (room : ∀ limit, s.control.limit = some limit → s.control.iterations < limit)
    (body : BodyEnd spec s.enter p t) (first : t.state = (spec.body.poll now s.state).2) :
    Crossing spec now s .gate p t
  | carried {rest : Suspended ω IterationStatus} {p : LoopPhase ω} {t : LoopShared ω}
    (body : BodyEnd spec s p t) : Crossing spec now s (.running rest) p t
  | rested {rest : Rest} : Crossing spec now s (.resting rest) .gate s
  | noticed {rest later : Rest} : Crossing spec now s (.resting rest) (.resting later) s

variable {spec : PollingLoop ω} {now : Nat} {s t : LoopShared ω} {p q : LoopPhase ω}

theorem bodyEnd_afterBody (spec : PollingLoop ω) (now : Nat) (s : LoopShared ω)
    (r : Pause ω IterationStatus × ω) :
    BodyEnd spec s (LoopPhase.afterBody spec now s r).1 (LoopPhase.afterBody spec now s r).2 := by
  obtain ⟨(status | payload) | rest, state⟩ := r
  · cases h : spec.interval with
    | none =>
      simp only [LoopPhase.afterBody, h]
      exact .repeating status state h
    | some interval =>
      simp only [LoopPhase.afterBody, h]
      exact .resting status state _ (by simp [h])
  · exact .panicked payload state
  · exact .waiting rest state

theorem state_afterBody (spec : PollingLoop ω) (now : Nat) (s : LoopShared ω)
    (r : Pause ω IterationStatus × ω) : (LoopPhase.afterBody spec now s r).2.state = r.2 := by
  obtain ⟨(status | payload) | rest, state⟩ := r
  · cases h : spec.interval <;> simp only [LoopPhase.afterBody, h]
  · rfl
  · rfl

theorem LoopControl.claim?_cases (c : LoopControl) :
    (∃ limit, c.claim? = none ∧ c.limit = some limit ∧ limit ≤ c.iterations) ∨
      (c.claim? = some { c with iterations := c.iterations + 1 } ∧
        ∀ limit, c.limit = some limit → c.iterations < limit) := by
  unfold claim?
  cases c.limit with
  | none => exact .inr ⟨rfl, by simp⟩
  | some limit =>
    by_cases hfull : limit ≤ c.iterations
    · exact .inl ⟨limit, by simp [hfull], rfl, hfull⟩
    · exact .inr ⟨by simp [hfull], by simpa using hfull⟩

theorem crossing_of_advance (h : p.advance spec now s = some (q, t)) : Crossing spec now s p q t := by
  cases p with
  | gate =>
    simp only [LoopPhase.advance] at h
    split at h
    · rename_i hstopped
      obtain ⟨rfl, rfl⟩ := Prod.mk.inj (Option.some.inj h)
      exact .interrupted hstopped
    · rename_i hopen
      split at h
      · cases h
      · rename_i hrunning
        rw [Bool.not_eq_true] at hopen hrunning
        rcases s.control.claim?_cases with ⟨limit, hclaim, hlimit, hfull⟩ | ⟨hclaim, hroom⟩
        · rw [hclaim] at h
          obtain ⟨rfl, rfl⟩ := Prod.mk.inj (Option.some.inj h)
          exact .spent hopen hrunning hlimit hfull
        · rw [hclaim] at h
          have hbody := bodyEnd_afterBody spec now s.enter (spec.body.poll now s.state)
          have hfirst := state_afterBody spec now s.enter (spec.body.poll now s.state)
          rw [LoopShared.enter, Option.some.inj h] at hbody hfirst
          exact .begun hopen hrunning hroom hbody hfirst
  | running rest =>
    simp only [LoopPhase.advance] at h
    split at h
    · have hbody := bodyEnd_afterBody spec now s (rest.resume now s.state)
      rw [Option.some.inj h] at hbody
      exact .carried hbody
    · cases h
  | resting rest =>
    simp only [LoopPhase.advance] at h
    split at h
    · obtain ⟨rfl, rfl⟩ := Prod.mk.inj (Option.some.inj h)
      exact .rested
    · split at h
      · cases h
      · obtain ⟨rfl, rfl⟩ := Prod.mk.inj (Option.some.inj h)
        exact .noticed
  | ended panic => cases h

/-! ## What stays -/

/-- The flags and the limit of a control are as before. -/
structure LoopControl.SameRules (c d : LoopControl) : Prop where
  paused : d.paused = c.paused
  interrupted : d.interrupted = c.interrupted
  signals : d.signals = c.signals
  limit : d.limit = c.limit

theorem LoopControl.SameRules.trans {c d e : LoopControl} (h : c.SameRules d)
    (h' : d.SameRules e) : c.SameRules e :=
  ⟨h'.paused.trans h.paused, h'.interrupted.trans h.interrupted, h'.signals.trans h.signals,
    h'.limit.trans h.limit⟩

theorem LoopShared.sameRules_enter (s : LoopShared ω) : s.control.SameRules s.enter.control :=
  ⟨rfl, rfl, rfl, rfl⟩

theorem BodyEnd.sameRules (h : BodyEnd spec s p t) : s.control.SameRules t.control := by
  cases h <;> exact ⟨rfl, rfl, rfl, rfl⟩

/-- Only calls on a control change its flags. -/
theorem Crossing.sameRules (h : Crossing spec now s p q t) : s.control.SameRules t.control := by
  cases h with
  | begun admitted running room body first => exact s.sameRules_enter.trans body.sameRules
  | carried body => exact body.sameRules
  | _ => exact ⟨rfl, rfl, rfl, rfl⟩

/-! ## Marks -/

/-- What a loop does in view of the others. -/
inductive LoopMark where
  /-- A body was begun. -/
  | begun
  /-- A wait was begun. -/
  | rested
  /-- The loop ended since no iteration was left. -/
  | spent
deriving DecidableEq

namespace LoopPhase

/-- What a loop did after its body was begun, going by where it stands. -/
def marksOfBody : LoopPhase ω → List LoopMark
  | .resting _ => [.rested]
  | _ => []

/-- What a loop did on its way from one phase to another, with its control interrupted or not. A loop
that leaves the gate has begun its body, unless it ended there without a panic. -/
def marks (interrupted : Bool) : LoopPhase ω → LoopPhase ω → List LoopMark
  | .gate, .ended none => if interrupted then [] else [.spent]
  | .gate, q => .begun :: q.marksOfBody
  | .running _, q => q.marksOfBody
  | _, _ => []

/-- The loop has rested since its last body. -/
def isRested : LoopPhase ω → Bool
  | .gate | .resting _ => true
  | .running _ | .ended _ => false

end LoopPhase

theorem BodyEnd.marks_gate (h : BodyEnd spec s p t) (interrupted : Bool) :
    LoopPhase.gate.marks interrupted p = .begun :: p.marksOfBody := by
  cases h <;> rfl

theorem marks_of_interrupted (h : s.control.interrupted = true) :
    LoopPhase.gate.marks s.control.interrupted (.ended none : LoopPhase ω) = [] :=
  if_pos h

theorem marks_of_spent (h : s.control.interrupted = false) :
    LoopPhase.gate.marks s.control.interrupted (.ended none : LoopPhase ω) = [.spent] := by
  rw [h]
  rfl

/-! ## Counters -/

/-- From `s` to `t` the counters moved by these marks. -/
structure Counted (marks : List LoopMark) (s t : LoopShared ω) : Prop where
  iterations : t.control.iterations = s.control.iterations + marks.count .begun
  waits : t.control.waits = s.control.waits + marks.count .rested

theorem Counted.enter {marks : List LoopMark} (h : Counted marks s.enter t) :
    Counted (.begun :: marks) s t where
  iterations := by
    rw [h.iterations, List.count_cons_self]
    exact Nat.add_right_comm ..
  waits := by
    rw [h.waits, List.count_cons_of_ne (by decide)]
    rfl

theorem BodyEnd.counted (h : BodyEnd spec s p t) : Counted p.marksOfBody s t := by
  cases h <;> exact ⟨rfl, rfl⟩

theorem Crossing.counted (h : Crossing spec now s p q t) :
    Counted (p.marks s.control.interrupted q) s t := by
  cases h with
  | interrupted stopped => exact marks_of_interrupted stopped ▸ ⟨rfl, rfl⟩
  | spent admitted running limited full => exact marks_of_spent admitted ▸ ⟨rfl, rfl⟩
  | begun admitted running room body first => exact body.marks_gate _ ▸ body.counted.enter
  | carried body => exact body.counted
  | _ => exact ⟨rfl, rfl⟩

/-- How many iterations came to an end. -/
def PollingStats.executed (s : PollingStats) : Nat := s.processed + s.skipped

theorem PollingStats.executed_record (s : PollingStats) (status : IterationStatus) :
    (s.record status).executed = s.executed + 1 := by
  cases status
  · exact (Nat.add_assoc ..).symm
  · exact Nat.add_right_comm ..

theorem BodyEnd.executed (h : BodyEnd spec s p t) (hi : spec.interval.isSome) :
    t.stats.executed = s.stats.executed + p.marksOfBody.count .rested := by
  cases h with
  | waiting | panicked => rfl
  | repeating status state interval =>
    rw [interval] at hi
    cases hi
  | resting status state rest interval => exact PollingStats.executed_record ..

/-- A loop that rests after its iterations begins a wait with each one that comes to an end. -/
theorem Crossing.executed (h : Crossing spec now s p q t) (hi : spec.interval.isSome) :
    t.stats.executed = s.stats.executed + (p.marks s.control.interrupted q).count .rested := by
  cases h with
  | interrupted stopped => rw [marks_of_interrupted stopped]; rfl
  | spent admitted running limited full => rw [marks_of_spent admitted]; rfl
  | begun admitted running room body first =>
    rw [body.marks_gate, body.executed hi, List.count_cons_of_ne (by decide)]
    rfl
  | carried body => exact body.executed hi
  | _ => rfl

/-! ## What lets a loop pass -/

/-- A body is begun only while the loops run and an iteration is left. -/
theorem Crossing.of_begun (h : Crossing spec now s p q t)
    (hm : .begun ∈ p.marks s.control.interrupted q) :
    s.control.interrupted = false ∧ s.control.paused = false ∧
      ∀ limit, s.control.limit = some limit → s.control.iterations < limit := by
  cases h with
  | interrupted stopped => simp [marks_of_interrupted stopped] at hm
  | spent admitted running limited full => simp [marks_of_spent admitted] at hm
  | begun admitted running room body first => exact ⟨admitted, running, room⟩
  | carried body => cases body <;> simp [LoopPhase.marks, LoopPhase.marksOfBody] at hm
  | _ => simp [LoopPhase.marks] at hm

theorem BodyEnd.iterations (h : BodyEnd spec s p t) :
    t.control.iterations = s.control.iterations := by
  cases h <;> rfl

/-- As long as no more iterations were begun than the limit admits, no more will be. -/
theorem Crossing.iterations_le {limit : Nat} (h : Crossing spec now s p q t)
    (hl : s.control.limit = some limit) (hle : s.control.iterations ≤ limit) :
    t.control.iterations ≤ limit := by
  cases h with
  | begun admitted running room body first =>
    rw [body.iterations]
    exact room limit hl
  | carried body =>
    rw [body.iterations]
    exact hle
  | _ => exact hle

/-- From the gate a loop runs its body from the beginning, or leaves the state alone. -/
theorem Crossing.state_of_gate (h : Crossing spec now s .gate q t) :
    t.state = if .begun ∈ LoopPhase.gate.marks s.control.interrupted q then
      (spec.body.poll now s.state).2 else s.state := by
  cases h with
  | interrupted stopped => simp [marks_of_interrupted stopped]
  | spent admitted running limited full => simp [marks_of_spent admitted]
  | begun admitted running room body first => simp [body.marks_gate, first]

theorem Crossing.of_spent (h : Crossing spec now s p q t)
    (hm : .spent ∈ p.marks s.control.interrupted q) :
    ∃ limit, s.control.limit = some limit ∧ limit ≤ s.control.iterations := by
  cases h with
  | interrupted stopped => simp [marks_of_interrupted stopped] at hm
  | spent admitted running limited full => exact ⟨_, limited, full⟩
  | begun admitted running room body first =>
    rw [body.marks_gate] at hm
    cases body <;> simp [LoopPhase.marksOfBody] at hm
  | carried body => cases body <;> simp [LoopPhase.marks, LoopPhase.marksOfBody] at hm
  | _ => simp [LoopPhase.marks] at hm

/-! ## Laps -/

/-- The marks of a loop whose bodies and waits take turns. If it is rested, it may begin with a body.
-/
inductive Laps : Bool → List LoopMark → Prop where
  | nil {rested : Bool} : Laps rested []
  | begun {marks : List LoopMark} (later : Laps false marks) : Laps true (.begun :: marks)
  | rested {marks : List LoopMark} (later : Laps true marks) : Laps false (.rested :: marks)
  | spent : Laps true [.spent]

theorem BodyEnd.laps {marks : List LoopMark} (h : BodyEnd spec s p t) (hi : spec.interval.isSome)
    (hlater : Laps p.isRested marks) : Laps false (p.marksOfBody ++ marks) := by
  cases h with
  | waiting | panicked => exact hlater
  | repeating status state interval =>
    rw [interval] at hi
    cases hi
  | resting status state rest interval => exact .rested hlater

theorem Crossing.laps {marks : List LoopMark} (h : Crossing spec now s p q t)
    (hi : spec.interval.isSome) (hlater : Laps q.isRested marks) (hend : q.isEnded → marks = []) :
    Laps p.isRested (p.marks s.control.interrupted q ++ marks) := by
  cases h with
  | interrupted stopped =>
    rw [marks_of_interrupted stopped, hend rfl]
    exact .nil
  | spent admitted running limited full =>
    rw [marks_of_spent admitted, hend rfl]
    exact .spent
  | begun admitted running room body first =>
    rw [body.marks_gate]
    exact .begun (body.laps hi hlater)
  | carried body => exact body.laps hi hlater
  | _ => exact hlater

end JobEngine
