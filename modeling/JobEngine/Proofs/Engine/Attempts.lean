-- SUMMARY: What an attempt to make a storage call does to the storage and to the breaker.
import JobEngine.Proofs.Engine.Calls
import JobEngine.Proofs.Time.Saturation

/-!
# Attempts

A breaker is shut at a time if it is open and its retry timeout has not passed. Whether an attempt to
make a storage call reaches the storage depends on that alone. An attempt on a shut breaker is counted
and changes nothing else; any other attempt makes the call once and records how it came out.
-/

namespace JobEngine

/-! ## The breaker -/

namespace Breaker

variable {b : Breaker} {now time : Instant}

/-- The breaker refuses calls at time `now`. -/
def Shut (b : Breaker) (now : Instant) : Prop :=
  ∃ time, b.state = .opened time ∧ now.nanos ≤ time.nanos + b.settings.retryTimeout.nanos

/-- Record how a call came out. -/
def recordOutcome {α : Type} (b : Breaker) (now : Instant) : Except EngineError α → Breaker
  | .ok _ => b.recordSuccess
  | .error _ => b.recordFailure now

theorem not_shut_of_kind (h : b.kind ≠ .opened) : ¬ b.Shut now := by
  rintro ⟨time, hstate, -⟩
  apply h
  rw [kind, hstate]
  rfl

theorem not_shut_of_lt (h : b.state = .opened time)
    (hlater : time.nanos + b.settings.retryTimeout.nanos < now.nanos) : ¬ b.Shut now := by
  rintro ⟨time', hstate, hearly⟩
  obtain rfl := BreakerState.opened.inj (h.symm.trans hstate)
  omega

theorem lt_of_not_shut (h : ¬ b.Shut now) (hstate : b.state = .opened time) :
    time.nanos + b.settings.retryTimeout.nanos < now.nanos := by
  apply Int.not_le.1
  intro hearly
  exact h ⟨time, hstate, hearly⟩

/-- A probe does not move a shut breaker. -/
theorem probe_of_shut (h : b.Shut now) : b.probe now = b := by
  obtain ⟨time, hstate, hearly⟩ := h
  have hnot : ¬ time.add b.settings.retryTimeout < now := by
    rw [Instant.add_lt_iff]
    omega
  cases b
  simp_all [probe, observe, BreakerState.next]

/-- A probe makes a breaker half-open that is open and not shut. -/
theorem state_probe_of_not_shut (h : ¬ b.Shut now) (hstate : b.state = .opened time) :
    (b.probe now).state = .halfOpen 0 := by
  have hlater : time.add b.settings.retryTimeout < now :=
    Instant.add_lt_iff.2 (lt_of_not_shut h hstate)
  simp only [probe, observe, hstate, BreakerState.next, if_pos hlater]

theorem probe_of_not_opened (h : b.kind ≠ .opened) : b.probe now = b := by
  cases b with
  | mk name settings state =>
    cases state with
    | opened time => exact absurd rfl h
    | closed n => rfl
    | halfOpen n => rfl

theorem isAvailable_probe_iff : (b.probe now).isAvailable = true ↔ ¬ b.Shut now := by
  constructor
  · intro h hshut
    obtain ⟨time, hstate, -⟩ := id hshut
    simp [probe_of_shut hshut, isAvailable, kind, hstate, BreakerState.kind] at h
  · intro h
    cases hstate : b.state with
    | opened time =>
      simp [isAvailable, kind, state_probe_of_not_shut h hstate, BreakerState.kind]
    | closed n =>
      have hkind : b.kind ≠ .opened := by simp [kind, hstate, BreakerState.kind]
      simp [probe_of_not_opened hkind, isAvailable, hkind]
    | halfOpen n =>
      have hkind : b.kind ≠ .opened := by simp [kind, hstate, BreakerState.kind]
      simp [probe_of_not_opened hkind, isAvailable, hkind]

/-! ## Settings and counters -/

@[simp] theorem settings_probe : (b.probe now).settings = b.settings := rfl
@[simp] theorem totalRejected_probe : (b.probe now).totalRejected = b.totalRejected := rfl

variable {α : Type} {r : Except EngineError α}

@[simp] theorem settings_recordOutcome : (b.recordOutcome now r).settings = b.settings := by
  cases r <;> rfl

@[simp] theorem totalRejected_recordOutcome :
    (b.recordOutcome now r).totalRejected = b.totalRejected := by
  cases r <;> rfl

end Breaker

/-! ## Guarded calls -/

namespace EngineState

variable {α : Type} {s : EngineState}

/-- A shut breaker refuses the call and counts that. -/
theorem guarded_of_shut (h : s.breaker.Shut s.now)
    (call : Backend → Except EngineError α × Backend) :
    ∃ t, s.guarded call = (.error s.breaker.rejection, t) ∧ t.backend = s.backend ∧
      t.breaker = s.breaker.recordRejection := by
  have hprobe := Breaker.probe_of_shut h
  have havailable : (s.breaker.probe s.now).isAvailable = false := by
    rw [Bool.eq_false_iff]
    exact fun hopen => Breaker.isAvailable_probe_iff.1 hopen h
  simp only [guarded, available, moveBreaker, havailable, refused]
  exact ⟨_, rfl, rfl, congrArg Breaker.recordRejection hprobe⟩

/-- A breaker that is not shut lets the call through and records how it came out. -/
theorem guarded_of_not_shut (h : ¬ s.breaker.Shut s.now)
    (call : Backend → Except EngineError α × Backend) :
    ∃ t, s.guarded call = ((call s.backend).1, t) ∧ t.backend = (call s.backend).2 ∧
      t.breaker = (s.breaker.probe s.now).recordOutcome s.now (call s.backend).1 := by
  have havailable := Breaker.isAvailable_probe_iff.2 h
  simp only [guarded, available, moveBreaker, havailable, applied]
  split
  · rename_i a b hcall
    rw [hcall]
    exact ⟨_, rfl, rfl, rfl⟩
  · rename_i e b hcall
    rw [hcall]
    exact ⟨_, rfl, rfl, rfl⟩

end EngineState

/-! ## A small breaker -/

/-- Two failures open the breaker for a second, and two successes close it. -/
def touchy : Breaker where
  name := "storage"
  settings := ⟨2, 2, .ofSecs 1, by decide, by decide, by decide⟩

end JobEngine
