-- SUMMARY: What each report does to the counters and the gauges.
import JobEngine.Telemetry.Metrics

/-!
# Values of series

A series is looked up by its labels, and a report changes the value of one series. So an increment
shows on its own counter, a level on its own gauge, and neither on any other.
-/

namespace JobEngine.Metrics

/-- The value of a series, if there is one. -/
def value? {κ α : Type} [DecidableEq κ] (key : κ) (l : List (κ × α)) : Option α :=
  (l.find? fun e => e.1 = key).map (·.2)

theorem value?_update {κ α : Type} [DecidableEq κ] (key other : κ) (start : α) (f : α → α)
    (l : List (κ × α)) :
    value? other (update key start f l) =
      if other = key then some (f ((value? key l).getD start)) else value? other l := by
  induction l with
  | nil =>
    by_cases hkey : other = key
    · simp [value?, update, hkey]
    · simp [value?, update, hkey, Ne.symm hkey]
  | cons e rest ih =>
    unfold value? at ih ⊢
    by_cases hkey : other = key
    · by_cases he : e.1 = key <;> simp_all [update]
    · by_cases he : e.1 = key <;> by_cases ho : e.1 = other <;> simp_all [update]

theorem count_eq (m : Metrics) (c : Counter) : m.count c = (value? c m.counters).getD 0 := by
  unfold count value?
  split <;> rename_i h <;> rw [h] <;> rfl

theorem count_increment (m : Metrics) (c d : Counter) :
    (m.increment c).count d = m.count d + if d = c then 1 else 0 := by
  rw [count_eq, count_eq]
  simp only [increment, value?_update]
  split
  · rename_i hsame
    rw [hsame]
    rfl
  · rfl

theorem level?_setLevel (m : Metrics) (g h : Gauge) (n : Nat) :
    (m.setLevel g n).level? h = if h = g then some n else m.level? h :=
  value?_update g h 0 (fun _ => n) m.gauges

/-! ## Reports of the engine -/

theorem count_recordEvent (m : Metrics) (e : EngineEvent) (c : Counter) :
    (m.recordEvent e).count c = m.count c + if c = .events e.name then 1 else 0 := by
  cases e <;> exact m.count_increment _ c

theorem count_recordError (m : Metrics) (e : EngineError) (c : Counter) :
    (m.recordError e).count c = m.count c + if c = .errors e.code then 1 else 0 :=
  m.count_increment _ c

theorem count_recordTransition (m : Metrics) (kind : CircuitKind) (c : Counter) :
    (m.recordTransition kind).count c = m.count c + if c = .breakerTransitions kind then 1 else 0 :=
  m.count_increment _ c

theorem count_recordCommandError (m : Metrics) (command : String) (c : Counter) :
    (m.recordCommandError command).count c = m.count c + if c = .commandErrors command then 1 else 0 :=
  m.count_increment _ c

theorem count_recordTick (m : Metrics) (took : Duration) (c : Counter) :
    (m.recordTick took).count c = m.count c := rfl

theorem level?_recordTransition (m : Metrics) (kind : CircuitKind) :
    (m.recordTransition kind).level? .breakerState = some (circuitLevel kind) := by
  rw [recordTransition, level?_setLevel, if_pos rfl]

end JobEngine.Metrics
