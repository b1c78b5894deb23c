-- SUMMARY: Deadlines that are cut off at the ends of the calendar decide as exact ones would.
import JobEngine.Proofs.Engine.Purging
import JobEngine.Proofs.Engine.Reclaim

/-!
# Deadlines

Three decisions of the engine wait for a length of time to pass: an open breaker lets a probe
through, an executing job is given up, a finished job is removed. Each compares the clock with a sum
or a difference that stops at an end of the calendar. As the comparison is strict, and the clock
does not go beyond that end either, no decision depends on where the calendar ends.
-/

namespace JobEngine

/-- An open breaker lets a probe through once its retry timeout has passed, and nothing else makes it
half-open. -/
theorem BreakerState.kind_next_opened_iff {settings : BreakerSettings} {failed : Instant}
    {event : BreakerEvent} :
    ((opened failed).next settings event).kind = .halfOpen ↔
      ∃ now, event = .probe now ∧
        failed.nanos + settings.retryTimeout.nanos < now.nanos := by
  cases event with
  | success => simp [next, kind]
  | failure time => simp [next, kind]
  | probe now =>
    simp only [next, Instant.add_lt_iff, BreakerEvent.probe.injEq, exists_eq_left']
    by_cases hpassed : failed.nanos + settings.retryTimeout.nanos < now.nanos
    · rw [if_pos hpassed]
      exact ⟨fun _ => hpassed, fun _ => rfl⟩
    · rw [if_neg hpassed]
      exact ⟨fun hopened => (by cases hopened), fun hlate => absurd hlate hpassed⟩

/-- A job is stale if it has been executing for longer than its timeout, and that is not zero. -/
theorem Job.isStale_iff_lapsed {j : Job} {now : Instant} :
    j.isStale now = true ↔ j.state = .executing ∧ j.timeout.nanos ≠ 0 ∧
      ∃ started, j.executingAt = some started ∧
        started.nanos + j.timeout.nanos < now.nanos := by
  by_cases hs : j.state = .executing
  · cases hat : j.executingAt with
    | none => simp [isStale, hat]
    | some started => simp [isStale_iff hs hat, hs, Duration.isZero]
  · simp [isStale, hs]

/-- While the storage serves, the delete command removes the jobs that left the lifecycle longer ago
than the retention period, and keeps the others as they are. -/
theorem EngineState.Serving.job?_deleteExpired {s : EngineState} (h : s.Serving)
    (hf : s.store.Filed) (period : Duration) :
    ∃ t, s.deleteExpired (some period) = (.ok (), t) ∧ ∀ j, s.store.job? j.id = some j →
      (t.store.job? j.id = none ∨ t.store.job? j.id = some j) ∧
      (t.store.job? j.id = none ↔ j.state.isTerminal = true ∧
        ∃ finished, j.finishedAt = some finished ∧
          finished.nanos + period.nanos < s.now.nanos) := by
  obtain ⟨t, ht, -, hpurge, -⟩ := h.deleteExpired_purges hf period
  refine ⟨t, ht, fun j hj => ?_⟩
  rw [hpurge.job?_of_expired hf hj, ← Job.isExpired_sub_iff]
  cases j.isExpired (s.now.sub period) <;> simp

/-- Sums and differences of instants and durations are the exact ones, cut off at the ends of the
calendar. They grow with the instant, and with the duration the sum grows and the difference falls.
Yet whether a breaker becomes half-open, whether a job is stale, and whether a job is purged comes
out as with exact numbers. -/
theorem deadlines_exact :
    (∀ (t : Instant) (d : Duration),
      (t.add d).nanos = max Instant.minNanos (min (t.nanos + d.nanos) Instant.maxNanos) ∧
      (t.sub d).nanos = max Instant.minNanos (min (t.nanos - d.nanos) Instant.maxNanos)) ∧
    (∀ (t u : Instant) (d e : Duration), t ≤ u → d ≤ e → t.add d ≤ u.add e ∧ t.sub e ≤ u.sub d) ∧
    (∀ (settings : BreakerSettings) (failed : Instant) (event : BreakerEvent),
      ((BreakerState.opened failed).next settings event).kind = .halfOpen ↔
        ∃ now, event = .probe now ∧
          failed.nanos + settings.retryTimeout.nanos < now.nanos) ∧
    (∀ (j : Job) (now : Instant),
      j.isStale now = true ↔ j.state = .executing ∧ j.timeout.nanos ≠ 0 ∧
        ∃ started, j.executingAt = some started ∧
          started.nanos + j.timeout.nanos < now.nanos) ∧
    ∀ (s : EngineState) (period : Duration), s.Serving → s.store.Filed →
      ∃ t, s.deleteExpired (some period) = (.ok (), t) ∧ ∀ j, s.store.job? j.id = some j →
        (t.store.job? j.id = none ∨ t.store.job? j.id = some j) ∧
        (t.store.job? j.id = none ↔ j.state.isTerminal = true ∧
          ∃ finished, j.finishedAt = some finished ∧
            finished.nanos + period.nanos < s.now.nanos) := by
  refine ⟨?clipped, ?monotone, ?breaker, ?stale, ?purged⟩
  case clipped => exact fun t d => ⟨t.nanos_add_eq_clip d, t.nanos_sub_eq_clip d⟩
  case monotone =>
    exact fun _ _ _ _ ht hd => ⟨Instant.add_le_add ht hd, Instant.sub_le_sub ht hd⟩
  case breaker => exact fun _ _ _ => BreakerState.kind_next_opened_iff
  case stale => exact fun _ _ => Job.isStale_iff_lapsed
  case purged => exact fun _ period hs hf => hs.job?_deleteExpired hf period

/-- The clock shows its last instant. One job was finished two nanoseconds before it, and one a single
nanosecond before it. -/
def lastMoment : EngineState where
  now := .max
  backend := {
    store := (Store.saveJob {} (loneJob.complete (Instant.max.sub (.ofNanos 2)))).saveJob
      { loneJob.fail (Instant.max.sub (.ofNanos 1)) with id := Uuid.ofNat 2 } }
  breaker := { name := "storage", settings := .default }

/-- With a retention of one nanosecond the first job is removed, and the second one would have to
wait for an instant that does not exist. -/
theorem lastMoment_decided :
    Instant.epoch.add (.ofSecs 1) ≤ Instant.max.add .max ∧
    ∃ t, lastMoment.deleteExpired (some (.ofNanos 1)) = (.ok (), t) ∧
      t.store.job? (Uuid.ofNat 1) = none ∧ t.store.job? (Uuid.ofNat 2) ≠ none := by
  obtain ⟨-, hmonotone, -, -, hpurged⟩ := deadlines_exact
  have hfaultless : lastMoment.backend.Faultless := fun _ hfault => by cases hfault
  have hfiled : lastMoment.store.Filed := .saveJob (.saveJob fun _ _ h => by cases h)
  obtain ⟨t, ht, hjobs⟩ := hpurged lastMoment (.ofNanos 1) ⟨rfl, hfaultless, rfl⟩ hfiled
  refine ⟨(hmonotone _ _ _ _ (by decide) (by decide)).1, t, ht, ?_, ?_⟩
  · have hfirst := hjobs (loneJob.complete (Instant.max.sub (.ofNanos 2))) (by decide +kernel)
    exact hfirst.2.2 ⟨rfl, _, rfl, by decide +kernel⟩
  · have hsecond := hjobs { loneJob.fail (Instant.max.sub (.ofNanos 1)) with id := Uuid.ofNat 2 }
      (by decide +kernel)
    intro hnone
    obtain ⟨-, finished, hfinished, hlate⟩ := hsecond.2.1 hnone
    obtain rfl := Option.some.inj hfinished
    exact absurd hlate (by decide +kernel)

end JobEngine
