-- SUMMARY: Retry delays are exact for every count of attempts, and a retried job is due after its delay.
import JobEngine.Proofs.Engine.Conclusions

/-!
# Backoff

Delays are reckoned in seconds of 64 bits from a count of 32 bits, and every sum and product on the
way stops at the largest number. None of them gets there: the delays are the exact ones, and they
grow with the count. A job whose failure is retried has attempts left, so its count is exact as
well, and it is due after that delay, or at the last instant.
-/

namespace JobEngine

/-! ## Delays -/

namespace RetryStrategy

variable {s : RetryStrategy} {m n : Count} {x : Nat}

/-- The nanoseconds that a strategy waits before attempt `n` with the random factor `x`. -/
def exactNanos (s : RetryStrategy) (x n : Nat) : Nat :=
  match s with
  | .constant delay => delay.nanos
  | .linear => n * 1000000000
  | .squared => n * n * 1000000000
  | .jitter => (4 * n + 15 + x * (n + 1)) * 1000000000

/-- The results of the additions and multiplications on the way to the delay. -/
def reckoned (s : RetryStrategy) (x n : Nat) : List Nat :=
  match s with
  | .constant _ => []
  | .linear => []
  | .squared => [n * n]
  | .jitter => [n * 4, n * 4 + 15, n + 1, x * (n + 1), n * 4 + 15 + x * (n + 1)]

theorem saturated_of_lt {k : Nat} (h : k < UInt64.size) : saturated k = k :=
  Nat.min_eq_left (Nat.le_sub_one_of_lt h)

/-- No result leaves the 64 bits. -/
theorem reckoned_lt (s : RetryStrategy) (hx : x ≤ 30) (n : Count) :
    ∀ k ∈ s.reckoned x n.val, k < UInt64.size := by
  have hn : n.val ≤ 4294967295 := Nat.le_of_lt_succ n.lt_limit
  have hsize : UInt64.size = 18446744073709551616 := rfl
  cases s with
  | constant delay => exact nofun
  | linear => exact nofun
  | squared =>
    have hsquare : n.val * n.val ≤ 4294967295 * 4294967295 := Nat.mul_le_mul hn hn
    simp only [reckoned, List.mem_singleton, forall_eq]
    omega
  | jitter =>
    have hspread : x * (n.val + 1) ≤ 30 * 4294967296 := Nat.mul_le_mul hx (by omega)
    simp only [reckoned, List.forall_mem_cons]
    refine ⟨?_, ?_, ?_, ?_, ?_, nofun⟩ <;> omega

/-- Delays are exact. -/
theorem nanos_delay (s : RetryStrategy) (hx : x ≤ 30) (n : Count) :
    (s.delay x n).nanos = s.exactNanos x n.val := by
  have hlt := s.reckoned_lt hx n
  cases s with
  | constant delay => rfl
  | linear => exact Duration.nanos_ofSecs (Nat.lt_trans n.lt_limit (by decide))
  | squared =>
    simp only [reckoned, List.mem_singleton, forall_eq] at hlt
    rw [delay, saturated_of_lt hlt, Duration.nanos_ofSecs hlt, exactNanos]
  | jitter =>
    simp only [reckoned, List.forall_mem_cons] at hlt
    obtain ⟨hproduct, hbase, hcount, hspread, hsum, -⟩ := hlt
    simp only [delay, jitterDelay, saturated_of_lt, hproduct, hbase, hcount, hspread, hsum,
      Duration.nanos_ofSecs, exactNanos]
    rw [Nat.mul_comm 4]

/-- An attempt is due after the exact delay, or at the last instant. -/
theorem nanos_nextAttemptAt (s : RetryStrategy) (hx : x ≤ 30) (n : Count) (now : Instant) :
    (s.nextAttemptAt x n now).nanos =
      min (now.nanos + s.exactNanos x n.val) Instant.maxNanos := by
  rw [nextAttemptAt, Instant.nanos_add, s.nanos_delay hx]

/-- All delays but the constant one grow with every attempt. -/
theorem delay_lt_delay (hs : ∀ delay, s ≠ .constant delay) (hx : x ≤ 30) (h : m < n) :
    s.delay x m < s.delay x n := by
  change (s.delay x m).nanos < (s.delay x n).nanos
  have h : m.val < n.val := h
  rw [s.nanos_delay hx, s.nanos_delay hx]
  cases s with
  | constant delay => exact absurd rfl (hs delay)
  | linear => exact Nat.mul_lt_mul_of_pos_right h (by decide)
  | squared => exact Nat.mul_lt_mul_of_pos_right (Nat.mul_self_lt_mul_self h) (by decide)
  | jitter =>
    have hspread : x * (m.val + 1) ≤ x * (n.val + 1) := Nat.mul_le_mul_left _ (by omega)
    refine Nat.mul_lt_mul_of_pos_right ?_ (by decide)
    omega

theorem jitter_bounds (h : 1 ≤ x) (hx : x ≤ 30) (n : Nat) :
    5 * n + 16 ≤ 4 * n + 15 + x * (n + 1) ∧ 4 * n + 15 + x * (n + 1) ≤ 34 * n + 45 := by
  have hleast : 1 * (n + 1) ≤ x * (n + 1) := Nat.mul_le_mul_right _ h
  have hmost : x * (n + 1) ≤ 30 * (n + 1) := Nat.mul_le_mul_right _ hx
  omega

end RetryStrategy

/-! ## Retried jobs -/

/-- A failure at `now` makes `j` the record `k`: the attempt is counted, and the next one is due
after the delay of the strategy, or at the last instant if that comes before. -/
structure Job.PutOff (j : Job) (strategy : RetryStrategy) (now : Instant) (k : Job) : Prop where
  retryable : k.state = .retryable
  counted : k.retries.val = j.retries.val + 1
  delayed : ∃ x due, (1 ≤ x ∧ x ≤ 30) ∧ k.scheduledAt = some due ∧ now ≤ due ∧
    due.nanos = min (now.nanos + strategy.exactNanos x (j.retries.val + 1)) Instant.maxNanos

namespace EngineState

variable {j : Job}

theorem putOff_afterFailure (hleft : j.hasRetriesLeft = true) (s : EngineState)
    (strategy : RetryStrategy) : j.PutOff strategy s.now (s.afterFailure j strategy).1 := by
  obtain ⟨x, hx, hk⟩ := s.exists_factor_afterFailure hleft strategy
  have hcount : j.retries.succ.val = j.retries.val + 1 :=
    Count.val_succ_of_lt (Job.hasRetriesLeft_eq_true.1 hleft)
  rw [hk]
  refine ⟨rfl, hcount, x, _, hx, rfl, s.now.le_add _, ?_⟩
  rw [strategy.nanos_nextAttemptAt hx.2, hcount]

/-- Applying the failure of a job that has attempts left puts it off, and stores the record or
nothing at all. -/
theorem handleFailure_putOff (hleft : j.hasRetriesLeft = true) (s : EngineState) (error : TaskError)
    (strategy : RetryStrategy) :
    ∃ k, j.PutOff strategy s.now k ∧
      ((∃ t, s.handleFailure j error strategy = (.ok k, t) ∧ t.store.job? j.id = some k) ∨
        ∃ e t, s.handleFailure j error strategy = (.error e, t) ∧ t.store = s.store) ∧
      (s.Serving → (s.handleFailure j error strategy).1 = .ok k) := by
  refine ⟨_, putOff_afterFailure hleft s strategy, ?_,
    fun h => h.handleFailure_fst j error strategy⟩
  rcases s.handleFailure_cases j error strategy with ⟨e, t, ht, hs⟩ | ⟨t, ht, hjobs⟩
  · exact .inr ⟨e, t, ht, hs⟩
  · refine .inl ⟨t, ht, ?_⟩
    have hid := s.id_afterFailure j strategy
    rw [Store.job?, hjobs, ← hid]
    exact Store.job?_saveJob_self

end EngineState

/-- For every count of attempts and every random factor from 1 to 30, no result on the way to a delay
leaves the 64 bits, the delays are the exact ones, that of the jitter strategy lies within its
bounds, and all but the constant one grow with the count. So a job whose failure is retried has its
attempt counted, and it is due after the exact delay of the next attempt, or at the last instant,
and never in the past. -/
theorem delays_exact :
    (∀ (n : Count) (x : Nat), 1 ≤ x → x ≤ 30 →
      (∀ (s : RetryStrategy), ∀ k ∈ s.reckoned x n.val, k < UInt64.size) ∧
      (∀ delay, (RetryStrategy.constant delay).delay x n = delay) ∧
      (RetryStrategy.linear.delay x n).nanos = n.val * 1000000000 ∧
      (RetryStrategy.squared.delay x n).nanos = n.val * n.val * 1000000000 ∧
      (RetryStrategy.jitter.delay x n).nanos =
        (4 * n.val + 15 + x * (n.val + 1)) * 1000000000 ∧
      5 * n.val + 16 ≤ 4 * n.val + 15 + x * (n.val + 1) ∧
      4 * n.val + 15 + x * (n.val + 1) ≤ 34 * n.val + 45) ∧
    (∀ (s : RetryStrategy) (m n : Count) (x : Nat), (∀ delay, s ≠ .constant delay) → 1 ≤ x → x ≤ 30 →
      m < n → s.delay x m < s.delay x n) ∧
    ∀ (s : EngineState) (j : Job) (error : TaskError) (strategy : RetryStrategy),
      j.hasRetriesLeft = true → j.retries.succ.val = j.retries.val + 1 ∧
        ∃ k, j.PutOff strategy s.now k ∧
          ((∃ t, s.handleFailure j error strategy = (.ok k, t) ∧ t.store.job? j.id = some k) ∨
            ∃ e t, s.handleFailure j error strategy = (.error e, t) ∧ t.store = s.store) ∧
          (s.Serving → (s.handleFailure j error strategy).1 = .ok k) := by
  refine ⟨fun n x hleast hmost => ?exact, ?increasing, ?retried⟩
  case exact =>
    exact ⟨fun s => s.reckoned_lt hmost n, fun _ => rfl, RetryStrategy.linear.nanos_delay hmost n,
      RetryStrategy.squared.nanos_delay hmost n, RetryStrategy.jitter.nanos_delay hmost n,
      RetryStrategy.jitter_bounds hleast hmost n.val⟩
  case increasing => exact fun _ _ _ _ hs _ hmost h => RetryStrategy.delay_lt_delay hs hmost h
  case retried =>
    intro s j error strategy hleft
    exact ⟨Count.val_succ_of_lt (Job.hasRetriesLeft_eq_true.1 hleft),
      EngineState.handleFailure_putOff hleft s error strategy⟩

/-- A job whose next retry is the last one that can be counted. -/
def weariedJob : Job :=
  { loneJob with state := .executing, retries := ⟨4294967294, by decide⟩, maxRetries := .max }

/-- The largest delays are exact, and the job is due at the last instant. -/
theorem wearied_putOff :
    (RetryStrategy.jitter.delay 30 .max).nanos = 146028888075 * 1000000000 ∧
    RetryStrategy.squared.delay 1 weariedJob.retries < RetryStrategy.squared.delay 1 .max ∧
    ∃ k, (loneEngine.handleFailure weariedJob { message := "boom" } .squared).1 = .ok k ∧
      k.retries.val = 4294967295 ∧ k.scheduledAt = some .max := by
  obtain ⟨hexact, hincreasing, hretried⟩ := delays_exact
  obtain ⟨-, -, -, -, hjitter, -⟩ := hexact .max 30 (by decide) (by decide)
  have hfaultless : loneEngine.backend.Faultless := fun _ hfault => by cases hfault
  obtain ⟨-, k, hput, -, hanswer⟩ :=
    hretried loneEngine weariedJob { message := "boom" } .squared (by decide)
  refine ⟨hjitter, hincreasing .squared _ _ 1 nofun (by decide) (by decide) (by decide), k,
    hanswer ⟨rfl, hfaultless, rfl⟩, hput.counted, ?_⟩
  obtain ⟨x, due, -, hdue, -, hnanos⟩ := hput.delayed
  rw [hdue, Option.some.injEq]
  exact Instant.ext_nanos hnanos

end JobEngine
