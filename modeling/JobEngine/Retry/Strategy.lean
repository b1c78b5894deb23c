-- SUMMARY: How long a failed job waits before its next attempt.
import JobEngine.Count
import JobEngine.Time.Instant

/-!
# Retry strategies

A strategy gives the delay before an attempt from the attempt's number. The jitter strategy also
takes a random factor from 1 to 30, which weighs more with every attempt, so that jobs which failed
together spread out.
-/

namespace JobEngine

/-- How the delay grows with the number of the attempt. -/
inductive RetryStrategy where
  | constant (delay : Duration)
  | linear
  | squared
  | jitter
deriving DecidableEq

namespace RetryStrategy

/-- The name under which a strategy is registered. -/
def name : RetryStrategy → String
  | .constant _ => "constant"
  | .linear => "linear"
  | .squared => "squared"
  | .jitter => "jitter"

/-- A 64-bit number of seconds; a sum or product that is larger stops at the largest one. -/
def saturated (n : Nat) : Nat := min n (UInt64.size - 1)

/-- The delay of the jitter strategy for a given random factor. -/
def jitterDelay (retries : Count) (factor : Nat) : Duration :=
  let base := saturated (saturated (retries.val * 4) + 15)
  let spread := saturated (factor * saturated (retries.val + 1))
  .ofSecs (saturated (base + spread))

/-- The delay before attempt `retries`. -/
def delay (s : RetryStrategy) (factor : Nat) (retries : Count) : Duration :=
  match s with
  | .constant d => d
  | .linear => .ofSecs retries.val
  | .squared => .ofSecs (saturated (retries.val * retries.val))
  | .jitter => jitterDelay retries factor

/-- The delay of the constant strategy unless told otherwise. -/
def defaultConstantDelay : Duration := .ofSecs 10

/-- The bundled strategy of a name. -/
def bundled? (name : String) (constantDelay : Duration) : Option RetryStrategy :=
  match name with
  | "constant" => some (.constant constantDelay)
  | "linear" => some .linear
  | "squared" => some .squared
  | "jitter" => some .jitter
  | _ => none

/-- All bundled strategies. -/
def bundled : List RetryStrategy := [.constant defaultConstantDelay, .linear, .squared, .jitter]

/-- When attempt `retries` is due if the one before it fails at `now`. -/
def nextAttemptAt (s : RetryStrategy) (factor : Nat) (retries : Count) (now : Instant) : Instant :=
  now.add (s.delay factor retries)

end RetryStrategy

/-- Whether the budget admits another attempt. -/
def mayRetry (retries maxRetries : Count) : Bool := retries < maxRetries

end JobEngine
