-- SUMMARY: Lengths of time: 64-bit seconds with nanoseconds, and their decimal text.
import JobEngine.Binary64.Basic
import JobEngine.Text.Digits

/-!
# Durations

A `Duration` is a non-negative number of nanoseconds whose whole seconds fit 64 bits. Building one
from a number that is too large gives the longest duration.
-/

namespace JobEngine

/-- One more than the largest number of nanoseconds in a duration. -/
def Duration.limit : Nat := UInt64.size * 1000000000

/-- A length of time in nanoseconds. -/
structure Duration where
  nanos : Nat
  lt_limit : nanos < Duration.limit
deriving DecidableEq

namespace Duration

instance : LE Duration := ⟨fun a b => a.nanos ≤ b.nanos⟩
instance : LT Duration := ⟨fun a b => a.nanos < b.nanos⟩
instance : DecidableLE Duration := fun a b => inferInstanceAs (Decidable (a.nanos ≤ b.nanos))
instance : DecidableLT Duration := fun a b => inferInstanceAs (Decidable (a.nanos < b.nanos))

/-- The duration of a number of nanoseconds, at most the longest one. -/
def ofNanos (n : Nat) : Duration :=
  ⟨min n (limit - 1), Nat.lt_of_le_of_lt (Nat.min_le_right _ _) (by decide)⟩

/-- The duration of a number of nanoseconds, if it is one. -/
def ofNanos? (n : Nat) : Option Duration := if h : n < limit then some ⟨n, h⟩ else none

def ofMillis (n : Nat) : Duration := ofNanos (n * 1000000)
def ofSecs (n : Nat) : Duration := ofNanos (n * 1000000000)

def zero : Duration := ofNanos 0
/-- The longest duration. -/
def max : Duration := ofNanos limit

instance : Inhabited Duration := ⟨zero⟩

theorem ext_nanos {a b : Duration} (h : a.nanos = b.nanos) : a = b := by
  cases a; cases b; cases h; rfl

/-- The whole seconds. -/
def secs (d : Duration) : Nat := d.nanos / 1000000000
/-- The nanoseconds beyond the whole seconds. -/
def subsecNanos (d : Duration) : Nat := d.nanos % 1000000000
/-- The whole milliseconds. -/
def millis (d : Duration) : Nat := d.nanos / 1000000

def isZero (d : Duration) : Bool := d.nanos = 0

/-- The seconds as a double: the whole seconds and the fraction are rounded apart, and then their
sum. -/
def secsFloat (d : Duration) : Binary64 :=
  (Binary64.ofNat d.secs).add ((Binary64.ofNat d.subsecNanos).div (Binary64.ofNat 1000000000))

/-! ## Decimal text -/

/-- Drop the zeros at the end. -/
def dropTrailingZeros (cs : List Char) : List Char := (cs.reverse.dropWhile (· = '0')).reverse

/-- `whole.part` with `part` counted in units of `10 ^ -places`, without zeros at the end. -/
def fixedText (whole part places : Nat) : String :=
  let fraction := dropTrailingZeros (padded places part).toList
  toString whole ++ (if fraction.isEmpty then "" else "." ++ String.ofList fraction)

/-- The duration in the largest unit of which it has one, from seconds down to nanoseconds: `1.5s`,
`2.5ms`, `0ns`. -/
def decimalText (d : Duration) : String :=
  let n := d.nanos
  if 1000000000 ≤ n then fixedText (n / 1000000000) (n % 1000000000) 9 ++ "s"
  else if 1000000 ≤ n then fixedText (n / 1000000) (n % 1000000) 6 ++ "ms"
  else if 1000 ≤ n then fixedText (n / 1000) (n % 1000) 3 ++ "µs"
  else toString n ++ "ns"

end Duration

end JobEngine
