-- SUMMARY: Points in time within the calendar's range, with saturating arithmetic.
import JobEngine.Time.Duration

/-!
# Instants

An `Instant` counts nanoseconds from 1970-01-01T00:00:00Z and lies between the first moment of the
year -262143 and the last nanosecond of the year 262142. Adding and subtracting a duration first
turns it into a span, a length of at most 9223372036854775807 milliseconds. `add?` and `sub?` fail
where the duration is no span or the result leaves the calendar; `add` and `sub` then give the
calendar's end.
-/

namespace JobEngine

/-- The first moment of the calendar. -/
def Instant.minNanos : Int := -8334601228800 * 1000000000
/-- The last nanosecond of the calendar. -/
def Instant.maxNanos : Int := 8210266876799 * 1000000000 + 999999999

/-- A point in time, in nanoseconds from the epoch. -/
structure Instant where
  nanos : Int
  min_le : Instant.minNanos ≤ nanos
  le_max : nanos ≤ Instant.maxNanos
deriving DecidableEq

/-- The number of nanoseconds of a duration that is a span: its milliseconds are a signed number of
64 bits. -/
def Duration.span? (d : Duration) : Option Nat :=
  if d.nanos ≤ (wordLimit - 1) * 1000000 then some d.nanos else none

namespace Instant

instance : LE Instant := ⟨fun a b => a.nanos ≤ b.nanos⟩
instance : LT Instant := ⟨fun a b => a.nanos < b.nanos⟩
instance : DecidableLE Instant := fun a b => inferInstanceAs (Decidable (a.nanos ≤ b.nanos))
instance : DecidableLT Instant := fun a b => inferInstanceAs (Decidable (a.nanos < b.nanos))

theorem ext_nanos {a b : Instant} (h : a.nanos = b.nanos) : a = b := by
  cases a; cases b; cases h; rfl

/-- The first instant. -/
def min : Instant := ⟨minNanos, Int.le_refl _, by decide⟩
/-- The last instant. -/
def max : Instant := ⟨maxNanos, by decide, Int.le_refl _⟩

/-- The instant of a number of nanoseconds, if it lies in the calendar. -/
def ofNanos? (n : Int) : Option Instant :=
  if h : minNanos ≤ n ∧ n ≤ maxNanos then some ⟨n, h.1, h.2⟩ else none

/-- The instant of a number of nanoseconds, or the nearer end of the calendar. -/
def ofNanos (n : Int) : Instant := (ofNanos? n).getD (if n < minNanos then min else max)

/-- The instant of a number of milliseconds, or the nearer end of the calendar. -/
def ofMillis (n : Int) : Instant := ofNanos (n * 1000000)

/-- The beginning of 1970. -/
def epoch : Instant := ofNanos 0

instance : Inhabited Instant := ⟨epoch⟩

/-- The milliseconds from the epoch, rounded down. -/
def millis (t : Instant) : Int := Int.fdiv t.nanos 1000000

/-- The nanoseconds beyond the whole seconds. -/
def subsecNanos (t : Instant) : Nat := (t.nanos % 1000000000).toNat

/-- The instant a duration later, if the calendar has it. -/
def add? (t : Instant) (d : Duration) : Option Instant :=
  d.span?.bind fun n => ofNanos? (t.nanos + n)

/-- The instant a duration earlier, if the calendar has it. -/
def sub? (t : Instant) (d : Duration) : Option Instant :=
  d.span?.bind fun n => ofNanos? (t.nanos - n)

/-- The instant a duration later, or the last one. -/
def add (t : Instant) (d : Duration) : Instant := (t.add? d).getD max

/-- The instant a duration earlier, or the first one. -/
def sub (t : Instant) (d : Duration) : Instant := (t.sub? d).getD min

/-- A clock that is moved by hand stays where it is when the step leaves the calendar. -/
def advance (t : Instant) (d : Duration) : Instant := (t.add? d).getD t

end Instant

end JobEngine
