-- SUMMARY: The Gregorian calendar: day numbers, civil dates, and the civil reading of an instant.
import JobEngine.Time.Instant

/-!
# The calendar

Days are numbered from 1970-01-01. `dayNumber` and `civilOfDay` translate between day numbers and
dates of the proleptic Gregorian calendar; `Instant.civil` reads an instant as a date and a time of
day in UTC.
-/

namespace JobEngine

/-- A date of the proleptic Gregorian calendar. -/
structure Date where
  year : Int
  month : Nat
  day : Nat
deriving DecidableEq, Repr

namespace Date

def isLeapYear (year : Int) : Bool := year % 4 = 0 ∧ (year % 100 ≠ 0 ∨ year % 400 = 0)

/-- The number of days of a month; months count from 1. -/
def daysInMonth (year : Int) (month : Nat) : Nat :=
  match month with
  | 2 => if isLeapYear year then 29 else 28
  | 4 | 6 | 9 | 11 => 30
  | _ => 31

/-- Whether the calendar has the date. -/
def isValid (d : Date) : Bool :=
  1 ≤ d.month ∧ d.month ≤ 12 ∧ 1 ≤ d.day ∧ d.day ≤ daysInMonth d.year d.month

/-- The number of a date's day. The year is taken to begin in March, so that a leap day is its last,
and is split into cycles of 400 years. -/
def dayNumber (d : Date) : Int :=
  let y := if d.month ≤ 2 then d.year - 1 else d.year
  let cycle := y / 400
  let yearOfCycle := y % 400
  let monthFromMarch : Int := if d.month ≤ 2 then d.month + 9 else d.month - 3
  let dayOfYear := (153 * monthFromMarch + 2) / 5 + d.day - 1
  let dayOfCycle := yearOfCycle * 365 + yearOfCycle / 4 - yearOfCycle / 100 + dayOfYear
  cycle * 146097 + dayOfCycle - 719468

/-- The date of a day number. -/
def ofDayNumber (n : Int) : Date :=
  let z := n + 719468
  let cycle := z / 146097
  let dayOfCycle := z % 146097
  let yearOfCycle :=
    (dayOfCycle - dayOfCycle / 1460 + dayOfCycle / 36524 - dayOfCycle / 146096) / 365
  let dayOfYear := dayOfCycle - (365 * yearOfCycle + yearOfCycle / 4 - yearOfCycle / 100)
  let monthFromMarch := (5 * dayOfYear + 2) / 153
  let day := dayOfYear - (153 * monthFromMarch + 2) / 5 + 1
  let month := if monthFromMarch < 10 then monthFromMarch + 3 else monthFromMarch - 9
  let year := yearOfCycle + cycle * 400 + (if month ≤ 2 then 1 else 0)
  ⟨year, month.toNat, day.toNat⟩

/-- The day of the week, Sunday being 1 and Saturday 7. -/
def weekday (dayNumber : Int) : Nat := ((dayNumber + 4) % 7).toNat + 1

end Date

/-- A date with a time of day. -/
structure Civil where
  date : Date
  hour : Nat
  minute : Nat
  second : Nat
  nanos : Nat
deriving DecidableEq, Repr

namespace Civil

/-- The nanoseconds from the epoch to a civil time in UTC. -/
def toNanos (c : Civil) : Int :=
  let seconds : Int := c.date.dayNumber * 86400 + c.hour * 3600 + c.minute * 60 + c.second
  seconds * 1000000000 + c.nanos

end Civil

/-- The civil time of an instant in UTC. -/
def Instant.civil (t : Instant) : Civil :=
  let seconds := t.nanos / 1000000000
  let ofDay := (seconds % 86400).toNat
  ⟨Date.ofDayNumber (seconds / 86400), ofDay / 3600, ofDay / 60 % 60, ofDay % 60, t.subsecNanos⟩

end JobEngine
