-- SUMMARY: A day number is the number of its date, and later dates have larger day numbers.
import JobEngine.Time.Calendar

/-!
# Day numbers

With the year taken to begin in March, a leap day is the last day of its year. A year then begins a
number of days after the first one that depends on the number of the year alone, and a month begins a
number of days after its year that depends on the month alone. Both the number of a date and the date
of a number are read off these two.
-/

namespace JobEngine

/-! ## Cycles of 400 years -/

/-- The days before a year that begins in March. -/
def yearStart (y : Int) : Int := 365 * y + y / 4 - y / 100 + y / 400

theorem yearStart_mono {y z : Int} (h : y ≤ z) : yearStart y ≤ yearStart z := by
  unfold yearStart
  omega

/-- Every cycle has as many days as the first one. -/
theorem yearStart_add_cycles (y cycle : Int) :
    yearStart (y + cycle * 400) = yearStart y + cycle * 146097 := by
  unfold yearStart
  omega

/-- A day of a cycle, everything counted from zero. Four years end with a leap day, unless they end a
century other than the last one. -/
structure DayOfCycle where
  century : Int
  fourYears : Int
  year : Int
  day : Int
  century_range : 0 ≤ century ∧ century ≤ 3
  fourYears_range : 0 ≤ fourYears ∧ fourYears ≤ 24
  year_range : 0 ≤ year ∧ year ≤ 3
  day_nonneg : 0 ≤ day
  day_le : day ≤ 364 ∨ (day = 365 ∧ year = 3 ∧ (fourYears < 24 ∨ century = 3))

namespace DayOfCycle

/-- The number of the day in the cycle. -/
def number (d : DayOfCycle) : Int :=
  36524 * d.century + 1461 * d.fourYears + 365 * d.year + d.day

/-- The number of the year in the cycle. -/
def yearOfCycle (d : DayOfCycle) : Int := 100 * d.century + 4 * d.fourYears + d.year

theorem exists_number {n : Int} (h : 0 ≤ n) (h' : n < 146097) : ∃ d : DayOfCycle, d.number = n := by
  let century := min (n / 36524) 3
  let fourYears := (n - 36524 * century) / 1461
  let year := min ((n - 36524 * century - 1461 * fourYears) / 365) 3
  let day := n - 36524 * century - 1461 * fourYears - 365 * year
  refine ⟨⟨century, fourYears, year, day, by omega, by omega, by omega, by omega, by omega⟩, ?_⟩
  simp only [number]
  omega

variable (d : DayOfCycle)

theorem yearStart_yearOfCycle : yearStart d.yearOfCycle = d.number - d.day := by
  obtain ⟨century, fourYears, year, day, hc, hf, hy, hday, hday'⟩ := d
  simp only [yearStart, yearOfCycle, number]
  omega

theorem number_lt : d.number < yearStart (d.yearOfCycle + 1) := by
  obtain ⟨century, fourYears, year, day, hc, hf, hy, hday, hday'⟩ := d
  simp only [yearStart, yearOfCycle, number]
  omega

/-- Taking the leap days out leaves years of 365 days. -/
theorem yearOfCycle_eq :
    (d.number - d.number / 1460 + d.number / 36524 - d.number / 146096) / 365 = d.yearOfCycle := by
  obtain ⟨century, fourYears, year, day, hc, hf, hy, hday, hday'⟩ := d
  simp only [yearOfCycle, number]
  generalize hn : 36524 * century + 1461 * fourYears + 365 * year + day = n
  -- The last day of the cycle is the only one at which a fifth century seems to begin.
  have hlast : n < 36524 * (century + 1) ∨ (century = 3 ∧ n = 146096) := by omega
  have hcentury : n / 36524 = century + n / 146096 := by omega
  have hfour : (n / 1460 = 25 * century + fourYears ∧ day ≤ 364) ∨
      (n / 1460 = 25 * century + fourYears + 1 ∧ 1 ≤ day) := by omega
  omega

end DayOfCycle

namespace Date

variable {d : Date} {n : Int}

/-! ## The number of a date -/

/-- The year of a date, years beginning in March. -/
def marchYear (d : Date) : Int := if d.month ≤ 2 then d.year - 1 else d.year

/-- The months of that year before the month of a date. -/
def marchMonth (d : Date) : Int := if d.month ≤ 2 then d.month + 9 else d.month - 3

/-- The days of a year before a month. -/
def monthStart (m : Int) : Int := (153 * m + 2) / 5

theorem dayNumber_eq (d : Date) :
    d.dayNumber = yearStart d.marchYear + monthStart d.marchMonth + d.day - 719469 := by
  simp only [dayNumber, yearStart, marchYear, marchMonth, monthStart]
  omega

/-! ## The date of a number -/

/-- The date of a day, read off its place in the cycle. -/
theorem ofDayNumber_eq (d : DayOfCycle) (hd : d.number = (n + 719468) % 146097) :
    ofDayNumber n =
      let month := (5 * d.day + 2) / 153
      let year := d.yearOfCycle + (n + 719468) / 146097 * 400
      ⟨if month < 10 then year else year + 1,
        (if month < 10 then month + 3 else month - 9).toNat,
        (d.day - monthStart month + 1).toNat⟩ := by
  have hyear := d.yearOfCycle_eq
  have hstart := d.yearStart_yearOfCycle
  obtain ⟨hc, hf, hy⟩ := And.intro d.century_range (And.intro d.fourYears_range d.year_range)
  have hday : d.number - (365 * d.yearOfCycle + d.yearOfCycle / 4 - d.yearOfCycle / 100) = d.day := by
    simp only [yearStart, DayOfCycle.yearOfCycle] at hstart ⊢
    omega
  simp only [ofDayNumber, ← hd, hyear, hday, monthStart]
  have hday' := d.day_le
  have hnonneg := d.day_nonneg
  congr 1
  split <;> split <;> omega

/-- A day lies in its year, in its month, and on its day of the month. -/
theorem ofDayNumber_spec (n : Int) : ∃ dayOfYear : Int,
    (1 ≤ (ofDayNumber n).month ∧ (ofDayNumber n).month ≤ 12) ∧
    0 ≤ dayOfYear ∧ n + 719468 = yearStart (ofDayNumber n).marchYear + dayOfYear ∧
    n + 719468 < yearStart ((ofDayNumber n).marchYear + 1) ∧
    (ofDayNumber n).marchMonth = (5 * dayOfYear + 2) / 153 ∧
    (ofDayNumber n).day = dayOfYear - monthStart (ofDayNumber n).marchMonth + 1 := by
  have hlow : 0 ≤ (n + 719468) % 146097 := by omega
  have hhigh : (n + 719468) % 146097 < 146097 := by omega
  obtain ⟨d, hd⟩ := DayOfCycle.exists_number hlow hhigh
  have hstart := d.yearStart_yearOfCycle
  have hend := d.number_lt
  have hday := d.day_nonneg
  have hday' := d.day_le
  have hyear : (ofDayNumber n).marchYear = d.yearOfCycle + (n + 719468) / 146097 * 400 := by
    rw [ofDayNumber_eq d hd]
    simp only [marchYear]
    split <;> split <;> omega
  have hmonth : (ofDayNumber n).marchMonth = (5 * d.day + 2) / 153 := by
    rw [ofDayNumber_eq d hd]
    simp only [marchMonth]
    split <;> split <;> omega
  have hcycles := yearStart_add_cycles d.yearOfCycle ((n + 719468) / 146097)
  have hcycles' := yearStart_add_cycles (d.yearOfCycle + 1) ((n + 719468) / 146097)
  refine ⟨d.day, ?_, hday, ?_, ?_, hmonth, ?_⟩
  · rw [ofDayNumber_eq d hd]
    simp only
    split <;> omega
  · rw [hyear]
    omega
  · rw [hyear, Int.add_right_comm]
    omega
  · rw [hmonth, ofDayNumber_eq d hd]
    simp only [monthStart]
    omega

theorem dayNumber_ofDayNumber (n : Int) : (ofDayNumber n).dayNumber = n := by
  obtain ⟨dayOfYear, -, -, hyear, -, hmonth, hday⟩ := ofDayNumber_spec n
  rw [dayNumber_eq]
  omega

/-! ## Order -/

/-- An earlier year, or the same year and an earlier month, or the same month and an earlier day. -/
def Before (a b : Date) : Prop :=
  a.year < b.year ∨ (a.year = b.year ∧ (a.month < b.month ∨ (a.month = b.month ∧ a.day < b.day)))

/-- Years that begin in March order dates in the same way. -/
theorem before_iff {a b : Date} (ha : 1 ≤ a.month ∧ a.month ≤ 12) (hb : 1 ≤ b.month ∧ b.month ≤ 12) :
    a.Before b ↔ a.marchYear < b.marchYear ∨ (a.marchYear = b.marchYear ∧
      (a.marchMonth < b.marchMonth ∨ (a.marchMonth = b.marchMonth ∧ a.day < b.day))) := by
  simp only [Before, marchYear, marchMonth]
  split <;> split <;> omega

/-- A date of the calendar that comes after the date of a day has a larger number. -/
theorem lt_dayNumber (hvalid : d.isValid) (h : (ofDayNumber n).Before d) : n < d.dayNumber := by
  obtain ⟨dayOfYear, hrange, hnonneg, hyear, hend, hmonth, hday⟩ := ofDayNumber_spec n
  have hd : 1 ≤ d.month ∧ d.month ≤ 12 ∧ 1 ≤ d.day ∧ d.day ≤ daysInMonth d.year d.month := by
    simpa only [isValid, decide_eq_true_eq] using hvalid
  have hmarch : 0 ≤ d.marchMonth := by
    simp only [marchMonth]
    split <;> omega
  rw [before_iff hrange ⟨hd.1, hd.2.1⟩] at h
  rw [dayNumber_eq]
  simp only [monthStart] at hday ⊢
  rcases h with hlater | ⟨hsame, hlater | ⟨hmonths, hlater⟩⟩
  · have hnext : yearStart ((ofDayNumber n).marchYear + 1) ≤ yearStart d.marchYear :=
      yearStart_mono hlater
    omega
  · rw [← hsame]
    omega
  · rw [← hsame, ← hmonths]
    omega

end Date

/-! ## Civil times -/

namespace Civil

/-- The seconds since midnight. -/
def secondOfDay (c : Civil) : Nat := c.hour * 3600 + c.minute * 60 + c.second

theorem toNanos_eq (c : Civil) :
    c.toNanos = (c.date.dayNumber * 86400 + c.secondOfDay) * 1000000000 + c.nanos := by
  simp only [toNanos, secondOfDay]
  omega

end Civil

theorem Instant.secondOfDay_civil (t : Instant) :
    (t.civil.secondOfDay : Int) = t.nanos / 1000000000 % 86400 := by
  simp only [civil, Civil.secondOfDay]
  omega

theorem Instant.date_civil (t : Instant) :
    t.civil.date = Date.ofDayNumber (t.nanos / 1000000000 / 86400) := rfl

/-- A civil time gives back the instant that it was read from. -/
theorem Instant.toNanos_civil (t : Instant) : t.civil.toNanos = t.nanos := by
  have hnanos : (t.civil.nanos : Int) = t.nanos % 1000000000 := by
    simp only [civil, subsecNanos]
    omega
  rw [Civil.toNanos_eq, date_civil, Date.dayNumber_ofDayNumber, secondOfDay_civil, hnanos]
  omega

end JobEngine
