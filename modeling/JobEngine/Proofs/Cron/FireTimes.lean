-- SUMMARY: The next fire time is the least matching instant, and a preview lists the first few.
import JobEngine.Proofs.Cron.Schedule
import JobEngine.Proofs.Time.InstantTexts
import Mathlib.Data.List.Chain
import Mathlib.Order.Bounds.Defs

/-!
# The first fire times

A schedule fires at the instants whose civil time lies in the sets of its fields. The search for the
next one goes through the fields from the year down to the second; since every set is in increasing
order, what it finds is the least such instant after the given one. A preview is this search made
again and again, each time from what was found before.
-/

namespace JobEngine

/-! ## Dates in order -/

namespace Date

variable {a b d : Date}

/-- A day of a month is one of the days that the month has. -/
theorem day_cases (h : d.isValid) :
    (d.month = 2 ∧ d.day ≤ 29 ∧ (isLeapYear d.year = false → d.day ≤ 28)) ∨
      ((d.month = 4 ∨ d.month = 6 ∨ d.month = 9 ∨ d.month = 11) ∧ d.day ≤ 30) ∨
      ((d.month = 1 ∨ d.month = 3 ∨ d.month = 5 ∨ d.month = 7 ∨ d.month = 8 ∨ d.month = 10 ∨
        d.month = 12) ∧ d.day ≤ 31) := by
  simp only [isValid, decide_eq_true_eq] at h
  obtain ⟨hlow, hhigh, -, hday⟩ := h
  unfold daysInMonth at hday
  split at hday
  · rename_i hmonth
    refine .inl ⟨hmonth, ?_, ?_⟩
    · split at hday <;> omega
    · intro hleap
      rw [hleap] at hday
      exact hday
  case h_6 h2 h4 h6 h9 h11 =>
    refine .inr (.inr ⟨?_, hday⟩)
    have hother : d.month ≠ 2 ∧ d.month ≠ 4 ∧ d.month ≠ 6 ∧ d.month ≠ 9 ∧ d.month ≠ 11 :=
      ⟨h2, h4, h6, h9, h11⟩
    omega
  all_goals
    refine .inr (.inl ⟨?_, hday⟩)
    omega

/-- A date lies before the end of its month. -/
theorem day_le_monthEnd (h : d.isValid) :
    monthStart d.marchMonth + d.day ≤ monthStart (d.marchMonth + 1) := by
  have hday := day_cases h
  simp only [monthStart, marchMonth]
  split <;> omega

/-- A date lies before the end of its year. -/
theorem day_le_yearEnd (h : d.isValid) :
    yearStart d.marchYear + monthStart d.marchMonth + d.day ≤ yearStart (d.marchYear + 1) := by
  have hday := day_cases h
  have hyear : d.marchYear = if d.month ≤ 2 then d.year - 1 else d.year := rfl
  rw [yearStart_succ]
  simp only [monthStart, marchMonth]
  by_cases hfeb : d.month ≤ 2
  · -- The year ends with February, which has its leap day if the year of the calendar is one.
    have hsame : d.marchYear + 1 = d.year := by omega
    rw [hsame, if_pos hfeb]
    split
    · omega
    · rename_i hleap
      rcases hday with ⟨-, -, hshort⟩ | hlong
      · have hday' := hshort (Bool.eq_false_iff.2 hleap)
        omega
      · omega
  · rw [if_neg hfeb]
    split <;> omega

theorem dayNumber_lt_of_before (ha : a.isValid) (hb : b.isValid) (h : a.Before b) :
    a.dayNumber < b.dayNumber := by
  have hmonth := day_le_monthEnd ha
  have hyear := day_le_yearEnd ha
  have hrange := hb
  simp only [isValid, decide_eq_true_eq] at ha hrange
  have hmarch : 0 ≤ b.marchMonth := by
    simp only [marchMonth]
    split <;> omega
  rw [before_iff ⟨ha.1, ha.2.1⟩ ⟨hrange.1, hrange.2.1⟩] at h
  rw [dayNumber_eq, dayNumber_eq]
  rcases h with hlater | ⟨hsame, hlater | ⟨hmonths, hlater⟩⟩
  · have hnext : yearStart (a.marchYear + 1) ≤ yearStart b.marchYear := yearStart_mono hlater
    simp only [monthStart] at *
    omega
  · rw [← hsame]
    simp only [monthStart] at *
    omega
  · rw [← hsame, ← hmonths]
    omega

theorem before_trichotomy (a b : Date) : a.Before b ∨ a = b ∨ b.Before a := by
  obtain ⟨year, month, day⟩ := a
  obtain ⟨year', month', day'⟩ := b
  simp only [Before, mk.injEq]
  omega

theorem ofDayNumber_dayNumber (h : d.isValid) : ofDayNumber d.dayNumber = d := by
  have hvalid := isValid_ofDayNumber d.dayNumber
  have hsame := dayNumber_ofDayNumber d.dayNumber
  rcases before_trichotomy (ofDayNumber d.dayNumber) d with hbefore | heq | hafter
  · exact absurd hsame (Int.ne_of_lt (dayNumber_lt_of_before hvalid h hbefore))
  · exact heq
  · exact absurd hsame.symm (Int.ne_of_lt (dayNumber_lt_of_before h hvalid hafter))

end Date

/-! ## Civil times in order -/

namespace Civil

variable {a b : Civil}

/-- The whole seconds from the epoch. -/
def seconds (c : Civil) : Int := c.date.dayNumber * 86400 + c.secondOfDay

/-- A civil time does not lie in a later second than another. -/
def NotLater (a b : Civil) : Prop :=
  a.date.Before b.date ∨ (a.date = b.date ∧ a.secondOfDay ≤ b.secondOfDay)

theorem NotLater.seconds_le (h : a.NotLater b) (ha : a.date.isValid) (hb : b.date.isValid)
    (htime : a.secondOfDay < 86400) : a.seconds ≤ b.seconds := by
  unfold seconds
  rcases h with hbefore | ⟨hsame, hle⟩
  · have hlt := Date.dayNumber_lt_of_before ha hb hbefore
    omega
  · rw [hsame]
    omega

theorem notLater_of_seconds_le (h : a.seconds ≤ b.seconds) (ha : a.date.isValid)
    (hb : b.date.isValid) (htime : b.secondOfDay < 86400) : a.NotLater b := by
  unfold seconds at h
  rcases Date.before_trichotomy a.date b.date with hbefore | hsame | hafter
  · exact .inl hbefore
  · refine .inr ⟨hsame, ?_⟩
    rw [hsame] at h
    omega
  · have hlt := Date.dayNumber_lt_of_before hb ha hafter
    omega

theorem secondOfDay_lt {c : Civil} (hour : c.hour < 24) (minute : c.minute < 60)
    (second : c.second < 60) : c.secondOfDay < 86400 := by
  unfold secondOfDay
  omega

end Civil

namespace Instant

variable {t u : Instant}

theorem isValid_civil (t : Instant) : t.civil.date.isValid := Date.isValid_ofDayNumber _

theorem secondOfDay_civil_lt (t : Instant) : t.civil.secondOfDay < 86400 := by
  have htime := t.secondOfDay_civil
  omega

theorem seconds_civil (t : Instant) : t.civil.seconds = t.nanos / 1000000000 := by
  unfold Civil.seconds
  rw [secondOfDay_civil, date_civil, Date.dayNumber_ofDayNumber]
  omega

/-- The instant of a civil time has this civil time. -/
theorem civil_of_nanos_eq {c : Civil} (hvalid : c.date.isValid) (hour : c.hour < 24)
    (minute : c.minute < 60) (second : c.second < 60) (nanos : c.nanos < 1000000000)
    (h : u.nanos = c.toNanos) : u.civil = c := by
  have htime := Civil.secondOfDay_lt hour minute second
  rw [Civil.toNanos_eq] at h
  have hseconds : u.nanos / 1000000000 = c.date.dayNumber * 86400 + c.secondOfDay := by omega
  have hday : u.nanos / 1000000000 / 86400 = c.date.dayNumber := by omega
  have hdate : u.civil.date = c.date := by
    rw [date_civil, hday, Date.ofDayNumber_dayNumber hvalid]
  have hofDay : (u.nanos / 1000000000 % 86400).toNat = c.secondOfDay := by omega
  have hsub : u.subsecNanos = c.nanos := by
    unfold subsecNanos
    omega
  have hfields : u.civil = ⟨u.civil.date, c.secondOfDay / 3600, c.secondOfDay / 60 % 60,
      c.secondOfDay % 60, c.nanos⟩ := by
    rw [← hofDay, ← hsub]
    rfl
  rw [hfields, hdate]
  obtain ⟨date, hr, mi, se, na⟩ := c
  simp only [Civil.secondOfDay, Civil.mk.injEq, true_and, and_true] at *
  omega

end Instant

namespace Cron

/-! ## Schedules in order -/

/-- A civil time is one of a schedule. -/
structure Schedule.Admits (s : Schedule) (c : Civil) : Prop where
  year : ∃ year ∈ s.years, c.date.year = (year : Nat)
  month : c.date.month ∈ s.months
  day : c.date.day ∈ s.daysOfMonth
  weekday : Date.weekday c.date.dayNumber ∈ s.daysOfWeek
  hour : c.hour ∈ s.hours
  minute : c.minute ∈ s.minutes
  second : c.second ∈ s.seconds
  whole : c.nanos = 0

/-- A schedule fires at an instant. -/
def Schedule.Fires (s : Schedule) (t : Instant) : Prop := s.Admits t.civil

/-- The values of a field are in increasing order and below a bound. -/
structure Increasing (l : List Nat) (bound : Nat) : Prop where
  pairwise : l.Pairwise (· < ·)
  lt : ∀ n ∈ l, n < bound

/-- The fields that are searched are in increasing order, those of the time of day in range. -/
structure Schedule.Ordered (s : Schedule) : Prop where
  years : s.years.Pairwise (· < ·)
  months : s.months.Pairwise (· < ·)
  daysOfMonth : s.daysOfMonth.Pairwise (· < ·)
  hours : Increasing s.hours 24
  minutes : Increasing s.minutes 60
  seconds : Increasing s.seconds 60

theorem FieldKind.increasing_of_members? {k : FieldKind} {items : List Item} {l : List Nat}
    (h : k.members? items = some l) : Increasing l (k.greatest + 1) := by
  obtain ⟨lists, -, rfl⟩ := Option.map_eq_some_iff.1 h
  refine ⟨List.Pairwise.filter _ ?_, ?_⟩
  · unfold values between
    rw [List.pairwise_map]
    exact List.pairwise_lt_range.imp fun hlt => Nat.add_lt_add_right hlt _
  · intro n hn
    obtain ⟨m, hm, rfl⟩ := List.mem_map.1 (List.mem_filter.1 hn).1
    have hlt := List.mem_range.1 hm
    omega

theorem Schedule.ordered_of_ofSyntax? {x : Syntax} {s : Schedule} (h : ofSyntax? x = some s) :
    s.Ordered := by
  unfold ofSyntax? at h
  obtain ⟨seconds, hseconds, h⟩ := Option.bind_eq_some_iff.1 h
  obtain ⟨minutes, hminutes, h⟩ := Option.bind_eq_some_iff.1 h
  obtain ⟨hours, hhours, h⟩ := Option.bind_eq_some_iff.1 h
  obtain ⟨daysOfMonth, hdaysOfMonth, h⟩ := Option.bind_eq_some_iff.1 h
  obtain ⟨months, hmonths, h⟩ := Option.bind_eq_some_iff.1 h
  obtain ⟨daysOfWeek, -, h⟩ := Option.bind_eq_some_iff.1 h
  obtain ⟨years, hyears, h⟩ := Option.bind_eq_some_iff.1 h
  obtain rfl := Option.some.inj h
  exact
    { years := (FieldKind.increasing_of_members? hyears).pairwise
      months := (FieldKind.increasing_of_members? hmonths).pairwise
      daysOfMonth := (FieldKind.increasing_of_members? hdaysOfMonth).pairwise
      hours := FieldKind.increasing_of_members? hhours
      minutes := FieldKind.increasing_of_members? hminutes
      seconds := FieldKind.increasing_of_members? hseconds }

/-! ## The search -/

/-- A search through increasing values finds something good if it does at one of the values, and can
find nothing but good before it. -/
theorem exists_findSome?_of_mem {β : Type} {l : List Nat} {f : Nat → Option β} {P : β → Prop}
    {a : Nat} (sorted : l.Pairwise (· < ·)) (ha : a ∈ l) (here : ∃ b, f a = some b ∧ P b)
    (earlier : ∀ a' ∈ l, a' < a → ∀ b, f a' = some b → P b) :
    ∃ b, l.findSome? f = some b ∧ P b := by
  induction l with
  | nil => cases ha
  | cons x rest ih =>
    obtain ⟨hfirst, hrest⟩ := List.pairwise_cons.1 sorted
    rw [List.findSome?_cons]
    rcases List.mem_cons.1 ha with rfl | hmem
    · obtain ⟨b, hb, hP⟩ := here
      rw [hb]
      exact ⟨b, rfl, hP⟩
    · cases hx : f x with
      | some b => exact ⟨b, rfl, earlier x List.mem_cons_self (hfirst a hmem) b hx⟩
      | none => exact ih hrest hmem fun a' ha' => earlier a' (List.mem_cons_of_mem x ha')

namespace Schedule

variable {s : Schedule} {start c v : Civil} {t u : Instant}

section Time

variable {hour minute second h m : Nat} {time : Nat × Nat × Nat}

/-- The first admitted time in a minute. -/
def timeInMinute (s : Schedule) (hour minute second h m : Nat) : Option (Nat × Nat × Nat) :=
  s.seconds.findSome? fun sec =>
    if h = hour ∧ m = minute ∧ sec < second then none else some (h, m, sec)

/-- The first admitted time in an hour. -/
def timeInHour (s : Schedule) (hour minute second h : Nat) : Option (Nat × Nat × Nat) :=
  s.minutes.findSome? fun m =>
    if h = hour ∧ m < minute then none else s.timeInMinute hour minute second h m

theorem firstTime_eq (s : Schedule) (hour minute second : Nat) :
    s.firstTime hour minute second = s.hours.findSome? fun h =>
      if h < hour then none else s.timeInHour hour minute second h := rfl

theorem of_timeInMinute (found : s.timeInMinute hour minute second h m = some time) :
    time.1 = h ∧ time.2.1 = m ∧ time.2.2 ∈ s.seconds := by
  obtain ⟨sec, hsec, hfound⟩ := List.exists_of_findSome?_eq_some found
  obtain ⟨-, hfound⟩ := Option.ite_none_left_eq_some.1 hfound
  obtain rfl := Option.some.inj hfound
  exact ⟨rfl, rfl, hsec⟩

theorem of_timeInHour (found : s.timeInHour hour minute second h = some time) :
    time.1 = h ∧ time.2.1 ∈ s.minutes ∧ time.2.2 ∈ s.seconds := by
  obtain ⟨m, hm, hfound⟩ := List.exists_of_findSome?_eq_some found
  obtain ⟨-, hfound⟩ := Option.ite_none_left_eq_some.1 hfound
  obtain ⟨hhour, hminute, hsecond⟩ := of_timeInMinute hfound
  exact ⟨hhour, hminute ▸ hm, hsecond⟩

theorem mem_of_firstTime (found : s.firstTime hour minute second = some time) :
    time.1 ∈ s.hours ∧ time.2.1 ∈ s.minutes ∧ time.2.2 ∈ s.seconds := by
  obtain ⟨h, hh, hfound⟩ := List.exists_of_findSome?_eq_some found
  obtain ⟨-, hfound⟩ := Option.ite_none_left_eq_some.1 hfound
  obtain ⟨hhour, hminute, hsecond⟩ := of_timeInHour hfound
  exact ⟨hhour ▸ hh, hminute, hsecond⟩

/-- The first admitted time of day from a given one on is not after any other. -/
theorem firstTime_le {sec : Nat} (hs : s.Ordered) (hh : h ∈ s.hours) (hm : m ∈ s.minutes)
    (hsec : sec ∈ s.seconds)
    (hle : hour * 3600 + minute * 60 + second ≤ h * 3600 + m * 60 + sec) (hminute : minute < 60)
    (hsecond : second < 60) :
    ∃ time, s.firstTime hour minute second = some time ∧
      time.1 * 3600 + time.2.1 * 60 + time.2.2 ≤ h * 3600 + m * 60 + sec := by
  have hm60 := hs.minutes.lt m hm
  have hsec60 := hs.seconds.lt sec hsec
  rw [firstTime_eq]
  refine exists_findSome?_of_mem hs.hours.pairwise hh ?_ ?_
  · rw [if_neg (by omega)]
    refine exists_findSome?_of_mem hs.minutes.pairwise hm ?_ ?_
    · rw [if_neg (by omega)]
      refine exists_findSome?_of_mem hs.seconds.pairwise hsec ?_ ?_
      · exact ⟨(h, m, sec), if_neg (by omega), Nat.le_refl _⟩
      · intro sec' _ hlt time found
        obtain ⟨-, hfound⟩ := Option.ite_none_left_eq_some.1 found
        obtain rfl := Option.some.inj hfound
        exact Nat.add_le_add_left (Nat.le_of_lt hlt) _
    · intro m' _ hlt time found
      obtain ⟨-, hfound⟩ := Option.ite_none_left_eq_some.1 found
      obtain ⟨rfl, rfl, hmem⟩ := of_timeInMinute hfound
      have hbelow := hs.seconds.lt _ hmem
      clear hle
      omega
  · intro h' _ hlt time found
    obtain ⟨-, hfound⟩ := Option.ite_none_left_eq_some.1 found
    obtain ⟨rfl, hmem, hmem'⟩ := of_timeInHour hfound
    have hbelow := hs.minutes.lt _ hmem
    have hbelow' := hs.seconds.lt _ hmem'
    clear hle
    omega

end Time

section Dates

variable {year month day : Nat}

/-- The first admitted second on a day. -/
def onDay (s : Schedule) (start : Civil) (year month day : Nat) : Option Civil :=
  let date : Date := ⟨year, month, day⟩
  let first := year = start.date.year ∧ month = start.date.month
  if first ∧ day < start.date.day then none
  else if s.admitsDate date then
    let time :=
      if first ∧ day = start.date.day then
        s.firstTime start.hour start.minute start.second
      else s.firstTime 0 0 0
    time.map fun t => ⟨date, t.1, t.2.1, t.2.2, 0⟩
  else none

/-- The first admitted second in a month. -/
def inMonth (s : Schedule) (start : Civil) (year month : Nat) : Option Civil :=
  s.daysOfMonth.findSome? (s.onDay start year month)

/-- The first admitted second in a year. -/
def inYear (s : Schedule) (start : Civil) (year : Nat) : Option Civil :=
  s.months.findSome? fun month =>
    if year = start.date.year ∧ month < start.date.month then none else s.inMonth start year month

theorem firstFrom_eq (s : Schedule) (start : Civil) :
    s.firstFrom start = s.years.findSome? fun (year : Nat) =>
      if (year : Int) < start.date.year then none else s.inYear start year := rfl

theorem of_onDay (found : s.onDay start year month day = some c) :
    c.date = ⟨year, month, day⟩ ∧ s.admitsDate c.date = true ∧ c.nanos = 0 ∧
      c.hour ∈ s.hours ∧ c.minute ∈ s.minutes ∧ c.second ∈ s.seconds := by
  obtain ⟨-, hfound⟩ := Option.ite_none_left_eq_some.1 found
  obtain ⟨hadmits, hfound⟩ := Option.ite_none_right_eq_some.1 hfound
  obtain ⟨time, htime, rfl⟩ := Option.map_eq_some_iff.1 hfound
  refine ⟨rfl, hadmits, rfl, ?_⟩
  split at htime
  · exact mem_of_firstTime htime
  · exact mem_of_firstTime htime

theorem of_inYear (found : s.inYear start year = some c) :
    ∃ month ∈ s.months, ∃ day ∈ s.daysOfMonth, s.onDay start year month day = some c := by
  obtain ⟨month, hmonth, hfound⟩ := List.exists_of_findSome?_eq_some found
  obtain ⟨-, hfound⟩ := Option.ite_none_left_eq_some.1 hfound
  exact ⟨month, hmonth, List.exists_of_findSome?_eq_some hfound⟩

theorem admits_of_firstFrom (h : s.firstFrom start = some c) : c.date.isValid ∧ s.Admits c := by
  obtain ⟨year, hyear, hfound⟩ := List.exists_of_findSome?_eq_some h
  obtain ⟨-, hfound⟩ := Option.ite_none_left_eq_some.1 hfound
  obtain ⟨month, hmonth, day, hday, hfound⟩ := of_inYear hfound
  obtain ⟨hdate, hadmits, whole, hour, minute, second⟩ := of_onDay hfound
  simp only [admitsDate, Bool.and_eq_true, List.contains_iff_mem] at hadmits
  have hfields : c.date.year = year ∧ c.date.month = month ∧ c.date.day = day := by
    rw [hdate]
    exact ⟨rfl, rfl, rfl⟩
  obtain ⟨hyear', rfl, rfl⟩ := hfields
  exact ⟨hadmits.1, ⟨year, hyear, hyear'⟩, hmonth, hday, hadmits.2, hour, minute, second, whole⟩

/-- The first admitted second from a civil time on is not after any other. -/
theorem firstFrom_notLater (hs : s.Ordered) (hvalid : v.date.isValid) (hv : s.Admits v)
    (hminute : start.minute < 60) (hsecond : start.second < 60) (hle : start.NotLater v) :
    ∃ c, s.firstFrom start = some c ∧ c.NotLater v := by
  obtain ⟨⟨year, month, day⟩, hour, minute, second, nanos⟩ := v
  obtain ⟨⟨year, hyear, rfl⟩, hmonth, hday, hweekday, hhour, hmin, hsec, -⟩ := hv
  simp only at hmonth hday hhour hmin hsec
  -- The civil times in the order of the search.
  have horder : start.date.year < year ∨ (start.date.year = year ∧ (start.date.month < month ∨
      (start.date.month = month ∧ (start.date.day < day ∨ (start.date.day = day ∧
        start.hour * 3600 + start.minute * 60 + start.second ≤
          hour * 3600 + minute * 60 + second))))) := by
    rcases hle with hbefore | ⟨hsame, htime⟩
    · simp only [Date.Before] at hbefore
      omega
    · rw [hsame]
      exact .inr ⟨rfl, .inr ⟨rfl, .inr ⟨rfl, htime⟩⟩⟩
  rw [firstFrom_eq]
  refine exists_findSome?_of_mem hs.years hyear ?_ ?_
  · rw [if_neg (by omega)]
    refine exists_findSome?_of_mem hs.months hmonth ?_ ?_
    · rw [if_neg (by omega)]
      refine exists_findSome?_of_mem hs.daysOfMonth hday ?_ ?_
      · have hadmits : s.admitsDate ⟨year, month, day⟩ = true := by
          simp only [admitsDate, Bool.and_eq_true, List.contains_iff_mem]
          exact ⟨hvalid, hweekday⟩
        have hguard : ¬ (((year : Int) = start.date.year ∧ month = start.date.month) ∧
            day < start.date.day) := by omega
        unfold onDay
        simp only [if_neg hguard, hadmits, if_true]
        split
        · have hfrom : start.hour * 3600 + start.minute * 60 + start.second ≤
              hour * 3600 + minute * 60 + second := by omega
          obtain ⟨time, htime, hle⟩ := firstTime_le hs hhour hmin hsec hfrom hminute hsecond
          rw [htime]
          exact ⟨_, rfl, .inr ⟨rfl, hle⟩⟩
        · have hfrom : 0 * 3600 + 0 * 60 + 0 ≤ hour * 3600 + minute * 60 + second := Nat.zero_le _
          obtain ⟨time, htime, hle⟩ :=
            firstTime_le hs hhour hmin hsec hfrom (Nat.zero_lt_succ _) (Nat.zero_lt_succ _)
          rw [htime]
          exact ⟨_, rfl, .inr ⟨rfl, hle⟩⟩
      · intro day' _ hlt c found
        refine .inl ?_
        rw [(of_onDay found).1]
        exact .inr ⟨rfl, .inr ⟨rfl, hlt⟩⟩
    · intro month' _ hlt c found
      obtain ⟨-, hfound⟩ := Option.ite_none_left_eq_some.1 found
      obtain ⟨day', -, hfound⟩ := List.exists_of_findSome?_eq_some hfound
      refine .inl ?_
      rw [(of_onDay hfound).1]
      exact .inr ⟨rfl, .inl hlt⟩
  · intro year' _ hlt c found
    obtain ⟨-, hfound⟩ := Option.ite_none_left_eq_some.1 found
    obtain ⟨month', -, day', -, hfound⟩ := of_inYear hfound
    refine .inl ?_
    rw [(of_onDay hfound).1]
    exact .inl (Int.ofNat_lt.2 hlt)

end Dates

/-! ## The next fire time -/

/-- A whole second after an instant does not lie before the second in which the search begins. -/
theorem exists_start {v : Instant} (h : t < v) (whole : v.civil.nanos = 0) :
    ∃ start, t.add? (.ofSecs 1) = some start ∧ t.nanos < start.civil.seconds * 1000000000 ∧
      start.civil.NotLater v.civil := by
  have hlt : t.nanos < v.nanos := h
  have hwhole : v.nanos % 1000000000 = 0 := by
    have hsub : (v.nanos % 1000000000).toNat = 0 := whole
    omega
  have hlow := t.min_le
  have hhigh := v.le_max
  have hmax : Instant.maxNanos % 1000000000 = 999999999 := by decide
  let start : Instant := ⟨t.nanos + 1000000000, by omega, by omega⟩
  have hstart : t.add? (.ofSecs 1) = some start :=
    dif_pos (⟨start.min_le, start.le_max⟩ : _ ∧ _)
  have hnanos : start.nanos = t.nanos + 1000000000 := rfl
  refine ⟨start, hstart, ?_, ?_⟩
  · rw [start.seconds_civil]
    omega
  · refine Civil.notLater_of_seconds_le ?_ start.isValid_civil v.isValid_civil
      v.secondOfDay_civil_lt
    rw [start.seconds_civil, v.seconds_civil]
    omega

/-- What is found is an instant at which the schedule fires. -/
theorem fires_of_next? (hs : s.Ordered) (h : s.next? t = some u) : s.Fires u := by
  unfold next? at h
  split at h
  · cases h
  · obtain ⟨start, -, h⟩ := Option.bind_eq_some_iff.1 h
    obtain ⟨c, hc, h⟩ := Option.bind_eq_some_iff.1 h
    obtain ⟨hvalid, hadmits⟩ := admits_of_firstFrom hc
    have hcivil : u.civil = c := by
      refine Instant.civil_of_nanos_eq hvalid (hs.hours.lt _ hadmits.hour)
        (hs.minutes.lt _ hadmits.minute) (hs.seconds.lt _ hadmits.second) ?_
        (Instant.nanos_of_ofNanos? h)
      rw [hadmits.whole]
      decide
    unfold Fires
    rw [hcivil]
    exact hadmits

/-- What is found is not after any other fire time, and something is found if there is one. -/
theorem exists_next?_le {v : Instant} (hs : s.Ordered) (hyear : 0 ≤ t.civil.date.year) (hlt : t < v)
    (hv : s.Fires v) : ∃ u, s.next? t = some u ∧ u ≤ v := by
  obtain ⟨start, hstart, hfrom, hle⟩ := exists_start hlt hv.whole
  have hminute : start.civil.minute < 60 := Nat.mod_lt _ (by decide)
  have hsecond : start.civil.second < 60 := Nat.mod_lt _ (by decide)
  obtain ⟨c, hc, hcv⟩ := firstFrom_notLater hs v.isValid_civil hv hminute hsecond hle
  obtain ⟨hvalid, hadmits⟩ := admits_of_firstFrom hc
  have hstartc : start.civil.NotLater c :=
    (firstFrom_cases hminute hsecond hc).2.imp_right fun h => ⟨h.1.symm, h.2⟩
  have htime := Civil.secondOfDay_lt (hs.hours.lt _ hadmits.hour) (hs.minutes.lt _ hadmits.minute)
    (hs.seconds.lt _ hadmits.second)
  have hlow := hstartc.seconds_le start.isValid_civil hvalid start.secondOfDay_civil_lt
  have hhigh := hcv.seconds_le hvalid v.isValid_civil htime
  have hnanos : c.toNanos = c.seconds * 1000000000 := by
    rw [Civil.toNanos_eq, hadmits.whole]
    exact Int.add_zero _
  have hmin := t.min_le
  have hmax := v.le_max
  rw [v.seconds_civil] at hhigh
  let u : Instant := ⟨c.toNanos, by omega, by omega⟩
  have hu : Instant.ofNanos? c.toNanos = some u := dif_pos (⟨u.min_le, u.le_max⟩ : _ ∧ _)
  refine ⟨u, ?_, ?_⟩
  · unfold next?
    rw [if_neg (Int.not_lt_of_ge hyear), hstart, Option.bind_some, hc, Option.bind_some, hu]
  · change c.toNanos ≤ v.nanos
    omega

/-- The next fire time is the least instant after the given one at which the schedule fires. -/
theorem next?_eq_some_iff (hs : s.Ordered) (hyear : 0 ≤ t.civil.date.year) :
    s.next? t = some u ↔ IsLeast {v | t < v ∧ s.Fires v} u := by
  constructor
  · intro h
    refine ⟨⟨lt_of_next? h, fires_of_next? hs h⟩, ?_⟩
    rintro v ⟨hlt, hv⟩
    obtain ⟨w, hw, hle⟩ := exists_next?_le hs hyear hlt hv
    obtain rfl := Option.some.inj (h.symm.trans hw)
    exact hle
  · rintro ⟨⟨hlt, hu⟩, hleast⟩
    obtain ⟨w, hw, hle⟩ := exists_next?_le hs hyear hlt hu
    have hge : u ≤ w := hleast ⟨lt_of_next? hw, fires_of_next? hs hw⟩
    rw [hw, Instant.ext_nanos (Int.le_antisymm hle hge)]

/-! ## Previews -/

/-- A list is what a preview of `count` fire times after an instant shows: each is the next one
after the one before it, and there are fewer only if the schedule ends. -/
structure Lists (s : Schedule) (after : Instant) (count : Nat) (times : List Instant) : Prop where
  length_le : times.length ≤ count
  chain : (after :: times).IsChain fun a b => s.next? a = some b
  short : times.length < count → s.next? (times.getLast?.getD after) = none

theorem lists_upcoming (s : Schedule) (count : Nat) (after : Instant) :
    s.Lists after count (s.upcoming count after) := by
  induction count generalizing after with
  | zero => exact ⟨Nat.le_refl 0, .singleton after, fun h => absurd h (Nat.lt_irrefl 0)⟩
  | succ count ih =>
    unfold upcoming
    split
    · rename_i hnone
      exact ⟨Nat.zero_le _, .singleton after, fun _ => hnone⟩
    · rename_i time hsome
      obtain ⟨hlength, hchain, hshort⟩ := ih time
      refine ⟨Nat.succ_le_succ hlength, .cons_cons hsome hchain, ?_⟩
      intro hlt
      rw [List.getLast?_cons]
      exact hshort (Nat.lt_of_succ_lt_succ hlt)

namespace Lists

variable {after : Instant} {count : Nat} {times : List Instant}

theorem pairwise (h : s.Lists after count times) : (after :: times).Pairwise (· < ·) := by
  have htrans : IsTrans Instant (· < ·) := ⟨fun _ _ _ hab hbc => Int.lt_trans hab hbc⟩
  exact (h.chain.imp fun _ _ hnext => lt_of_next? hnext).pairwise

/-- What follows the first time is a preview from it. -/
theorem tail {time : Instant} (h : s.Lists after (count + 1) (time :: times)) :
    s.next? after = some time ∧ s.Lists time count times := by
  obtain ⟨hlength, hchain, hshort⟩ := h
  obtain ⟨hnext, hrest⟩ := List.isChain_cons_cons.1 hchain
  refine ⟨hnext, Nat.le_of_succ_le_succ hlength, hrest, ?_⟩
  intro hlt
  have hlast := hshort (Nat.succ_lt_succ hlt)
  rw [List.getLast?_cons] at hlast
  exact hlast

theorem fires (h : s.Lists after count times) (hs : s.Ordered) : ∀ t ∈ times, s.Fires t := by
  induction times generalizing after count with
  | nil =>
    intro t ht
    cases ht
  | cons time rest ih =>
    obtain ⟨count, rfl⟩ := Nat.exists_eq_succ_of_ne_zero
      (Nat.ne_of_gt (Nat.lt_of_lt_of_le (Nat.succ_pos _) h.length_le))
    obtain ⟨hnext, htail⟩ := h.tail
    intro t ht
    rcases List.mem_cons.1 ht with rfl | hmem
    · exact fires_of_next? hs hnext
    · exact ih htail t hmem

/-- A preview leaves no fire time out but those after its end. -/
theorem mem_or_full {v : Instant} (h : s.Lists after count times) (hs : s.Ordered)
    (hyear : 0 ≤ after.civil.date.year) (hlt : after < v) (hv : s.Fires v) :
    v ∈ times ∨ (times.length = count ∧ ∀ t ∈ times, t < v) := by
  induction times generalizing after count with
  | nil =>
    rcases Nat.eq_zero_or_pos count with rfl | hpos
    · exact .inr ⟨rfl, fun t ht => nomatch ht⟩
    · obtain ⟨u, hu, -⟩ := exists_next?_le hs hyear hlt hv
      exact absurd ((h.short hpos).symm.trans hu) (Option.some_ne_none u).symm
  | cons time rest ih =>
    obtain ⟨count, rfl⟩ := Nat.exists_eq_succ_of_ne_zero
      (Nat.ne_of_gt (Nat.lt_of_lt_of_le (Nat.succ_pos _) h.length_le))
    obtain ⟨hnext, htail⟩ := h.tail
    have htime := fires_of_next? hs hnext
    have hle : time ≤ v := ((next?_eq_some_iff hs hyear).1 hnext).2 ⟨hlt, hv⟩
    rcases Int.lt_or_eq_of_le hle with hless | hsame
    · have hyear' : 0 ≤ time.civil.date.year := by
        obtain ⟨year, -, hyear'⟩ := htime.year
        rw [hyear']
        exact Int.natCast_nonneg year
      rcases ih htail hyear' hless with hmem | ⟨hfull, hbefore⟩
      · exact .inl (List.mem_cons_of_mem time hmem)
      · refine .inr ⟨congrArg Nat.succ hfull, ?_⟩
        intro t ht
        rcases List.mem_cons.1 ht with rfl | hmem
        · exact hless
        · exact hbefore t hmem
    · exact .inl (List.mem_cons.2 (.inl (Instant.ext_nanos hsame.symm)))

end Lists

end Schedule

/-! ## Expressions -/

variable {expression : String} {s : Schedule} {t u : Instant}

theorem CronError.reason_fieldCount_ne (found : Nat) :
    (fieldCount found).reason ≠ "schedule never fires again" := by
  intro h
  have hlist : ("expected 5, 6 or 7 fields, found " ++ toString found).toList =
      "schedule never fires again".toList := congrArg String.toList h
  rw [String.toList_append] at hlist
  exact absurd (congrArg List.head? hlist) (by simp)

theorem CronError.reason_malformed_ne : malformed.reason ≠ "schedule never fires again" := by
  change "not a valid cron expression" ≠ "schedule never fires again"
  decide

/-- An expression has a schedule, or it is rejected for another cause than that it never fires. -/
theorem parse_cases (expression : String) :
    (∃ s, parse expression = .ok s ∧ s.Ordered) ∨
      ∃ e, parse expression = .error e ∧ e.reason ≠ "schedule never fires again" := by
  unfold parse
  simp only
  split
  case h_4 => exact .inr ⟨_, rfl, CronError.reason_fieldCount_ne _⟩
  all_goals
    split
    · rename_i s hread
      obtain ⟨x, -, hx⟩ := Option.bind_eq_some_iff.1 hread
      exact .inl ⟨s, rfl, Schedule.ordered_of_ofSyntax? hx⟩
    · exact .inr ⟨_, rfl, CronError.reason_malformed_ne⟩

theorem nextFireAfter_eq_ok_iff (h : parse expression = .ok s) :
    nextFireAfter expression t = .ok u ↔ s.next? t = some u := by
  unfold nextFireAfter
  cases hnext : s.next? t <;> simp [h, hnext]

theorem nextFireAfter_of_none (h : parse expression = .ok s) (hnone : s.next? t = none) :
    nextFireAfter expression t = .error .neverFires := by
  simp [nextFireAfter, h, hnone]

theorem upcoming_of_parse (h : parse expression = .ok s) (count : Nat) :
    upcoming expression t count = .ok (s.upcoming count t) := by
  simp [upcoming, h, Except.map]

/-- An expression that cannot be read is rejected by both alike. -/
theorem rejected_of_parse {e : CronError} (h : parse expression = .error e) (count : Nat) :
    upcoming expression t count = .error e ∧ nextFireAfter expression t = .error e := by
  simp [upcoming, nextFireAfter, h, Except.map]

/-- A preview and the next fire time reject the same expressions for the same reasons, but for a
schedule that never fires again. Otherwise the preview shows the first fire times after the given
instant, each of which is the next one after the one before it, and all of them if they are fewer
than were asked for. A schedule has no next time in the years before the first one, whatever comes
later. -/
theorem upcoming_lists_fire_times (expression : String) (after : Instant) (count : Nat) :
    (∀ e, (upcoming expression after count).mapError (·.toError expression) = .error e ↔
      (nextFireAfter expression after).mapError (·.toError expression) = .error e ∧
        e ≠ .invalidCron expression "schedule never fires again") ∧
    ∀ times, upcoming expression after count = .ok times →
      times.length ≤ count ∧ (after :: times).Pairwise (· < ·) ∧
      (after :: times).IsChain (fun a b => nextFireAfter expression a = .ok b) ∧
      (times.length < count →
        (nextFireAfter expression (times.getLast?.getD after)).mapError (·.toError expression) =
          .error (.invalidCron expression "schedule never fires again")) ∧
      ∃ s, parse expression = .ok s ∧ (∀ t ∈ times, s.Fires t) ∧
        (0 ≤ after.civil.date.year → ∀ v, after < v → s.Fires v →
          v ∈ times ∨ (times.length = count ∧ ∀ t ∈ times, t < v)) := by
  rcases parse_cases expression with ⟨s, hparse, hs⟩ | ⟨cause, hparse, hreason⟩
  · have hlists := s.lists_upcoming count after
    have hupcoming := upcoming_of_parse (t := after) hparse count
    refine ⟨?_, ?_⟩
    · intro e
      rw [hupcoming]
      constructor
      · intro h
        cases h
      · rintro ⟨hnext, hother⟩
        cases hfirst : s.next? after with
        | some time =>
          rw [(nextFireAfter_eq_ok_iff hparse).2 hfirst] at hnext
          cases hnext
        | none =>
          rw [nextFireAfter_of_none hparse hfirst] at hnext
          exact absurd (Except.error.inj hnext).symm hother
    · intro times htimes
      obtain rfl := Except.ok.inj (hupcoming.symm.trans htimes)
      refine ⟨hlists.length_le, hlists.pairwise, ?_, ?_, s, hparse, hlists.fires hs, ?_⟩
      · exact hlists.chain.imp fun _ _ => (nextFireAfter_eq_ok_iff hparse).2
      · intro hshort
        rw [nextFireAfter_of_none hparse (hlists.short hshort)]
        rfl
      · intro hyear v
        exact hlists.mem_or_full hs hyear
  · obtain ⟨hupcoming, hnext⟩ := rejected_of_parse (t := after) hparse count
    rw [hupcoming, hnext]
    refine ⟨?_, fun times h => nomatch h⟩
    intro e
    constructor
    · intro h
      obtain rfl := Except.error.inj h
      refine ⟨rfl, ?_⟩
      intro hsame
      exact hreason (Option.some.inj (congrArg EngineError.internalMessage hsame))
    · rintro ⟨h, -⟩
      exact congrArg Except.error (Except.error.inj h)

end Cron

end JobEngine
