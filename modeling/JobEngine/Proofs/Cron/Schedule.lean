-- SUMMARY: The next fire time of a schedule lies strictly after the time it is asked for.
import JobEngine.Cron.Schedule
import JobEngine.Proofs.Time.Calendar
import JobEngine.Proofs.Time.Saturation

/-!
# Fire times

The search for a fire time begins with the second after the given instant and passes over everything
earlier, field by field. What it finds is therefore on a later day than its beginning, or on the same
day and not earlier in that day.
-/

namespace JobEngine.Cron.Schedule

variable {s : Schedule} {start : Civil}

/-- The first admitted time of day from a given one on is not before it. -/
theorem le_of_firstTime {hour minute second : Nat} {t : Nat × Nat × Nat} (hminute : minute < 60)
    (hsecond : second < 60) (h : s.firstTime hour minute second = some t) :
    hour * 3600 + minute * 60 + second ≤ t.1 * 3600 + t.2.1 * 60 + t.2.2 := by
  unfold firstTime at h
  obtain ⟨hr, -, h⟩ := List.exists_of_findSome?_eq_some h
  split at h
  · cases h
  · obtain ⟨mi, -, h⟩ := List.exists_of_findSome?_eq_some h
    split at h
    · cases h
    · obtain ⟨se, -, h⟩ := List.exists_of_findSome?_eq_some h
      split at h
      · cases h
      · obtain rfl := Option.some.inj h
        simp only
        omega

/-- What the search finds has a date of the calendar that comes after the date where the search
begins, or it has this date and a time of day that is not earlier. -/
theorem firstFrom_cases {c : Civil} (hminute : start.minute < 60) (hsecond : start.second < 60)
    (h : s.firstFrom start = some c) :
    c.date.isValid ∧ (start.date.Before c.date ∨
      (c.date = start.date ∧ start.secondOfDay ≤ c.secondOfDay)) := by
  unfold firstFrom at h
  obtain ⟨year, -, h⟩ := List.exists_of_findSome?_eq_some h
  split at h
  · cases h
  · rename_i hyear
    obtain ⟨month, -, h⟩ := List.exists_of_findSome?_eq_some h
    split at h
    · cases h
    · rename_i hmonth
      obtain ⟨day, -, h⟩ := List.exists_of_findSome?_eq_some h
      simp only at h
      split at h
      · cases h
      · rename_i hday
        split at h
        · rename_i hadmits
          simp only [admitsDate, Bool.and_eq_true] at hadmits
          obtain ⟨t, ht, rfl⟩ := Option.map_eq_some_iff.1 h
          refine ⟨hadmits.1, ?_⟩
          split at ht
          · rename_i hsame
            obtain ⟨⟨hyear', hmonth'⟩, hday'⟩ := hsame
            refine .inr ⟨?_, le_of_firstTime hminute hsecond ht⟩
            rw [hyear', hmonth', hday']
          · rename_i hother
            refine .inl ?_
            simp only [Date.Before]
            omega
        · cases h

/-- The search begins after the given instant, at the next whole second at the latest. -/
theorem lt_of_next? {t u : Instant} (h : s.next? t = some u) : t < u := by
  unfold next? at h
  split at h
  · cases h
  · obtain ⟨start, hstart, h⟩ := Option.bind_eq_some_iff.1 h
    obtain ⟨c, hc, h⟩ := Option.bind_eq_some_iff.1 h
    have hu := Instant.nanos_of_ofNanos? h
    have hlater : start.nanos = t.nanos + 1000000000 := by
      obtain ⟨n, hspan, hsum⟩ := Option.bind_eq_some_iff.1 hstart
      rw [Instant.nanos_of_ofNanos? hsum, Instant.span?_eq_some hspan]
      rfl
    have hminute : start.civil.minute < 60 := Nat.mod_lt _ (by decide)
    have hsecond : start.civil.second < 60 := Nat.mod_lt _ (by decide)
    have htime := start.secondOfDay_civil
    have hnanos := Int.natCast_nonneg c.nanos
    change t.nanos < u.nanos
    rw [hu, Civil.toNanos_eq]
    obtain ⟨hvalid, hbefore | ⟨hsame, hle⟩⟩ := firstFrom_cases hminute hsecond hc
    · rw [Instant.date_civil] at hbefore
      have hday := Date.lt_dayNumber hvalid hbefore
      omega
    · rw [hsame, Instant.date_civil, Date.dayNumber_ofDayNumber]
      omega

end Schedule

theorem lt_nextFireAfter {expression : String} {t next : Instant}
    (h : nextFireAfter expression t = .ok next) : t < next := by
  unfold nextFireAfter at h
  split at h
  · cases h
  · split at h
    · rename_i s _ time htime
      obtain rfl := Except.ok.inj h
      exact Schedule.lt_of_next? htime
    · cases h

end JobEngine.Cron
