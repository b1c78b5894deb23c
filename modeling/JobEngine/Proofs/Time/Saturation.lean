-- SUMMARY: Instants with saturating arithmetic compare as unbounded numbers of nanoseconds.
import JobEngine.Time.Instant

/-!
# Saturating arithmetic on instants

Adding a duration cuts the sum off at the last instant, subtracting one cuts the difference off at
the first. A duration that is no span is longer than the whole calendar, so it is cut off as well.
What is cut off keeps its order. No instant lies beyond either end, so a strict comparison with a
result that was cut off comes out as it would without an end.
-/

namespace JobEngine

namespace Duration

theorem secs_lt (d : Duration) : d.secs < UInt64.size :=
  Nat.div_lt_of_lt_mul (Nat.mul_comm _ _ ▸ d.lt_limit)

/-- A 64-bit number of seconds is a duration. -/
theorem nanos_ofSecs {n : Nat} (h : n < UInt64.size) : (ofSecs n).nanos = n * 1000000000 := by
  have hlt : n * 1000000000 < limit := Nat.mul_lt_mul_of_pos_right h (by decide)
  exact Nat.min_eq_left (Nat.le_sub_one_of_lt hlt)

end Duration

namespace Instant

variable {t u : Instant} {d e : Duration}

/-- A number of nanoseconds, cut off at either end of the calendar. -/
def clip (n : Int) : Int := Max.max minNanos (Min.min n maxNanos)

theorem clip_le_clip {m n : Int} (h : m ≤ n) : clip m ≤ clip n := by
  unfold clip
  omega

theorem nanos_of_ofNanos? {n : Int} (h : ofNanos? n = some t) : t.nanos = n := by
  unfold ofNanos? at h
  split at h
  · cases h
    rfl
  · cases h

theorem out_of_range_of_ofNanos? {n : Int} (h : ofNanos? n = none) :
    n < minNanos ∨ maxNanos < n := by
  unfold ofNanos? at h
  split at h
  · cases h
  · rename_i hrange
    omega

/-- The whole calendar is shorter than the shortest duration that is no span. -/
theorem calendar_lt_of_span? (h : d.span? = none) : maxNanos - minNanos < d.nanos := by
  unfold Duration.span? at h
  split at h
  · cases h
  · rename_i hlong
    simp only [wordLimit] at hlong
    simp only [maxNanos, minNanos]
    omega

theorem span?_eq_some {n : Nat} (h : d.span? = some n) : n = d.nanos := by
  unfold Duration.span? at h
  split at h
  · exact (Option.some.inj h).symm
  · cases h

theorem nanos_add (t : Instant) (d : Duration) :
    (t.add d).nanos = Min.min (t.nanos + d.nanos) maxNanos := by
  have hmin := t.min_le
  have hmax := t.le_max
  unfold add add?
  cases hspan : d.span? with
  | none =>
    have hlong := calendar_lt_of_span? hspan
    change maxNanos = _
    omega
  | some n =>
    obtain rfl := span?_eq_some hspan
    cases hsum : ofNanos? (t.nanos + d.nanos) with
    | none =>
      have hout := out_of_range_of_ofNanos? hsum
      simp only [Option.bind_some, hsum, Option.getD_none]
      change maxNanos = _
      omega
    | some u =>
      have hu := nanos_of_ofNanos? hsum
      have hle := u.le_max
      simp only [Option.bind_some, hsum, Option.getD_some]
      omega

theorem nanos_sub (t : Instant) (d : Duration) :
    (t.sub d).nanos = Max.max (t.nanos - d.nanos) minNanos := by
  have hmin := t.min_le
  have hmax := t.le_max
  unfold sub sub?
  cases hspan : d.span? with
  | none =>
    have hlong := calendar_lt_of_span? hspan
    change minNanos = _
    omega
  | some n =>
    obtain rfl := span?_eq_some hspan
    cases hdiff : ofNanos? (t.nanos - d.nanos) with
    | none =>
      have hout := out_of_range_of_ofNanos? hdiff
      simp only [Option.bind_some, hdiff, Option.getD_none]
      change minNanos = _
      omega
    | some u =>
      have hu := nanos_of_ofNanos? hdiff
      have hle := u.min_le
      simp only [Option.bind_some, hdiff, Option.getD_some]
      omega

theorem nanos_add_eq_clip (t : Instant) (d : Duration) :
    (t.add d).nanos = clip (t.nanos + d.nanos) := by
  have hmin := t.min_le
  rw [nanos_add, clip]
  simp only [minNanos, maxNanos] at hmin ⊢
  omega

theorem nanos_sub_eq_clip (t : Instant) (d : Duration) :
    (t.sub d).nanos = clip (t.nanos - d.nanos) := by
  have hmax := t.le_max
  rw [nanos_sub, clip]
  simp only [minNanos, maxNanos] at hmax ⊢
  omega

/-! ## Order -/

/-- Sums grow with the instant and with the duration. -/
theorem add_le_add (ht : t ≤ u) (hd : d ≤ e) : t.add d ≤ u.add e := by
  change (t.add d).nanos ≤ (u.add e).nanos
  have ht : t.nanos ≤ u.nanos := ht
  have hd : d.nanos ≤ e.nanos := hd
  rw [nanos_add_eq_clip, nanos_add_eq_clip]
  exact clip_le_clip (by omega)

/-- Differences grow with the instant and fall with the duration. -/
theorem sub_le_sub (ht : t ≤ u) (hd : d ≤ e) : t.sub e ≤ u.sub d := by
  change (t.sub e).nanos ≤ (u.sub d).nanos
  have ht : t.nanos ≤ u.nanos := ht
  have hd : d.nanos ≤ e.nanos := hd
  rw [nanos_sub_eq_clip, nanos_sub_eq_clip]
  exact clip_le_clip (by omega)

theorem le_add (t : Instant) (d : Duration) : t ≤ t.add d := by
  change t.nanos ≤ (t.add d).nanos
  have hmax := t.le_max
  rw [nanos_add]
  omega

/-- Whether a duration has passed since an instant. -/
theorem add_lt_iff : t.add d < u ↔ t.nanos + d.nanos < u.nanos := by
  have hu := u.le_max
  change (t.add d).nanos < u.nanos ↔ _
  rw [nanos_add]
  omega

/-- Whether an instant lies further back than a duration. -/
theorem lt_sub_iff : u < t.sub d ↔ u.nanos + d.nanos < t.nanos := by
  have hu := u.min_le
  change u.nanos < (t.sub d).nanos ↔ _
  rw [nanos_sub]
  omega

end Instant

end JobEngine
