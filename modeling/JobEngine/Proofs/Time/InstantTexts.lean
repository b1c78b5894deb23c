-- SUMMARY: An instant is read back from its text.
import JobEngine.Proofs.Text.Digits
import JobEngine.Proofs.Time.Calendar
import JobEngine.Time.Rfc3339

/-!
# Instants as texts

Each reader takes from the front of a text exactly what the writer of its field put there, so
reading a text gives the civil time that it was written from. That civil time is one of the
calendar, and its instant is the one it was read from.
-/

namespace JobEngine

/-! ## The civil time of an instant -/

/-- A year that begins in March has a leap day at its end if the next year of the calendar is a leap
year. -/
theorem yearStart_succ (y : Int) :
    yearStart (y + 1) = yearStart y + if Date.isLeapYear (y + 1) then 366 else 365 := by
  simp only [yearStart, Date.isLeapYear, decide_eq_true_eq]
  split <;> omega

theorem Date.daysInMonth_le (year : Int) (month : Nat) : daysInMonth year month ≤ 31 := by
  rw [daysInMonth.eq_def]
  split
  · split <;> omega
  all_goals omega

theorem Date.isValid_ofDayNumber (n : Int) : (ofDayNumber n).isValid := by
  obtain ⟨dayOfYear, ⟨hlow, hhigh⟩, hnonneg, hyear, hend, hmarch, hday⟩ := ofDayNumber_spec n
  rw [yearStart_succ] at hend
  generalize ofDayNumber n = d at *
  obtain ⟨year, month, day⟩ := d
  simp only [marchYear, marchMonth, monthStart] at *
  have hlong : day ≤ daysInMonth year month := by
    rw [daysInMonth.eq_def]
    split
    · -- February ends the year.
      simp only [Nat.le_refl, if_true, Int.sub_add_cancel] at *
      split at hend <;> rename_i hleap
      · rw [if_pos hleap]
        omega
      · rw [if_neg hleap]
        omega
    all_goals
      split at hmarch <;> omega
  simp only [isValid, decide_eq_true_eq]
  omega

namespace Instant

variable (t : Instant)

/-- The fields of a civil time are in the ranges of their digits. -/
theorem civil_ranges : t.civil.date.month < 100 ∧ t.civil.date.day < 100 ∧ t.civil.hour < 24 ∧
    t.civil.minute < 60 ∧ t.civil.second < 60 ∧ t.civil.nanos < 1000000000 := by
  have hvalid : t.civil.date.isValid := Date.isValid_ofDayNumber _
  have hlong := Date.daysInMonth_le t.civil.date.year t.civil.date.month
  simp only [Date.isValid, decide_eq_true_eq] at hvalid
  refine ⟨by omega, by omega, ?_⟩
  simp only [civil, subsecNanos]
  omega

/-! ## Readers -/

theorem skipBlanks_of_digit {c : Char} {cs : List Char} (h : isDigit c) :
    skipBlanks (c :: cs) = c :: cs := by
  simp [skipBlanks, isBlank_of_isDigit h]

/-- A number of a fixed width is taken whole. -/
theorem readNumber?_append {ds rest : List Char} {width n : Nat} (h : Spells ds n)
    (hlength : ds.length = width) : readNumber? width (ds ++ rest) = some (n, rest) := by
  have hskip : skipBlanks (ds ++ rest) = ds ++ rest := by
    obtain ⟨d, ds, rfl, hdigit⟩ := h.exists_cons
    exact skipBlanks_of_digit hdigit
  have htake : ((ds ++ rest).take width).takeWhile isDigit = ds := by
    rw [← hlength, List.take_left, h.takeWhile_eq]
  have hne : ds.isEmpty = false := by simpa using h.ne_nil
  simp [readNumber?, hskip, htake, hne, h.value]

/-- Two digits are taken as the number that they were written for. -/
theorem readNumber?_padded {n : Nat} {rest : List Char} (hn : n < 100) :
    readNumber? 2 ((padded 2 n).toList ++ rest) = some (n, rest) :=
  readNumber?_append (spells_padded 2 n) (length_padded (by decide) hn)

theorem readChar?_cons {c : Char} {rest : List Char} (hc : isBlank c = false) :
    readChar? c (c :: rest) = some rest := by
  simp [readChar?, skipBlanks, hc]

theorem readYear?_yearText {year : Int} {rest : List Char} (hrest : NoDigitFirst rest) :
    readYear? ((yearText year).toList ++ rest) = some (year, rest) := by
  rw [yearText]
  split
  · rename_i hyear
    have hspells := spells_padded 4 year.toNat
    have hlength : (padded 4 year.toNat).toList.length = 4 := by
      refine length_padded (by decide) ?_
      simp only [tenTo, Nat.pow_eq]
      omega
    have hread : readNumber? 4 ((padded 4 year.toNat).toList ++ rest) = some (year.toNat, rest) :=
      readNumber?_append hspells hlength
    obtain ⟨d, ds, hds, hdigit⟩ := hspells.exists_cons
    rw [hds, List.cons_append] at hread ⊢
    rw [readYear?, skipBlanks_of_digit hdigit]
    split
    · rename_i heq
      obtain ⟨rfl, -⟩ := List.cons.inj heq
      exact absurd hdigit (by decide)
    · rename_i heq
      obtain ⟨rfl, -⟩ := List.cons.inj heq
      exact absurd hdigit (by decide)
    · rw [hread]
      simp only [Option.map_some, Int.toNat_of_nonneg hyear.1]
  · have hspells := spells_padded 4 year.natAbs
    have hne : (padded 4 year.natAbs).toList.isEmpty = false := by simpa using hspells.ne_nil
    split
    · have hyear : -(year.natAbs : Int) = year := by omega
      simp only [readYear?, skipBlanks, String.toList_append, String.reduceToList, List.cons_append,
        ↓Char.isValue, List.nil_append, show isBlank '-' = false from rfl, Bool.false_eq_true,
        not_false_eq_true, List.dropWhile_cons_of_neg, hspells.takeDigits_append hrest, hne,
        ↓reduceIte, hspells.value, hyear]
    · have hyear : (year.natAbs : Int) = year := by omega
      simp only [readYear?, skipBlanks, String.toList_append, String.reduceToList, List.cons_append,
        ↓Char.isValue, List.nil_append, show isBlank '+' = false from rfl, Bool.false_eq_true,
        not_false_eq_true, List.dropWhile_cons_of_neg, hspells.takeDigits_append hrest, hne,
        ↓reduceIte, hspells.value, hyear]

/-- A fraction is written with three, six or nine digits, whichever say it all. -/
theorem fractionText_cases {n : Nat} (hn : n < 1000000000) : (n = 0 ∧ fractionText n = "") ∨
    ∃ width part, (0 < width ∧ width ≤ 9) ∧ part < tenTo width ∧ n = part * tenTo (9 - width) ∧
      fractionText n = "." ++ padded width part := by
  rw [fractionText]
  split
  · exact .inl ⟨by assumption, rfl⟩
  split
  · refine .inr ⟨3, n / 1000000, by decide, ?_, ?_, rfl⟩
    · simp only [tenTo, Nat.pow_eq]
      omega
    · simp only [tenTo, Nat.pow_eq]
      omega
  split
  · refine .inr ⟨6, n / 1000, by decide, ?_, ?_, rfl⟩
    · simp only [tenTo, Nat.pow_eq]
      omega
    · simp only [tenTo, Nat.pow_eq]
      omega
  · refine .inr ⟨9, n, by decide, ?_, ?_, rfl⟩
    · simp only [tenTo, Nat.pow_eq]
      omega
    · simp only [tenTo, Nat.pow_eq]
      omega

theorem readFraction?_fractionText {n : Nat} (hn : n < 1000000000) {rest : List Char}
    (hrest : NoDigitFirst rest) (hpoint : rest.head? ≠ some '.') :
    readFraction? ((fractionText n).toList ++ rest) = some (n, rest) := by
  rcases fractionText_cases hn with ⟨rfl, htext⟩ | ⟨width, part, hwidth, hlt, hpart, htext⟩
  · rw [htext]
    cases rest with
    | nil => rfl
    | cons c rest =>
      have hc : c ≠ '.' := by simpa using hpoint
      simp [readFraction?, hc]
  · have hspells := spells_padded width part
    have hlength : (padded width part).toList.length = width := length_padded hwidth.1 hlt
    have hne : (padded width part).toList.isEmpty = false := by simpa using hspells.ne_nil
    have htake : (padded width part).toList.take 9 = (padded width part).toList :=
      List.take_of_length_le (by omega)
    simp [htext, readFraction?, hspells.takeDigits_append hrest, hne, htake, hspells.value, hlength,
      ← hpart]

theorem readOffset?_zulu : readOffset? ['Z'] = some (0, []) := rfl

/-! ## Texts -/

/-- The characters of a text, field by field. -/
theorem toList_zuluText : t.zuluText.toList =
    (yearText t.civil.date.year).toList ++ '-' :: ((padded 2 t.civil.date.month).toList ++
      '-' :: ((padded 2 t.civil.date.day).toList ++ 'T' :: ((padded 2 t.civil.hour).toList ++
        ':' :: ((padded 2 t.civil.minute).toList ++ ':' :: ((padded 2 t.civil.second).toList ++
          ((fractionText t.subsecNanos).toList ++ ['Z'])))))) := by
  simp [zuluText, civilText]

/-- Midnight of an instant's day lies in the calendar. -/
theorem exists_midnight :
    ∃ m, ofNanos? (t.civil.date.dayNumber * 86400 * 1000000000) = some m := by
  rw [date_civil, Date.dayNumber_ofDayNumber]
  have hlow := t.min_le
  have hhigh := t.le_max
  simp only [minNanos, maxNanos] at hlow hhigh
  exact ⟨_, dif_pos (by simp only [minNanos, maxNanos]; omega)⟩

/-- An instant is read back from its text. -/
theorem parse?_zuluText : parse? t.zuluText = some t := by
  obtain ⟨hmonth, hday, hhour, hminute, hsecond, hnanos⟩ := t.civil_ranges
  have hvalid : t.civil.date.isValid := Date.isValid_ofDayNumber _
  obtain ⟨midnight, hmidnight⟩ := t.exists_midnight
  have hfraction : readFraction? ((fractionText t.subsecNanos).toList ++ ['Z']) =
      some (t.subsecNanos, ['Z']) :=
    readFraction?_fractionText hnanos (by simp [NoDigitFirst]; decide) (by simp)
  have hyear (rest : List Char) : readYear? ((yearText t.civil.date.year).toList ++ '-' :: rest) =
      some (t.civil.date.year, '-' :: rest) :=
    readYear?_yearText (by simp [NoDigitFirst]; decide)
  have hdash (rest : List Char) : readChar? '-' ('-' :: rest) = some rest := readChar?_cons rfl
  have hcolon (rest : List Char) : readChar? ':' (':' :: rest) = some rest := readChar?_cons rfl
  rw [parse?, toList_zuluText]
  rw [bind_of_read (hyear _)]
  dsimp only
  rw [bind_of_read (hdash _), bind_of_read (readNumber?_padded hmonth)]
  dsimp only
  rw [bind_of_read (hdash _), bind_of_read (readNumber?_padded hday)]
  dsimp only
  refine (bind_of_read rfl).trans ?_
  rw [bind_of_read (readNumber?_padded (Nat.lt_trans hhour (by decide)))]
  dsimp only
  rw [bind_of_read (hcolon _),
    bind_of_read (readNumber?_padded (Nat.lt_trans hminute (by decide)))]
  dsimp only
  rw [bind_of_read (hcolon _),
    bind_of_read (readNumber?_padded (Nat.lt_trans hsecond (by decide)))]
  dsimp only
  rw [bind_of_read hfraction]
  dsimp only
  rw [bind_of_read (show readOffset? (skipBlanks ['Z']) = some (0, []) from readOffset?_zulu)]
  dsimp only
  rw [if_pos ⟨rfl, hvalid, hhour, hminute, Nat.le_of_lt hsecond, by decide⟩,
    bind_of_read hmidnight]
  calc ofNanos? (t.civil.toNanos - 0 * 1000000000)
      = ofNanos? t.nanos := by rw [t.toNanos_civil, Int.zero_mul, Int.sub_zero]
    _ = some t := dif_pos ⟨t.min_le, t.le_max⟩

end Instant

end JobEngine
