-- SUMMARY: The digits of a number are read back as the number, padded with zeros or not.
import JobEngine.Text.Blank
import JobEngine.Text.Digits

/-!
# Written numbers

`Spells` says that a run of digits stands for a number. Every writer of numbers gives such a run,
and a reader that meets one followed by something else takes exactly the run.
-/

namespace JobEngine

/-- A run of digits that stands for a number. -/
structure Spells (ds : List Char) (n : Nat) : Prop where
  digits : ∀ c ∈ ds, isDigit c
  ne_nil : ds ≠ []
  value : digitsValue ds = n

/-- What follows a number: nothing, or something that is no digit. -/
def NoDigitFirst (cs : List Char) : Prop := ∀ c ∈ cs.head?, isDigit c = false

/-- What was read, and the rest goes on with it. Readers are followed one after the other: rewriting
all at once goes through the later ones again and again. -/
theorem bind_of_read {α β : Type} {o : Option α} {a : α} {rest : α → Option β} (h : o = some a) :
    (o >>= rest) = rest a := by
  rw [h]
  rfl

theorem isDigit_iff {c : Char} : isDigit c ↔ 48 ≤ c.toNat ∧ c.toNat ≤ 57 := by
  simp only [isDigit, Char.le_def, UInt32.le_iff_toNat_le, Bool.and_eq_true, decide_eq_true_eq]
  rfl

theorem isBlank_of_isDigit {c : Char} (h : isDigit c) : isBlank c = false := by
  rw [isDigit_iff] at h
  simp only [isBlank, Bool.or_eq_false_iff, Bool.and_eq_false_imp, beq_eq_false_iff_ne,
    decide_eq_true_eq, decide_eq_false_iff_not]
  omega

theorem digitsValue_eq (ds : List Char) : digitsValue ds = Nat.ofDigitChars 10 ds 0 := by
  simp only [digitsValue, digitValue, Nat.ofDigitChars_eq_foldl, Nat.mul_comm]

/-! ## Writing -/

theorem isDigit_of_mem_toDigits {n : Nat} {c : Char} (h : c ∈ Nat.toDigits 10 n) : isDigit c :=
  Nat.isDigit_of_mem_toDigits (by decide) (by decide) h

theorem spells_toDigits (n : Nat) : Spells (Nat.toDigits 10 n) n where
  digits _ hc := isDigit_of_mem_toDigits hc
  ne_nil := Nat.toDigits_ne_nil
  value := by rw [digitsValue_eq, Nat.ofDigitChars_ten_toDigits]

theorem spells_toString (n : Nat) : Spells (toString n).toList n := by
  rw [Nat.toString_eq_ofList_toDigits, String.toList_ofList]
  exact spells_toDigits n

theorem spells_padded (width n : Nat) : Spells (padded width n).toList n where
  digits c hc := by
    rw [padded, String.toList_ofList, List.mem_append] at hc
    rcases hc with hzero | hdigit
    · obtain ⟨-, rfl⟩ := List.mem_replicate.1 hzero
      rfl
    · exact isDigit_of_mem_toDigits hdigit
  ne_nil := by
    rw [padded, String.toList_ofList]
    exact List.append_ne_nil_of_right_ne_nil _ Nat.toDigits_ne_nil
  value := by
    rw [padded, String.toList_ofList, digitsValue_eq, Nat.ofDigitChars_append,
      Nat.ofDigitChars_replicate_zero, Nat.mul_zero, Nat.ofDigitChars_ten_toDigits]

theorem length_padded {width n : Nat} (hwidth : 0 < width) (h : n < tenTo width) :
    (padded width n).toList.length = width := by
  have hdigits : (Nat.toDigits 10 n).length ≤ width :=
    (Nat.length_toDigits_le_iff (by decide) hwidth).2 h
  rw [padded, String.toList_ofList, List.length_append, List.length_replicate]
  omega

/-! ## Reading -/

namespace Spells

variable {ds rest : List Char} {n : Nat}

theorem exists_cons (h : Spells ds n) : ∃ c cs, ds = c :: cs ∧ isDigit c := by
  obtain ⟨c, cs, rfl⟩ := List.exists_cons_of_ne_nil h.ne_nil
  exact ⟨c, cs, rfl, h.digits c List.mem_cons_self⟩

theorem takeWhile_append (h : Spells ds n) (hrest : NoDigitFirst rest) :
    (ds ++ rest).takeWhile isDigit = ds := by
  rw [List.takeWhile_append_of_pos h.digits]
  cases rest with
  | nil => simp
  | cons c rest => simp [hrest c rfl]

theorem takeWhile_eq (h : Spells ds n) : ds.takeWhile isDigit = ds := by
  have hnothing : NoDigitFirst [] := by simp [NoDigitFirst]
  simpa using h.takeWhile_append hnothing

theorem takeDigits_append (h : Spells ds n) (hrest : NoDigitFirst rest) :
    takeDigits (ds ++ rest) = (ds, rest) := by
  have htaken := h.takeWhile_append hrest
  have hall := JobEngine.takeDigits_append (ds ++ rest)
  simp only [takeDigits, htaken] at hall ⊢
  rw [List.append_cancel_left hall]

end Spells

end JobEngine
