-- SUMMARY: An identifier is read back from its text.
import JobEngine.Uuid

/-!
# Identifiers as texts

The text of an identifier has 32 hexadecimal digits and four hyphens. Reading takes the hyphens out
at their places and folds the digits to the number that they were made of.
-/

namespace JobEngine

namespace Uuid

/-! ## Digits -/

theorem hexValue?_digitChar {n : Nat} (h : n < 16) : hexValue? n.digitChar = some n :=
  (by decide : ∀ n < 16, hexValue? n.digitChar = some n) n h

theorem length_hexDigits (width n : Nat) : (hexDigits width n).length = width := by
  induction width generalizing n with
  | zero => rfl
  | succ width ih => simp [hexDigits, ih]

theorem utf8Size_of_mem_hexDigits {width n : Nat} {c : Char} (h : c ∈ hexDigits width n) :
    c.utf8Size = 1 := by
  induction width generalizing n with
  | zero => simp [hexDigits] at h
  | succ width ih =>
    rw [hexDigits, List.mem_append, List.mem_singleton] at h
    rcases h with hhigh | rfl
    · exact ih hhigh
    · exact (by decide : ∀ n < 16, n.digitChar.utf8Size = 1) _ (Nat.mod_lt n (by decide))

/-- Folding the digits of a number into `m` puts them behind the digits of `m`. -/
theorem foldlM_hexDigits (width m n : Nat) :
    (hexDigits width n).foldlM (fun n c => (hexValue? c).map (n * 16 + ·)) m =
      some (m * Nat.pow 16 width + n % Nat.pow 16 width) := by
  induction width generalizing n with
  | zero => simp [hexDigits, Nat.mod_one, Nat.pow]
  | succ width ih =>
    have hlast : hexValue? (n % 16).digitChar = some (n % 16) :=
      hexValue?_digitChar (Nat.mod_lt n (by decide))
    have hsplit : n % (Nat.pow 16 width * 16) = n % 16 + 16 * (n / 16 % Nat.pow 16 width) := by
      rw [Nat.mul_comm, Nat.mod_mul]
    simp only [hexDigits, List.foldlM_append, ih, List.foldlM_cons, List.foldlM_nil, hlast,
      Option.bind_eq_bind, Option.bind_some, Option.map_some, Option.pure_def, Nat.pow_eq,
      Nat.pow_succ] at hsplit ⊢
    rw [hsplit, Nat.add_mul, Nat.mul_assoc]
    congr 1
    omega

/-- The digits of an identifier are read back as the identifier. -/
theorem ofDigits?_hexDigits (u : Uuid) : ofDigits? (hexDigits 32 u.value) = some u := by
  have hvalue : u.value % bound = u.value := Nat.mod_eq_of_lt u.lt_bound
  have hbound : Nat.pow 16 32 = bound := by decide
  rw [ofDigits?, if_pos (length_hexDigits 32 _), foldlM_hexDigits, hbound, hvalue]
  simp only [Nat.zero_mul, Nat.zero_add, Option.map_some]
  exact congrArg some (ext_value hvalue)

/-! ## Hyphens -/

/-- Taking the hyphens out gives the digits. -/
theorem ofHyphenated?_hyphenated {ds : List Char} (h : ds.length = 32) :
    ofHyphenated? (hyphenated ds) = ofDigits? ds := by
  -- The five groups, apart.
  obtain ⟨a, b, c, d, e, rfl, ha, hb, hc, hd, he⟩ : ∃ a b c d e : List Char,
      ds = a ++ (b ++ (c ++ (d ++ e))) ∧ a.length = 8 ∧ b.length = 4 ∧ c.length = 4 ∧
        d.length = 4 ∧ e.length = 12 := by
    refine ⟨ds.take 8, (ds.drop 8).take 4, (ds.drop 12).take 4, (ds.drop 16).take 4, ds.drop 20,
      ?_, ?_, ?_, ?_, ?_, ?_⟩
    · have hgroup (m n : Nat) : (ds.drop m).take n ++ ds.drop (m + n) = ds.drop m := by
        rw [← List.drop_drop, List.take_append_drop]
      rw [hgroup 16 4, hgroup 12 4, hgroup 8 4, List.take_append_drop]
    all_goals simp [h]
  have hhyphenated : hyphenated (a ++ (b ++ (c ++ (d ++ e)))) =
      a ++ '-' :: (b ++ '-' :: (c ++ '-' :: (d ++ '-' :: e))) := by
    simp [hyphenated, List.drop_append, List.drop_eq_nil_of_le, ha, hb, hc, hd]
  rw [hhyphenated, ofHyphenated?, if_pos]
  · simp [List.drop_append, List.drop_eq_nil_of_le, ha, hb, hc, hd]
  · simp [ha, hb, hc, hd, he]

theorem mem_hyphenated {ds : List Char} {c : Char} (h : c ∈ hyphenated ds) : c = '-' ∨ c ∈ ds := by
  simp only [hyphenated, List.mem_append, List.mem_cons] at h
  grind [List.mem_of_mem_take, List.mem_of_mem_drop]

/-! ## Texts -/

theorem utf8ByteSize_ofList_of_ascii {cs : List Char} (h : ∀ c ∈ cs, c.utf8Size = 1) :
    (String.ofList cs).utf8ByteSize = cs.length := by
  induction cs with
  | nil => rfl
  | cons c cs ih =>
    have hrest : (String.ofList cs).utf8ByteSize = cs.length :=
      ih fun d hd => h d (List.mem_cons_of_mem _ hd)
    rw [String.ofList_cons, String.utf8ByteSize_append, String.utf8ByteSize_singleton, hrest,
      h c List.mem_cons_self, List.length_cons, Nat.add_comm]

theorem parse?_toText (u : Uuid) : parse? u.toText = some u := by
  have hlength : (hexDigits 32 u.value).length = 32 := length_hexDigits 32 _
  have hascii : ∀ c ∈ hyphenated (hexDigits 32 u.value), c.utf8Size = 1 := by
    intro c hc
    rcases mem_hyphenated hc with rfl | hdigit
    · rfl
    · exact utf8Size_of_mem_hexDigits hdigit
  have hsize : u.toText.utf8ByteSize = 36 := by
    rw [toText, utf8ByteSize_ofList_of_ascii hascii]
    simp [hyphenated, hlength]
  simp only [parse?, hsize]
  rw [toText, String.toList_ofList, ofHyphenated?_hyphenated hlength, ofDigits?_hexDigits]

end Uuid

end JobEngine
