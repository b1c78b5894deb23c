-- SUMMARY: A duration is read back from its text.
import JobEngine.Proofs.Text.Digits
import JobEngine.Time.DurationText

/-!
# Durations as texts

A duration is written as parts, each a count with a unit. The reader takes one part after another
and adds what it counts, so a text of parts is read as their sum. The parts that a duration is
written as add up to the duration.
-/

namespace JobEngine

namespace Duration

/-! ## Sums -/

/-- The nanoseconds of a unit. -/
def TimeUnit.nanos : TimeUnit → Nat
  | .ofNanos n => n
  | .ofSecs s => s * 1000000000

theorem ofNanos?_of_lt {n : Nat} (h : n < limit) : ofNanos? n = some ⟨n, h⟩ := dif_pos h

theorem word?_of_lt {n : Nat} (h : n < UInt64.size) : word? n = some n := by
  rw [word?, if_pos h]

/-- Seconds and nanoseconds are added if the sum is a duration. -/
theorem addParts?_eq {total : Duration} {secs nanos : Nat} (hnanos : nanos < 1000000000)
    (h : total.nanos + (secs * 1000000000 + nanos) < limit) :
    total.addParts? secs nanos = some ⟨total.nanos + (secs * 1000000000 + nanos), h⟩ := by
  have hlimit : limit = UInt64.size * 1000000000 := rfl
  have hsize : 2000000000 ≤ UInt64.size := by decide
  have hwhole : total.subsecNanos + nanos < UInt64.size := by
    simp only [subsecNanos]
    omega
  have hcarry : secs + (total.subsecNanos + nanos) / 1000000000 < UInt64.size := by
    simp only [subsecNanos]
    omega
  have hsum : (total.secs + (secs + (total.subsecNanos + nanos) / 1000000000)) * 1000000000 +
      (total.subsecNanos + nanos) % 1000000000 = total.nanos + (secs * 1000000000 + nanos) := by
    simp only [Duration.secs, subsecNanos]
    omega
  rw [addParts?, word?_of_lt hwhole, Option.bind_eq_bind, Option.bind_some, word?_of_lt hcarry,
    Option.bind_some, hsum]
  exact ofNanos?_of_lt h

/-! ## Parts -/

/-- A count with a unit. -/
structure Part where
  count : Nat
  name : String
  unit : TimeUnit

namespace Part

def text (p : Part) : String := toString p.count ++ p.name

def nanos (p : Part) : Nat := p.count * p.unit.nanos

/-- The name is made of letters and names the unit. -/
structure Names (name : String) (unit : TimeUnit) : Prop where
  unit_eq : unit? name = some unit
  ne_nil : name.toList ≠ []
  letters : ∀ c ∈ name.toList, isUnitChar c

/-- The count is one of 64 bits, the name is that of the unit, and units below the second do not
make up a second. -/
structure Plain (p : Part) : Prop where
  count_lt : p.count < UInt64.size
  named : Names p.name p.unit
  nanos_lt : ∀ n, p.unit = .ofNanos n → p.count * n < 1000000000

/-- All names of units are made of letters. -/
theorem names_of_unit? {name : String} {unit : TimeUnit} (h : unit? name = some unit) :
    Names name unit := by
  have hname : name.toList ≠ [] ∧ name.toList.all isUnitChar := by
    unfold unit? at h
    split at h
    all_goals first | decide | cases h
  exact ⟨h, hname.1, List.all_eq_true.1 hname.2⟩

-- These are rewritten with, never unfolded to: computing with the factors would not end.
theorem nanos_ofNanos (count n : Nat) (name : String) :
    nanos ⟨count, name, .ofNanos n⟩ = count * n := by
  rw [nanos, TimeUnit.nanos]

theorem nanos_ofSecs (count s : Nat) (name : String) :
    nanos ⟨count, name, .ofSecs s⟩ = count * s * 1000000000 := by
  rw [nanos, TimeUnit.nanos, Nat.mul_assoc]

variable {p : Part} {total : Duration}

/-- A part is added if the sum is a duration. -/
theorem Plain.addWhole? (hp : p.Plain) (h : total.nanos + p.nanos < limit) :
    total.addWhole? p.count p.unit = some ⟨total.nanos + p.nanos, h⟩ := by
  obtain ⟨count, name, unit⟩ := p
  cases unit with
  | ofNanos n =>
    have hlt : count * n < 1000000000 := hp.nanos_lt n rfl
    have hword : count * n < UInt64.size := Nat.lt_trans hlt (by decide)
    have hsum : total.nanos + (0 * 1000000000 + count * n) =
        total.nanos + nanos ⟨count, name, .ofNanos n⟩ := by
      rw [nanos_ofNanos, Nat.zero_mul, Nat.zero_add]
    rw [Duration.addWhole?, word?_of_lt hword, Option.bind_eq_bind, Option.bind_some,
      addParts?_eq hlt (by rw [hsum]; exact h)]
    exact congrArg some (ext_nanos hsum)
  | ofSecs s =>
    have hsum : total.nanos + (count * s * 1000000000 + 0) =
        total.nanos + nanos ⟨count, name, .ofSecs s⟩ := by
      rw [nanos_ofSecs, Nat.add_zero]
    have hword : count * s < UInt64.size := by
      have hlimit : limit = UInt64.size * 1000000000 := rfl
      rw [nanos_ofSecs] at h
      omega
    rw [Duration.addWhole?, word?_of_lt hword, Option.bind_eq_bind, Option.bind_some,
      addParts?_eq (by decide) (by rw [hsum]; exact h)]
    exact congrArg some (ext_nanos hsum)

theorem Plain.addNamed (hp : p.Plain) (h : total.nanos + p.nanos < limit) :
    total.addNamed p.count none p.name = .ok ⟨total.nanos + p.nanos, h⟩ := by
  simp only [Duration.addNamed, hp.named.unit_eq, hp.addWhole? h, Option.bind_some]

end Part

/-! ## Reading a part -/

/-- The characters of a text without their places. -/
def glyphs (cs : List (Nat × Char)) : List Char := cs.map (·.2)

theorem glyphs_takeWhile (f : Char → Bool) (cs : List (Nat × Char)) :
    glyphs (cs.takeWhile (fun e => f e.2)) = (glyphs cs).takeWhile f :=
  List.takeWhile_map.symm

theorem glyphs_dropWhile (f : Char → Bool) (cs : List (Nat × Char)) :
    glyphs (cs.dropWhile (fun e => f e.2)) = (glyphs cs).dropWhile f :=
  List.dropWhile_map.symm

theorem isUnitChar_iff {c : Char} : isUnitChar c ↔
    (97 ≤ c.toNat ∧ c.toNat ≤ 122) ∨ (65 ≤ c.toNat ∧ c.toNat ≤ 90) ∨ c.toNat = 181 := by
  simp only [isUnitChar, Char.le_def, UInt32.le_iff_toNat_le, Bool.and_eq_true, Bool.or_eq_true,
    decide_eq_true_eq, Char.ext_iff, ← UInt32.toNat_inj, or_assoc]
  rfl

theorem isDigit_of_isUnitChar {c : Char} (h : isUnitChar c) : isDigit c = false := by
  rw [isUnitChar_iff] at h
  rw [← Bool.not_eq_true, isDigit_iff]
  omega

theorem isBlank_of_isUnitChar {c : Char} (h : isUnitChar c) : isBlank c = false := by
  rw [isUnitChar_iff] at h
  simp only [isBlank, Bool.or_eq_false_iff, Bool.and_eq_false_imp, beq_eq_false_iff_ne,
    decide_eq_true_eq, decide_eq_false_iff_not]
  omega

theorem le_foldl_digits (ds : List Char) (n : Nat) :
    n ≤ ds.foldl (fun n c => n * 10 + digitValue c) n := by
  induction ds generalizing n with
  | nil => exact Nat.le_refl n
  | cons c ds ih => exact Nat.le_trans (by omega) (ih (n * 10 + digitValue c))

/-- The digits of a number are taken up to the letters of its unit. -/
theorem readNumber_eq (last : Nat) {n m : Nat} {ds rest : List Char} {cs : List (Nat × Char)}
    (hdigits : ∀ c ∈ ds, isDigit c) (hvalue : ds.foldl (fun n c => n * 10 + digitValue c) n = m)
    (hm : m < UInt64.size) (hrest : ∃ u r, rest = u :: r ∧ isUnitChar u)
    (hcs : glyphs cs = ds ++ rest) :
    ∃ after, readNumber last n cs = .ok (m, none, after) ∧ glyphs after = rest := by
  induction ds generalizing n cs with
  | nil =>
    obtain ⟨u, r, rfl, hu⟩ := hrest
    obtain ⟨⟨o, c⟩, after, rfl, rfl, rfl⟩ := List.map_eq_cons_iff.1 hcs
    subst hvalue
    refine ⟨(o, c) :: after, ?_, rfl⟩
    simp [readNumber, isDigit_of_isUnitChar hu, isBlank_of_isUnitChar hu, hu]
  | cons d ds ih =>
    obtain ⟨⟨o, c⟩, cs, rfl, rfl, htail⟩ := List.map_eq_cons_iff.1 hcs
    have hdigit : isDigit c := hdigits c List.mem_cons_self
    have hword : n * 10 + digitValue c < UInt64.size := by
      have := le_foldl_digits ds (n * 10 + digitValue c)
      simp only [List.foldl_cons] at hvalue
      omega
    obtain ⟨after, hread, hafter⟩ :=
      ih (fun c hc => hdigits c (List.mem_cons_of_mem _ hc)) hvalue htail
    refine ⟨after, ?_, hafter⟩
    rw [readNumber, if_pos hdigit, if_pos hword, hread]

/-- What follows a part: nothing, or something behind a blank. -/
def BlankFirst (cs : List Char) : Prop := ∀ c ∈ cs.head?, isBlank c

/-- A name ends where something else begins. -/
theorem takeWhile_letters {ls rest : List Char} (hletters : ∀ c ∈ ls, isUnitChar c)
    (hrest : BlankFirst rest) :
    (ls ++ rest).takeWhile isUnitChar = ls ∧ (ls ++ rest).dropWhile isUnitChar = rest := by
  rw [List.takeWhile_append_of_pos hletters, List.dropWhile_append_of_pos hletters]
  cases rest with
  | nil => simp
  | cons c rest =>
    have hstop : isUnitChar c = false := by
      rw [← Bool.not_eq_true]
      intro hletter
      have hblank : isBlank c = true := hrest c rfl
      simp [isBlank_of_isUnitChar hletter] at hblank
    simp [hstop]

/-- The text of a part begins with a digit, and its digits stand for its count. -/
theorem Part.exists_digits (p : Part) : ∃ d ds, p.text.toList = d :: (ds ++ p.name.toList) ∧
    isDigit d ∧ (∀ c ∈ ds, isDigit c) ∧
    ds.foldl (fun n c => n * 10 + digitValue c) (digitValue d) = p.count := by
  have hspells := spells_toString p.count
  obtain ⟨d, ds, hd⟩ := List.exists_cons_of_ne_nil hspells.ne_nil
  have hvalue := hspells.value
  have hdigits := hspells.digits
  rw [hd] at hdigits hvalue
  refine ⟨d, ds, ?_, hdigits d List.mem_cons_self,
    fun c hc => hdigits c (List.mem_cons_of_mem _ hc), ?_⟩
  · rw [Part.text, String.toList_append, hd, List.cons_append]
  · simpa [digitsValue] using hvalue

/-- A part is taken, and its value is added. -/
theorem readItems_part (last fuel : Nat) (first : Bool) {p : Part} {total : Duration}
    {cs : List (Nat × Char)} {rest : List Char} (hp : p.Plain)
    (hfits : total.nanos + p.nanos < limit) (hrest : BlankFirst rest)
    (hcs : glyphs (cs.dropWhile (fun e => isBlank e.2)) = p.text.toList ++ rest) :
    ∃ after, glyphs after = rest ∧ readItems last (fuel + 1) first total cs =
      readItems last fuel false ⟨total.nanos + p.nanos, hfits⟩ after := by
  obtain ⟨d, ds, htext, hdigit, hdigits, hvalue⟩ := p.exists_digits
  rw [htext, List.cons_append, List.append_assoc] at hcs
  obtain ⟨⟨o, d⟩, tail, hskipped, rfl, htail⟩ := List.map_eq_cons_iff.1 hcs
  -- The count is read up to the name.
  have hname : ∃ u r, p.name.toList ++ rest = u :: r ∧ isUnitChar u := by
    obtain ⟨u, r, hu⟩ := List.exists_cons_of_ne_nil hp.named.ne_nil
    exact ⟨u, r ++ rest, by rw [hu, List.cons_append], hp.named.letters u (hu ▸ List.mem_cons_self)⟩
  obtain ⟨named, hread, hnamed⟩ :=
    readNumber_eq last hdigits hvalue hp.count_lt hname htail
  -- The name is taken up to the rest.
  obtain ⟨htaken, hdropped⟩ := takeWhile_letters hp.named.letters hrest
  rw [← hnamed, ← glyphs_takeWhile] at htaken
  rw [← hnamed, ← glyphs_dropWhile] at hdropped
  have hletters :
      String.ofList ((named.takeWhile (fun e => isUnitChar e.2)).map (·.2)) = p.name :=
    (congrArg String.ofList htaken).trans String.ofList_toList
  refine ⟨named.dropWhile (fun e => isUnitChar e.2), hdropped, ?_⟩
  simp only [readItems, hskipped, if_pos hdigit, hread, bind, Except.bind, hletters,
    hp.addNamed hfits]
  split
  · rename_i o' c' after heq
    have hblank : isBlank c' := by
      rw [heq] at hdropped
      exact hrest c' (hdropped ▸ rfl)
    rw [if_neg (fun h => h.2 hblank)]
  · rfl

/-! ## Reading parts -/

/-- The sum of some parts. -/
def partsNanos (ps : List Part) : Nat := ps.foldr (fun p n => p.nanos + n) 0

theorem partsNanos_nil : partsNanos [] = 0 := by
  rw [partsNanos, List.foldr_nil]

theorem partsNanos_cons (p : Part) (ps : List Part) :
    partsNanos (p :: ps) = p.nanos + partsNanos ps := by
  rw [partsNanos, List.foldr_cons, partsNanos]

/-- Some parts, each behind a blank. -/
def spaced (ps : List Part) : List Char := ps.flatMap fun p => ' ' :: p.text.toList

theorem spaced_cons (p : Part) (ps : List Part) :
    spaced (p :: ps) = ' ' :: (p.text.toList ++ spaced ps) := rfl

theorem blankFirst_spaced (ps : List Part) : BlankFirst (spaced ps) := by
  intro c hc
  cases ps with
  | nil => simp [spaced] at hc
  | cons p ps =>
    obtain rfl : ' ' = c := by simpa [spaced_cons] using hc
    rfl

/-- The first part begins with a digit. -/
theorem dropWhile_tail_spaced (ps : List Part) :
    (spaced ps).tail.dropWhile isBlank = (spaced ps).tail := by
  cases ps with
  | nil => rfl
  | cons p ps =>
    obtain ⟨d, ds, htext, hdigit, -, -⟩ := p.exists_digits
    rw [spaced_cons, List.tail_cons, htext]
    simp [isBlank_of_isDigit hdigit]

theorem dropWhile_spaced (ps : List Part) : (spaced ps).dropWhile isBlank = (spaced ps).tail := by
  cases ps with
  | nil => rfl
  | cons p ps =>
    have hblank : isBlank ' ' = true := rfl
    have htail := dropWhile_tail_spaced (p :: ps)
    rw [spaced_cons, List.tail_cons] at htail ⊢
    simp [hblank, htail]

theorem length_le_spaced (ps : List Part) : 2 * ps.length ≤ (spaced ps).length := by
  induction ps with
  | nil => exact Nat.le_refl 0
  | cons p ps ih =>
    obtain ⟨d, ds, htext, -⟩ := p.exists_digits
    rw [spaced_cons, htext]
    simp only [List.length_cons, List.length_append]
    omega

theorem toList_intercalate_parts (ps : List Part) :
    (" ".intercalate (ps.map Part.text)).toList = (spaced ps).tail := by
  rw [String.toList_intercalate, List.map_map]
  induction ps with
  | nil => rfl
  | cons p ps ih =>
    cases ps with
    | nil => simp [spaced]
    | cons q ps =>
      simp only [List.map_cons, List.intercalate_cons_cons, spaced_cons, List.tail_cons,
        Function.comp_apply] at ih ⊢
      rw [ih]
      simp

/-- Parts are read as their sum. -/
theorem readItems_parts {last fuel : Nat} {first : Bool} {ps : List Part} {total : Duration}
    {cs : List (Nat × Char)} (hps : ∀ p ∈ ps, p.Plain)
    (hlimit : total.nanos + partsNanos ps < limit) (hfirst : first → ps ≠ [])
    (hfuel : ps.length ≤ fuel)
    (hcs : glyphs (cs.dropWhile (fun e => isBlank e.2)) = (spaced ps).tail) :
    readItems last (fuel + 1) first total cs = .ok ⟨total.nanos + partsNanos ps, hlimit⟩ := by
  induction ps generalizing total cs fuel first with
  | nil =>
    have hempty : cs.dropWhile (fun e => isBlank e.2) = [] := List.map_eq_nil_iff.1 hcs
    have hnot : first = false := by simpa using hfirst
    simp [readItems, hempty, hnot, partsNanos_nil]
  | cons p ps ih =>
    cases fuel with
    | zero => simp at hfuel
    | succ fuel =>
      have hsum : total.nanos + p.nanos + partsNanos ps = total.nanos + partsNanos (p :: ps) := by
        rw [partsNanos_cons, Nat.add_assoc]
      have hfits : total.nanos + p.nanos < limit := by omega
      obtain ⟨after, hafter, hread⟩ := readItems_part last (fuel + 1) first
        (hps p List.mem_cons_self) hfits (blankFirst_spaced ps) hcs
      have hrest : readItems last (fuel + 1) false ⟨total.nanos + p.nanos, hfits⟩ after =
          .ok ⟨total.nanos + p.nanos + partsNanos ps, by omega⟩ := by
        refine ih (fun q hq => hps q (List.mem_cons_of_mem _ hq)) _ (by simp)
          (Nat.le_of_succ_le_succ hfuel) ?_
        rw [glyphs_dropWhile, hafter, dropWhile_spaced]
      rw [hread, hrest]
      exact congrArg Except.ok (ext_nanos hsum)

/-! ## Texts of parts -/

theorem glyphs_locate (s : String) : glyphs (locate s).chars = s.toList := by
  have hfold (cs : List Char) (acc : List (Nat × Char)) (o : Nat) :
      glyphs (cs.foldl (fun acc c => ((acc.2, c) :: acc.1, acc.2 + c.utf8Size)) (acc, o)).1.reverse =
        glyphs acc.reverse ++ cs := by
    induction cs generalizing acc o with
    | nil => simp
    | cons c cs ih =>
      rw [List.foldl_cons, ih]
      simp [glyphs]
  exact hfold s.toList [] 0

theorem parse_parts {ps : List Part} (hne : ps ≠ []) (hps : ∀ p ∈ ps, p.Plain)
    (hlimit : partsNanos ps < limit) :
    parse (" ".intercalate (ps.map Part.text)) = .ok ⟨partsNanos ps, hlimit⟩ := by
  have htext := toList_intercalate_parts ps
  generalize " ".intercalate (ps.map Part.text) = s at htext ⊢
  have hzero : s ≠ "0" := by
    rintro rfl
    obtain ⟨p, ps, rfl⟩ := List.exists_cons_of_ne_nil hne
    obtain ⟨d, ds, hd, -⟩ := p.exists_digits
    rw [spaced_cons, List.tail_cons, hd] at htext
    simp [(hps p List.mem_cons_self).named.ne_nil] at htext
  have hchars : glyphs (locate s).chars = (spaced ps).tail := (glyphs_locate s).trans htext
  have hfuel : ps.length ≤ (locate s).chars.length := by
    have hlength := congrArg List.length hchars
    have hlong := length_le_spaced ps
    have hpos := List.length_pos_iff.2 hne
    simp only [glyphs, List.length_map, List.length_tail] at hlength
    omega
  have hsum : (zero : Duration).nanos + partsNanos ps = partsNanos ps := Nat.zero_add _
  simp only [parse, if_neg hzero]
  rw [readItems_parts hps (by rw [hsum]; exact hlimit) (fun _ => hne) hfuel
    (by rw [glyphs_dropWhile, hchars, dropWhile_tail_spaced])]
  exact congrArg Except.ok (ext_nanos hsum)

/-! ## The parts of a duration -/

/-- A count with a unit whose name takes an `s` from two on. -/
def Part.plural (n : Nat) (name : String) (unit : TimeUnit) : Part :=
  ⟨n, name ++ (if n > 1 then "s" else ""), unit⟩

/-- The counts of all units that a duration is taken apart in. -/
def unitParts (d : Duration) : List Part :=
  let s := d.secs
  let ofYear := s % secondsPerYear
  let ofMonth := ofYear % secondsPerMonth
  let ofDay := ofMonth % 86400
  let n := d.subsecNanos
  [.plural (s / secondsPerYear) "year" (.ofSecs secondsPerYear),
    .plural (ofYear / secondsPerMonth) "month" (.ofSecs secondsPerMonth),
    .plural (ofMonth / 86400) "day" (.ofSecs 86400), ⟨ofDay / 3600, "h", .ofSecs 3600⟩,
    ⟨ofDay % 3600 / 60, "m", .ofSecs 60⟩, ⟨ofDay % 60, "s", .ofSecs 1⟩,
    ⟨n / 1000000, "ms", .ofNanos 1000000⟩, ⟨n / 1000 % 1000, "us", .ofNanos 1000⟩,
    ⟨n % 1000, "ns", .ofNanos 1⟩]

/-- The parts that are written: those that count something, or no seconds. -/
def writtenParts (d : Duration) : List Part :=
  if d.isZero then [⟨0, "s", .ofSecs 1⟩] else d.unitParts.filter (·.count ≠ 0)

theorem partsNanos_filter (ps : List Part) :
    partsNanos (ps.filter (·.count ≠ 0)) = partsNanos ps := by
  induction ps with
  | nil => rfl
  | cons p ps ih =>
    by_cases hzero : p.count = 0
    · have hnothing : p.nanos = 0 := by rw [Part.nanos, hzero, Nat.zero_mul]
      rw [List.filter_cons_of_neg (by simp [hzero]), ih, partsNanos_cons, hnothing, Nat.zero_add]
    · rw [List.filter_cons_of_pos (by simp [hzero]), partsNanos_cons, ih, partsNanos_cons]

theorem partsNanos_unitParts (d : Duration) : partsNanos d.unitParts = d.nanos := by
  have hnanos : d.nanos = d.secs * 1000000000 + d.subsecNanos := by
    simp only [secs, subsecNanos]
    omega
  rw [hnanos, unitParts]
  generalize d.secs = s
  generalize d.subsecNanos = n
  simp only [partsNanos_cons, partsNanos_nil, Part.plural, Part.nanos_ofSecs, Part.nanos_ofNanos,
    secondsPerYear, secondsPerMonth]
  omega

theorem Part.plain_ofSecs {n s : Nat} {name : String} (hn : n < UInt64.size)
    (hname : Names name (.ofSecs s)) : Plain ⟨n, name, .ofSecs s⟩ :=
  ⟨hn, hname, nofun⟩

theorem Part.plain_ofNanos {n m : Nat} {name : String} (hn : n * m < 1000000000) (hm : 0 < m)
    (hname : Names name (.ofNanos m)) : Plain ⟨n, name, .ofNanos m⟩ where
  count_lt := by
    have hle : n ≤ n * m := Nat.le_mul_of_pos_right n hm
    exact Nat.lt_trans (Nat.lt_of_le_of_lt hle hn) (by decide)
  named := hname
  nanos_lt := by
    rintro k ⟨rfl⟩
    exact hn

theorem Part.plain_plural {n s : Nat} {name : String} (hn : n < UInt64.size)
    (hone : Names name (.ofSecs s)) (hmany : Names (name ++ "s") (.ofSecs s)) :
    (plural n name (.ofSecs s)).Plain := by
  refine plain_ofSecs hn ?_
  split
  · exact hmany
  · rwa [String.append_empty]

theorem plain_of_mem_unitParts {d : Duration} {p : Part} (h : p ∈ d.unitParts) : p.Plain := by
  have hlimit : d.nanos < UInt64.size * 1000000000 := d.lt_limit
  have hsecs : d.secs < UInt64.size := by
    simp only [secs]
    omega
  have hnanos : d.subsecNanos < 1000000000 := Nat.mod_lt _ (by decide)
  have hdiv {a : Nat} (k : Nat) (ha : a < UInt64.size) : a / k < UInt64.size :=
    Nat.lt_of_le_of_lt (Nat.div_le_self a k) ha
  have hmod {a : Nat} (k : Nat) (ha : a < UInt64.size) : a % k < UInt64.size :=
    Nat.lt_of_le_of_lt (Nat.mod_le a k) ha
  have hofYear := hmod secondsPerYear hsecs
  have hofMonth := hmod secondsPerMonth hofYear
  have hofDay := hmod 86400 hofMonth
  simp only [unitParts, List.mem_cons, List.not_mem_nil, or_false] at h
  rcases h with rfl | rfl | rfl | rfl | rfl | rfl | rfl | rfl | rfl
  · exact Part.plain_plural (hdiv _ hsecs) (Part.names_of_unit? rfl) (Part.names_of_unit? rfl)
  · exact Part.plain_plural (hdiv _ hofYear) (Part.names_of_unit? rfl) (Part.names_of_unit? rfl)
  · exact Part.plain_plural (hdiv _ hofMonth) (Part.names_of_unit? rfl) (Part.names_of_unit? rfl)
  · exact Part.plain_ofSecs (hdiv _ hofDay) (Part.names_of_unit? rfl)
  · exact Part.plain_ofSecs (hdiv _ (hmod _ hofDay)) (Part.names_of_unit? rfl)
  · exact Part.plain_ofSecs (hmod _ hofDay) (Part.names_of_unit? rfl)
  · exact Part.plain_ofNanos (by omega) (by decide) (Part.names_of_unit? rfl)
  · exact Part.plain_ofNanos (by omega) (by decide) (Part.names_of_unit? rfl)
  · exact Part.plain_ofNanos (by omega) (by decide) (Part.names_of_unit? rfl)

theorem textParts_eq (d : Duration) :
    d.textParts = (d.unitParts.filter (·.count ≠ 0)).map Part.text := by
  have hshown (ps : List Part) : (ps.filter (·.count ≠ 0)).map Part.text =
      ps.flatMap fun p => if p.count = 0 then [] else [p.text] := by
    induction ps with
    | nil => rfl
    | cons p ps ih => by_cases hzero : p.count = 0 <;> simp_all
  rw [hshown]
  simp only [textParts, unitParts, pluralPart, plainPart, Part.plural, Part.text,
    List.flatMap_cons, List.flatMap_nil, List.append_assoc, List.append_nil, String.append_assoc]

theorem toText_eq (d : Duration) : d.toText = " ".intercalate (d.writtenParts.map Part.text) := by
  rw [toText, writtenParts]
  split
  · rfl
  · rw [textParts_eq]

theorem partsNanos_writtenParts (d : Duration) : partsNanos d.writtenParts = d.nanos := by
  rw [writtenParts]
  split
  · rename_i hzero
    have hnanos : d.nanos = 0 := by simpa [isZero] using hzero
    rw [partsNanos_cons, Part.nanos, Nat.zero_mul, partsNanos_nil, hnanos]
  · rw [partsNanos_filter, partsNanos_unitParts]

theorem writtenParts_ne_nil (d : Duration) : d.writtenParts ≠ [] := by
  intro hnil
  have hsum := d.partsNanos_writtenParts
  rw [hnil, partsNanos_nil] at hsum
  have hzero : d.isZero := by simp [isZero, ← hsum]
  simp [writtenParts, hzero] at hnil

theorem plain_of_mem_writtenParts {d : Duration} {p : Part} (h : p ∈ d.writtenParts) : p.Plain := by
  rw [writtenParts] at h
  split at h
  · obtain rfl := List.mem_singleton.1 h
    exact Part.plain_ofSecs (by decide) (Part.names_of_unit? rfl)
  · exact plain_of_mem_unitParts (List.mem_filter.1 h).1

/-- A duration is read back from its text. -/
theorem parse_toText (d : Duration) : parse d.toText = .ok d := by
  have hsum := d.partsNanos_writtenParts
  rw [toText_eq, parse_parts d.writtenParts_ne_nil (fun p hp => plain_of_mem_writtenParts hp)
    (by rw [hsum]; exact d.lt_limit)]
  exact congrArg Except.ok (ext_nanos hsum)

end Duration

end JobEngine
