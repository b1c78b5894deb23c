-- SUMMARY: Finite maps kept as lists in strictly increasing key order.

/-!
# Tables

A `Table κ α` maps keys to values. Its entries are a list in strictly increasing key order, and the
order is part of the type, so a table is determined by what it maps and everything that walks over
it does so in key order. The statements of this file say how each operation acts on membership and
look-up.
-/

namespace JobEngine

/-- A finite map from `κ` to `α` whose entries stand in strictly increasing key order. -/
structure Table (κ α : Type) [LT κ] where
  entries : List (κ × α)
  sorted : entries.Pairwise (fun a b => a.1 < b.1)

namespace Table

variable {κ α : Type} [LT κ]

/-! ## Entry lists -/

/-- Put `v` at `k` in an ordered entry list, replacing the value that stands there. -/
def insertEntry [DecidableLT κ] (k : κ) (v : α) : List (κ × α) → List (κ × α)
  | [] => [(k, v)]
  | e :: rest =>
    if k < e.1 then (k, v) :: e :: rest
    else if e.1 < k then e :: insertEntry k v rest
    else (k, v) :: rest

theorem mem_of_mem_insertEntry [DecidableLT κ] {k : κ} {v : α} {l : List (κ × α)} {e : κ × α}
    (h : e ∈ insertEntry k v l) : e = (k, v) ∨ e ∈ l := by
  induction l with
  | nil => simpa [insertEntry] using h
  | cons e' rest ih =>
    simp only [insertEntry] at h
    split at h
    · simpa using h
    · split at h
      · rcases List.mem_cons.1 h with rfl | h
        · simp
        · rcases ih h with h | h <;> simp [h]
      · rcases List.mem_cons.1 h with h | h <;> simp [h]

theorem pairwise_insertEntry [LE κ] [DecidableLT κ] [Std.IsLinearOrder κ] [Std.LawfulOrderLT κ]
    {k : κ} {v : α} {l : List (κ × α)} (h : l.Pairwise (fun a b => a.1 < b.1)) :
    (insertEntry k v l).Pairwise (fun a b => a.1 < b.1) := by
  induction l with
  | nil => simp [insertEntry]
  | cons e rest ih =>
    obtain ⟨he, hr⟩ := List.pairwise_cons.1 h
    simp only [insertEntry]
    split
    · rename_i hk
      refine List.pairwise_cons.2 ⟨fun b hb => ?_, h⟩
      rcases List.mem_cons.1 hb with rfl | hb
      · exact hk
      · exact Std.lt_trans hk (he b hb)
    · split
      · rename_i hk
        refine List.pairwise_cons.2 ⟨fun b hb => ?_, ih hr⟩
        rcases mem_of_mem_insertEntry hb with rfl | hb
        · exact hk
        · exact he b hb
      · rename_i h1 h2
        have hk : k = e.1 := by
          rcases Std.lt_trichotomy k e.1 with h | h | h
          · exact absurd h h1
          · exact h
          · exact absurd h h2
        exact List.pairwise_cons.2 ⟨fun b hb => hk ▸ he b hb, hr⟩

/-! ## Operations -/

/-- The table without entries. -/
def empty : Table κ α := ⟨[], List.Pairwise.nil⟩

instance : EmptyCollection (Table κ α) := ⟨empty⟩
instance : Inhabited (Table κ α) := ⟨empty⟩

theorem ext_entries {s t : Table κ α} (h : s.entries = t.entries) : s = t := by
  cases s; cases t; cases h; rfl

instance [DecidableEq κ] [DecidableEq α] : DecidableEq (Table κ α) := fun s t =>
  decidable_of_iff (s.entries = t.entries) ⟨ext_entries, fun h => h ▸ rfl⟩

instance [BEq κ] [BEq α] : BEq (Table κ α) := ⟨fun s t => s.entries == t.entries⟩

section Ordered
variable [LE κ] [DecidableLT κ] [Std.IsLinearOrder κ] [Std.LawfulOrderLT κ]

/-- Map `k` to `v`, replacing what `k` was mapped to. -/
def insert (t : Table κ α) (k : κ) (v : α) : Table κ α :=
  ⟨insertEntry k v t.entries, pairwise_insertEntry t.sorted⟩

/-- The table of a list of pairs; of two pairs with one key the later one counts. -/
def ofList (l : List (κ × α)) : Table κ α :=
  l.foldl (fun t e => t.insert e.1 e.2) empty

end Ordered

/-- What `k` is mapped to. -/
def get? [DecidableEq κ] (t : Table κ α) (k : κ) : Option α :=
  (t.entries.find? (fun e => e.1 = k)).map (·.2)

/-- Whether `k` is mapped to anything. -/
def contains [DecidableEq κ] (t : Table κ α) (k : κ) : Bool := (t.get? k).isSome

/-- The keys, in increasing order. -/
def keys (t : Table κ α) : List κ := t.entries.map (·.1)

/-- The values, in the order of their keys. -/
def values (t : Table κ α) : List α := t.entries.map (·.2)

/-- The number of keys. -/
def size (t : Table κ α) : Nat := t.entries.length

/-- Whether no key is mapped. -/
def isEmpty (t : Table κ α) : Bool := t.entries.isEmpty

/-- Keep the entries whose value satisfies `p`. -/
def filterValues (p : α → Bool) (t : Table κ α) : Table κ α :=
  ⟨t.entries.filter (fun e => p e.2), t.sorted.sublist List.filter_sublist⟩

/-- Change every value by `f`. -/
def mapValues {β : Type} (f : α → β) (t : Table κ α) : Table κ β :=
  ⟨t.entries.map (fun e => (e.1, f e.2)), List.pairwise_map.2 t.sorted⟩

/-! ## Look-ups -/

omit [LT κ] in
/-- Of entries with different keys a look-up finds each. -/
theorem find?_of_mem [DecidableEq κ] {l : List (κ × α)} (hl : (l.map (·.1)).Nodup) {e : κ × α} (he : e ∈ l) :
    l.find? (fun a => a.1 = e.1) = some e := by
  induction l with
  | nil => simp at he
  | cons a rest ih =>
    obtain ⟨ha, hr⟩ := List.nodup_cons.1 hl
    rcases List.mem_cons.1 he with rfl | he
    · simp
    · have hne : a.1 ≠ e.1 := fun heq => ha (List.mem_map.2 ⟨e, he, heq.symm⟩)
      simpa [hne] using ih hr he

theorem keys_nodup [LE κ] [Std.LawfulOrderLT κ] {t : Table κ α} : t.keys.Nodup :=
  List.pairwise_map.2 (t.sorted.imp Std.ne_of_lt)

theorem entries_nodup [LE κ] [Std.LawfulOrderLT κ] {t : Table κ α} : t.entries.Nodup :=
  List.Pairwise.of_map Prod.fst (fun _ _ hne heq => hne (congrArg Prod.fst heq)) t.keys_nodup

variable [DecidableEq κ]

theorem get?_mapValues {β : Type} {f : α → β} {t : Table κ α} {k : κ} :
    (t.mapValues f).get? k = (t.get? k).map f := by
  simp [get?, mapValues, List.find?_map, Function.comp_def]

section Lawful
variable [LE κ] [Std.LawfulOrderLT κ]

/-- The entries are the pairs that a look-up finds. -/
theorem mem_entries {t : Table κ α} {k : κ} {v : α} : (k, v) ∈ t.entries ↔ t.get? k = some v := by
  constructor
  · intro h
    simp [get?, find?_of_mem keys_nodup h]
  · intro h
    obtain ⟨e, he, rfl⟩ := Option.map_eq_some_iff.1 h
    have hk : e.1 = k := by simpa using List.find?_some he
    exact hk ▸ List.mem_of_find?_eq_some he

theorem mem_values {t : Table κ α} {v : α} : v ∈ t.values ↔ ∃ k, t.get? k = some v := by
  simp [values, ← mem_entries]

theorem mem_keys {t : Table κ α} {k : κ} : k ∈ t.keys ↔ ∃ v, t.get? k = some v := by
  simp [keys, ← mem_entries]

/-- Values that carry their keys carry different ones. -/
theorem nodup_map_values {t : Table κ α} {key : α → κ} (h : ∀ k v, t.get? k = some v → key v = k) :
    (t.values.map key).Nodup := by
  have hkeys : t.values.map key = t.keys := by
    simp only [values, keys, List.map_map]
    apply List.map_congr_left
    rintro ⟨k, v⟩ he
    exact h k v (mem_entries.1 he)
  exact hkeys ▸ keys_nodup

/-- A table is determined by its look-ups. -/
theorem ext_get? {s t : Table κ α} (h : ∀ k, s.get? k = t.get? k) : s = t := by
  have hmem : ∀ e, e ∈ s.entries ↔ e ∈ t.entries := by
    rintro ⟨k, v⟩
    rw [mem_entries, mem_entries, h]
  have hperm := (List.perm_ext_iff_of_nodup s.entries_nodup t.entries_nodup).2 hmem
  refine ext_entries (List.Perm.eq_of_pairwise ?_ s.sorted t.sorted hperm)
  intro a b _ _ hab hba
  exact absurd hba (Std.not_gt_of_lt hab)

theorem get?_filterValues {p : α → Bool} {t : Table κ α} {k : κ} :
    (t.filterValues p).get? k = (t.get? k).filter p := by
  apply Option.ext
  intro v
  rw [← mem_entries, Option.filter_eq_some_iff, ← mem_entries]
  simp [filterValues]

end Lawful

section Ordered
variable [LE κ] [DecidableLT κ] [Std.IsLinearOrder κ] [Std.LawfulOrderLT κ]

theorem find?_insertEntry {l : List (κ × α)} {k k' : κ} {v : α} :
    (insertEntry k v l).find? (fun e => e.1 = k') =
      if k' = k then some (k, v) else l.find? (fun e => e.1 = k') := by
  induction l with
  | nil => by_cases h : k = k' <;> simp [insertEntry, h, eq_comm]
  | cons e rest ih =>
    simp only [insertEntry]
    split
    · by_cases h : k = k' <;> simp [List.find?_cons, h, eq_comm]
    · split
      · rename_i hek
        by_cases he : e.1 = k'
        · have hne : k' ≠ k := he ▸ Std.ne_of_lt hek
          simp [he, hne]
        · simp [he, ih]
      · rename_i h1 h2
        have hk : k = e.1 := by
          rcases Std.lt_trichotomy k e.1 with h | h | h
          · exact absurd h h1
          · exact h
          · exact absurd h h2
        by_cases h : k = k' <;> simp [h, eq_comm, ← hk]

theorem get?_insert {t : Table κ α} {k k' : κ} {v : α} :
    (t.insert k v).get? k' = if k' = k then some v else t.get? k' := by
  simp only [get?, insert, find?_insertEntry]
  split <;> rfl

/-- Putting pairs with different keys: what was put is found, and nothing else is hidden. -/
theorem find?_foldl_insertEntry {l acc : List (κ × α)} {k : κ} (h : (l.map (·.1)).Nodup) :
    (l.foldl (fun acc e => insertEntry e.1 e.2 acc) acc).find? (fun e => e.1 = k) =
      (l.find? (fun e => e.1 = k)).or (acc.find? (fun e => e.1 = k)) := by
  induction l generalizing acc with
  | nil => rfl
  | cons e rest ih =>
    obtain ⟨hnew, hrest⟩ := List.nodup_cons.1 h
    rw [List.foldl_cons, ih hrest, find?_insertEntry]
    by_cases hk : e.1 = k
    · subst hk
      have hnone : rest.find? (fun e' => e'.1 = e.1) = none := by
        rw [List.find?_eq_none]
        intro e' he' hsame
        exact hnew (List.mem_map.2 ⟨e', he', of_decide_eq_true hsame⟩)
      simp [hnone]
    · simp [hk, Ne.symm hk]

/-- Of the pairs with one key the last one counts. -/
theorem get?_ofList (l : List (κ × α)) (k : κ) :
    (ofList l).get? k = (l.reverse.find? (fun e => e.1 = k)).map (·.2) := by
  have hfold (t : Table κ α) : (l.foldl (fun t e => t.insert e.1 e.2) t).get? k =
      ((l.reverse.find? (fun e => e.1 = k)).map (·.2)).or (t.get? k) := by
    induction l generalizing t with
    | nil => rfl
    | cons e rest ih =>
      rw [List.foldl_cons, ih, get?_insert, List.reverse_cons, List.find?_append]
      cases rest.reverse.find? (fun e => e.1 = k) with
      | some later => rfl
      | none => by_cases hk : e.1 = k <;> simp [hk, @eq_comm _ k]
  rw [ofList, hfold]
  exact Option.or_none

/-- A table is the table of its entries. -/
theorem ofList_entries {t : Table κ α} : ofList t.entries = t := by
  have hentries (l : List (κ × α)) (s : Table κ α) :
      (l.foldl (fun t e => t.insert e.1 e.2) s).entries =
        l.foldl (fun acc e => insertEntry e.1 e.2 acc) s.entries := by
    induction l generalizing s with
    | nil => rfl
    | cons e rest ih => exact ih (s.insert e.1 e.2)
  refine ext_get? fun k => ?_
  rw [get?, ofList, hentries, find?_foldl_insertEntry keys_nodup]
  simp [empty, get?]

end Ordered

end Table

end JobEngine
