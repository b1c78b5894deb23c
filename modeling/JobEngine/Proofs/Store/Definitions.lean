-- SUMMARY: The cron definitions of a store, and what storing fired definitions with their jobs does to it.
import JobEngine.Cron.Schedule
import JobEngine.Proofs.Store.Records
import Mathlib.Data.List.Perm.Subperm

/-!
# Definitions in stores

A due definition whose expression gives a next run can be moved on to it. A firing is a definition
that was moved on, together with the job that was derived from it. Firings are stored one after
another. As long as no definition and no job identifier occurs twice, the store holds all of them
afterwards and is otherwise as before.
-/

namespace JobEngine

/-- There are no more identifiers than numbers below the bound. -/
theorem Uuid.length_le_bound {l : List Uuid} (h : l.Nodup) : l.length ≤ Uuid.bound := by
  have hnodup : (l.map Uuid.value).Nodup :=
    List.pairwise_map.2 (h.imp fun hne hv => hne (Uuid.ext_value hv))
  have hsubset : l.map Uuid.value ⊆ List.range Uuid.bound := by
    intro n hn
    obtain ⟨u, -, rfl⟩ := List.mem_map.1 hn
    exact List.mem_range.2 u.lt_bound
  have hlength := (List.subperm_of_subset hnodup hsubset).length_le
  rwa [List.length_map, List.length_range] at hlength

/-! ## Moving a definition on -/

namespace CronDefinition

variable {c c' : CronDefinition} {now : Instant}

/-- The definition with its next run moved past `now`, if its expression gives one. -/
def movedOn? (now : Instant) (c : CronDefinition) : Option CronDefinition :=
  match Cron.nextFireAfter c.expression now with
  | .error _ => none
  | .ok next => some { c with nextRunAt := some next }

theorem movedOn?_of_error {e : Cron.CronError}
    (h : Cron.nextFireAfter c.expression now = .error e) :
    c.movedOn? now = none := by
  simp only [movedOn?, h]

theorem movedOn?_of_ok {next : Instant} (h : Cron.nextFireAfter c.expression now = .ok next) :
    c.movedOn? now = some { c with nextRunAt := some next } := by
  simp only [movedOn?, h]

theorem movedOn?_eq_some : c.movedOn? now = some c' ↔
    ∃ next, Cron.nextFireAfter c.expression now = .ok next ∧
      c' = { c with nextRunAt := some next } := by
  cases h : Cron.nextFireAfter c.expression now with
  | error e => simp only [movedOn?_of_error h, reduceCtorEq, false_and, exists_false]
  | ok next => simp [movedOn?_of_ok h, eq_comm]

theorem id_movedOn (h : c.movedOn? now = some c') : c'.id = c.id := by
  obtain ⟨next, -, rfl⟩ := movedOn?_eq_some.1 h
  rfl

theorem map_id_movedOn_sublist (now : Instant) (l : List CronDefinition) :
    ((l.filterMap (·.movedOn? now)).map id).Sublist (l.map id) := by
  induction l with
  | nil => exact .slnil
  | cons c rest ih =>
    rw [List.filterMap_cons]
    split
    · exact ih.cons _
    · rename_i c' h
      rw [List.map_cons, List.map_cons, id_movedOn h]
      exact ih.cons_cons _

end CronDefinition

/-! ## Firings -/

/-- A definition as it is stored after it fired, and the job of that firing. -/
abbrev Firing := CronDefinition × Job

namespace Firing

variable {now : Instant} {n : Nat} {l : List CronDefinition} {f : Firing}

/-- The firings of definitions, one after another. Their jobs get the identifiers from number `n`
on. -/
def ofList (now : Instant) : Nat → List CronDefinition → List Firing
  | _, [] => []
  | n, c :: rest => (c, c.toJob (Uuid.ofNat n) now) :: ofList now (n + 1) rest

@[simp] theorem map_fst_ofList (now : Instant) (n : Nat) (l : List CronDefinition) :
    (ofList now n l).map Prod.fst = l := by
  induction l generalizing n with
  | nil => rfl
  | cons c rest ih => rw [ofList, List.map_cons, ih]

theorem map_id_ofList (now : Instant) (n : Nat) (l : List CronDefinition) :
    (ofList now n l).map (·.1.id) = l.map CronDefinition.id := by
  calc (ofList now n l).map (·.1.id)
      = ((ofList now n l).map Prod.fst).map CronDefinition.id := List.map_map.symm
    _ = l.map CronDefinition.id := by rw [map_fst_ofList]

theorem map_jobId_ofList (now : Instant) (n : Nat) (l : List CronDefinition) :
    (ofList now n l).map (·.2.id) = (List.range' n l.length).map Uuid.ofNat := by
  induction l generalizing n with
  | nil => rfl
  | cons c rest ih =>
    rw [ofList, List.map_cons, ih, List.length_cons, List.range'_succ, List.map_cons]
    rfl

/-- The jobs get different identifiers, as long as the identifiers last. -/
theorem nodup_jobIds (h : l.length ≤ Uuid.bound) : ((ofList now n l).map (·.2.id)).Nodup := by
  rw [map_jobId_ofList, List.Nodup, List.pairwise_map]
  refine List.Pairwise.imp_of_mem ?_ List.pairwise_lt_range'
  intro a b ha hb hab
  rw [List.mem_range'_1] at ha hb
  exact Uuid.ofNat_ne hab (by omega)

theorem eq_toJob (h : f ∈ ofList now n l) : f.2 = f.1.toJob f.2.id now := by
  induction l generalizing n with
  | nil => cases h
  | cons c rest ih =>
    rcases List.mem_cons.1 h with rfl | h
    · rfl
    · exact ih h

theorem filter_id_of_not_mem {l : List Firing} {id : CronId} (h : id ∉ l.map (·.1.id)) :
    l.filter (·.1.id = id) = [] := by
  rw [List.filter_eq_nil_iff]
  intro k hk hid
  exact h (List.mem_map.2 ⟨k, hk, by simpa using hid⟩)

/-- Of firings of different definitions at most one is a given definition's. -/
theorem filter_id_of_mem {l : List Firing} (hids : (l.map (·.1.id)).Nodup) (h : f ∈ l) :
    l.filter (·.1.id = f.1.id) = [f] := by
  induction l with
  | nil => cases h
  | cons g rest ih =>
    obtain ⟨hg, hrest⟩ := List.nodup_cons.1 hids
    rcases List.mem_cons.1 h with rfl | h
    · rw [List.filter_cons_of_pos (by simp), filter_id_of_not_mem hg]
    · have hne : g.1.id ≠ f.1.id := fun hid => hg (List.mem_map.2 ⟨f, h, hid.symm⟩)
      rw [List.filter_cons_of_neg (by simpa using hne)]
      exact ih hrest h

/-- Of firings with different jobs only one has the job of a given identifier. -/
theorem find?_jobId_of_mem {l : List Firing} (hids : (l.map (·.2.id)).Nodup) (h : f ∈ l) :
    (l.map Prod.snd).find? (·.id = f.2.id) = some f.2 := by
  induction l with
  | nil => cases h
  | cons g rest ih =>
    obtain ⟨hg, hrest⟩ := List.nodup_cons.1 hids
    rw [List.map_cons]
    rcases List.mem_cons.1 h with rfl | h
    · rw [List.find?_cons_of_pos (by simp)]
    · have hne : g.2.id ≠ f.2.id := fun hid => hg (List.mem_map.2 ⟨f, h, hid.symm⟩)
      rw [List.find?_cons_of_neg (by simpa using hne)]
      exact ih hrest h

end Firing

namespace Store

variable {s : Store} {c : CronDefinition} {j : Job} {id : CronId} {l : List Firing} {f : Firing}

/-- The cron definition of an identifier. -/
def cron? (s : Store) (id : CronId) : Option CronDefinition := s.crons.get? id

/-! ## Stored definitions -/

/-- Every cron definition stands under its own identifier. -/
def CronsFiled (s : Store) : Prop := ∀ id c, s.cron? id = some c → c.id = id

theorem cron?_saveCron : (s.saveCron c).cron? id = if id = c.id then some c else s.cron? id :=
  Table.get?_insert

theorem CronsFiled.saveCron (h : s.CronsFiled) : (s.saveCron c).CronsFiled := by
  intro id k hk
  rw [cron?_saveCron] at hk
  split at hk
  · rename_i hid
    obtain rfl := Option.some.inj hk
    exact hid.symm
  · exact h id k hk

theorem CronsFiled.mem_cronList (h : s.CronsFiled) : c ∈ s.cronList ↔ s.cron? c.id = some c := by
  have hperm : s.cronList.Perm s.crons.values := List.mergeSort_perm _ _
  rw [hperm.mem_iff, Table.mem_values]
  constructor
  · rintro ⟨id, hid⟩
    rwa [h id c hid]
  · exact fun hid => ⟨c.id, hid⟩

theorem CronsFiled.cronList_ids_nodup (h : s.CronsFiled) :
    (s.cronList.map CronDefinition.id).Nodup := by
  have hperm : s.cronList.Perm s.crons.values := List.mergeSort_perm _ _
  exact (hperm.map _).nodup_iff.2 (Table.nodup_map_values h)

theorem length_cronList (s : Store) : s.cronList.length = s.crons.size := by
  have hperm : s.cronList.Perm s.crons.values := List.mergeSort_perm _ _
  rw [hperm.length_eq, Table.values, List.length_map, Table.size]

/-- The due definitions that can be moved on, in the order of their names, as they are then. -/
def movable (s : Store) (now : Instant) : List CronDefinition :=
  (s.cronList.filter (·.isDue now)).filterMap (·.movedOn? now)

theorem CronsFiled.movable_ids_nodup (h : s.CronsFiled) (now : Instant) :
    ((s.movable now).map CronDefinition.id).Nodup := by
  refine List.Nodup.sublist (CronDefinition.map_id_movedOn_sublist _ _) ?_
  exact h.cronList_ids_nodup.sublist (List.filter_sublist.map _)

theorem CronsFiled.mem_movable {c' : CronDefinition} {now : Instant} (h : s.CronsFiled) :
    c' ∈ s.movable now ↔
      ∃ c, s.cron? c'.id = some c ∧ c.isDue now ∧ c.movedOn? now = some c' := by
  simp only [movable, List.mem_filterMap, List.mem_filter, h.mem_cronList]
  constructor
  · rintro ⟨c, ⟨hc, hdue⟩, hmoved⟩
    exact ⟨c, by rwa [CronDefinition.id_movedOn hmoved], hdue, hmoved⟩
  · rintro ⟨c, hc, hdue, hmoved⟩
    exact ⟨c, ⟨by rwa [CronDefinition.id_movedOn hmoved] at hc, hdue⟩, hmoved⟩

theorem length_movable_le (s : Store) (now : Instant) : (s.movable now).length ≤ s.crons.size := by
  calc (s.movable now).length
      ≤ (s.cronList.filter (·.isDue now)).length := List.length_filterMap_le _ _
    _ ≤ s.cronList.length := List.length_filter_le _ _
    _ = s.crons.size := s.length_cronList

/-! ## Storing firings -/

/-- Store firings, one after another. -/
def fire (s : Store) (l : List Firing) : Store :=
  l.foldl (fun s f => (s.saveCron f.1).saveJob f.2) s

@[simp] theorem fire_cons : s.fire (f :: l) = ((s.saveCron f.1).saveJob f.2).fire l := rfl

theorem CronsFiled.fire (h : s.CronsFiled) : (s.fire l).CronsFiled := by
  induction l generalizing s with
  | nil => exact h
  | cons f rest ih => exact ih (h.saveCron (c := f.1))

theorem Filed.fire (h : s.Filed) : (s.fire l).Filed := by
  induction l generalizing s with
  | nil => exact h
  | cons f rest ih => exact ih (Filed.saveJob (s := s.saveCron f.1) h)

theorem cron?_fire_of_not_mem (h : id ∉ l.map (·.1.id)) : (s.fire l).cron? id = s.cron? id := by
  induction l generalizing s with
  | nil => rfl
  | cons f rest ih =>
    rw [List.map_cons, List.mem_cons, not_or] at h
    rw [fire_cons, ih h.2]
    change (s.saveCron f.1).cron? id = _
    rw [cron?_saveCron, if_neg h.1]

theorem cron?_fire_of_mem (hids : (l.map (·.1.id)).Nodup) (hf : f ∈ l) :
    (s.fire l).cron? f.1.id = some f.1 := by
  induction l generalizing s with
  | nil => cases hf
  | cons g rest ih =>
    obtain ⟨hg, hrest⟩ := List.nodup_cons.1 hids
    rcases List.mem_cons.1 hf with rfl | hf
    · rw [fire_cons, cron?_fire_of_not_mem hg]
      change (s.saveCron f.1).cron? f.1.id = _
      rw [cron?_saveCron, if_pos rfl]
    · exact ih hrest hf

/-- Under the identifier of a firing's job stands that job, and all other jobs stay. -/
theorem job?_fire {id : JobId} (hids : (l.map (·.2.id)).Nodup) :
    (s.fire l).job? id = ((l.map Prod.snd).find? (·.id = id)).or (s.job? id) := by
  induction l generalizing s with
  | nil => rfl
  | cons f rest ih =>
    obtain ⟨hf, hrest⟩ := List.nodup_cons.1 hids
    rw [fire_cons, ih hrest, List.map_cons, job?_saveJob]
    by_cases hid : f.2.id = id
    · have hnone : (rest.map Prod.snd).find? (·.id = id) = none := by
        rw [List.find?_eq_none]
        intro j hj hj'
        obtain ⟨g, hg, rfl⟩ := List.mem_map.1 hj
        have hid' : g.2.id = id := by simpa using hj'
        exact hf (List.mem_map.2 ⟨g, hg, hid'.trans hid.symm⟩)
      rw [hnone, if_pos hid.symm, List.find?_cons_of_pos (by simpa using hid)]
      rfl
    · rw [if_neg (Ne.symm hid), List.find?_cons_of_neg (by simpa using hid)]
      rfl

end Store

/-! ## A small definition -/

/-- A definition that fires every minute and never ran. -/
def minutely : CronDefinition where
  id := Uuid.ofNat 1
  name := "minutely"
  expression := "* * * * *"
  handler := "report"
  queue := { id := Uuid.ofNat 0, name := "default" }

end JobEngine
