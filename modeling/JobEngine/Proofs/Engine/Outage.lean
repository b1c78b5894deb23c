-- SUMMARY: What a storage outage in the middle of a cron run does to the definitions.
import JobEngine.Proofs.Engine.Firing

/-!
# Cron runs under outages

Whichever storage calls of a cron run fail or are refused, each definition is left alone or fires as a
whole, with one exception. A definition is moved on before its job is stored, so that no fire time
gives two jobs, and nothing takes that back when the job cannot be stored. Such a failure ends the run,
so it costs at most one definition its firing.
-/

namespace JobEngine.EngineState

variable {s t : EngineState} {told : List Firing} {id : CronId} {r : Except EngineError Unit}

/-! ## Outcomes of a run -/

/-- The firings `told` are what was told from `s` to `t`, and their jobs are what was stored. -/
structure Tells (s t : EngineState) (told : List Firing) : Prop where
  events : t.events = s.events ++ told.map fun f => .cronScheduled f.1 f.2
  distinct : (told.map (·.2.id)).Nodup
  jobs : ∀ id, t.store.job? id = ((told.map Prod.snd).find? (·.id = id)).or (s.store.job? id)
  /-- If the identifiers that come next are not in use, the jobs are new. -/
  fresh : (∀ n < s.store.crons.size, s.store.job? (Uuid.ofNat (s.backend.nextId + n)) = none) →
    ∀ f ∈ told, s.store.job? f.2.id = none

/-- The definition was due and is moved on, and it fired once: one job was derived from it, stored and
told. -/
def FiredWhole (s t : EngineState) (told : List Firing) (id : CronId) : Prop :=
  ∃ c c' jobId, s.store.cron? id = some c ∧ c.isDue s.now ∧ c.movedOn? s.now = some c' ∧
    t.store.cron? id = some c' ∧ told.filter (·.1.id = id) = [(c', c'.toJob jobId s.now)] ∧
    t.store.job? jobId = some (c'.toJob jobId s.now)

/-- The definition is as before, and none of the firings is its. -/
def LeftAlone (s t : EngineState) (told : List Firing) (id : CronId) : Prop :=
  t.store.cron? id = s.store.cron? id ∧ told.filter (·.1.id = id) = []

/-- The definition was due and is moved on, but none of the firings is its: the call that would have
stored its job failed or was refused, and that ended the run. -/
def FiringLost (s t : EngineState) (r : Except EngineError Unit) (told : List Firing) (id : CronId) :
    Prop :=
  ∃ c c', s.store.cron? id = some c ∧ c.isDue s.now ∧ c.movedOn? s.now = some c' ∧
    t.store.cron? id = some c' ∧ told.filter (·.1.id = id) = [] ∧ Unstored s.now c' r t

/-! ## Runs -/

theorem job?_saveCrons (s : Store) (c : Option CronDefinition) (id : JobId) :
    (c.elim s s.saveCron).job? id = s.job? id := by
  cases c with
  | none => rfl
  | some c => rfl

theorem cron?_saveCrons (s : Store) (c : Option CronDefinition) (id : CronId) :
    (c.elim s s.saveCron).cron? id = (c.filter (·.id = id)).or (s.cron? id) := by
  cases c with
  | none => rfl
  | some c =>
    change (s.saveCron c).cron? id = _
    rw [Store.cron?_saveCron]
    split
    · rename_i hid
      rw [Option.filter_some_pos (by simp [hid])]
      rfl
    · rename_i hid
      rw [Option.filter_some_neg (by simpa using Ne.symm hid)]
      rfl

section Run

variable {done rest : List CronDefinition} {lost : Option CronDefinition}
  (h : Course s.now (s.store.movable s.now) s r t done lost rest) (hf : s.store.CronsFiled)

include h hf

/-- No definition is fired twice, and none that was lost is fired. -/
theorem Course.ids_apart : (done.map CronDefinition.id).Nodup ∧
    ∀ c, lost = some c → c.id ∉ done.map CronDefinition.id := by
  have hids := hf.movable_ids_nodup s.now
  rw [h.split, List.map_append, List.nodup_append] at hids
  obtain ⟨hdone, -, hapart⟩ := hids
  refine ⟨hdone, ?_⟩
  rintro c rfl hmem
  exact hapart c.id hmem c.id List.mem_cons_self rfl

theorem Course.tells : Tells s t (Firing.ofList s.now s.backend.nextId done) := by
  obtain ⟨hids, -⟩ := h.ids_apart hf
  have hbound : done.length ≤ Uuid.bound := by
    have hlength := Uuid.length_le_bound hids
    rwa [List.length_map] at hlength
  have hsize : done.length ≤ s.store.crons.size := by
    have hmovable := s.store.length_movable_le s.now
    rw [h.split, List.length_append] at hmovable
    omega
  have hdistinct : ((Firing.ofList s.now s.backend.nextId done).map (·.2.id)).Nodup :=
    Firing.nodup_jobIds hbound
  refine ⟨h.fires.events, hdistinct, ?_, ?_⟩
  · intro id
    rw [h.fires.store, job?_saveCrons]
    exact Store.job?_fire hdistinct
  · intro hfresh f hmem
    have hid : f.2.id ∈ (List.range' s.backend.nextId done.length).map Uuid.ofNat := by
      rw [← Firing.map_jobId_ofList s.now]
      exact List.mem_map_of_mem hmem
    obtain ⟨n, hn, hid⟩ := List.mem_map.1 hid
    rw [List.mem_range'_1] at hn
    have hnone := hfresh (n - s.backend.nextId) (by omega)
    rwa [show s.backend.nextId + (n - s.backend.nextId) = n by omega, hid] at hnone

/-- A definition that was fired is stored as it was moved on, with one job. -/
theorem Course.firedWhole {c : CronDefinition} (hc : c ∈ done) :
    FiredWhole s t (Firing.ofList s.now s.backend.nextId done) c.id := by
  obtain ⟨hids, hlost⟩ := h.ids_apart hf
  have hother : lost.filter (·.id = c.id) = none := by
    rw [Option.filter_eq_none_iff]
    intro k hk hid
    have hid : k.id = c.id := by simpa using hid
    exact hlost k hk (hid ▸ List.mem_map_of_mem hc)
  have hmovable : c ∈ s.store.movable s.now := by
    rw [h.split]
    exact List.mem_append_left _ hc
  obtain ⟨before, hstored, hdue, hmoved⟩ := hf.mem_movable.1 hmovable
  have htells := h.tells hf
  rw [← Firing.map_id_ofList s.now s.backend.nextId] at hids
  rw [← Firing.map_fst_ofList s.now s.backend.nextId done] at hc
  obtain ⟨f, hmem, rfl⟩ := List.mem_map.1 hc
  have hjob : f = (f.1, f.1.toJob f.2.id s.now) := Prod.ext rfl (Firing.eq_toJob hmem)
  refine ⟨before, f.1, f.2.id, hstored, hdue, hmoved, ?_, ?_, ?_⟩
  · rw [h.fires.store, cron?_saveCrons, hother]
    exact Store.cron?_fire_of_mem hids hmem
  · rw [← hjob]
    exact Firing.filter_id_of_mem hids hmem
  · rw [← Firing.eq_toJob hmem, htells.jobs, Firing.find?_jobId_of_mem htells.distinct hmem]
    rfl

theorem Course.firingLost {c : CronDefinition} (hc : lost = some c) :
    FiringLost s t r (Firing.ofList s.now s.backend.nextId done) c.id := by
  obtain ⟨-, hlost⟩ := h.ids_apart hf
  have hnot : c.id ∉ (Firing.ofList s.now s.backend.nextId done).map (·.1.id) := by
    rw [Firing.map_id_ofList]
    exact hlost c hc
  have hmovable : c ∈ s.store.movable s.now := by
    rw [h.split, hc]
    exact List.mem_append_right _ (List.mem_append_left _ List.mem_cons_self)
  obtain ⟨before, hstored, hdue, hmoved⟩ := hf.mem_movable.1 hmovable
  refine ⟨before, c, hstored, hdue, hmoved, ?_, Firing.filter_id_of_not_mem hnot,
    h.unstored c hc⟩
  rw [h.fires.store, cron?_saveCrons, hc, Option.filter_some_pos (by simp)]
  rfl

omit hf in
theorem Course.leftAlone (hdone : id ∉ done.map CronDefinition.id)
    (hlost : lost.map CronDefinition.id ≠ some id) :
    LeftAlone s t (Firing.ofList s.now s.backend.nextId done) id := by
  rw [← Firing.map_id_ofList s.now s.backend.nextId] at hdone
  have hother : lost.filter (·.id = id) = none := by
    rw [Option.filter_eq_none_iff]
    intro c hc hid
    have hid : c.id = id := by simpa using hid
    exact hlost (by rw [hc, Option.map_some, hid])
  refine ⟨?_, Firing.filter_id_of_not_mem hdone⟩
  rw [h.fires.store, cron?_saveCrons, hother]
  exact Store.cron?_fire_of_not_mem hdone

end Run

/-- Whichever calls of a run fail or are refused, each definition fires as a whole or is left alone,
except for at most one that is moved on and then loses its firing because its job cannot be stored. A
run that goes through leaves no definition alone that it can fire. -/
theorem fires_whole_or_loses_one (hf : s.store.CronsFiled) :
    CronRun s s.fireDueCrons.1 s.fireDueCrons.2 ∧
    ∀ r t, CronRun s r t → ∃ (told : List Firing) (lost : Option CronId),
      Tells s t told ∧
      (∀ id, (lost = some id → FiringLost s t r told id) ∧
        (lost ≠ some id → FiredWhole s t told id ∨ LeftAlone s t told id)) ∧
      (r = .ok () → ∀ id c c', s.store.cron? id = some c → c.isDue s.now →
        c.movedOn? s.now = some c' → FiredWhole s t told id) := by
  refine ⟨cronRun_fireDueCrons s, fun r t run => ?_⟩
  obtain ⟨done, lost, rest, h⟩ := run.course
  refine ⟨_, lost.map CronDefinition.id, h.tells hf, fun id => ⟨?_, ?_⟩, ?_⟩
  · intro hid
    obtain ⟨c, hc, rfl⟩ := Option.map_eq_some_iff.1 hid
    exact h.firingLost hf hc
  · intro hid
    by_cases hmem : id ∈ done.map CronDefinition.id
    · obtain ⟨c, hc, rfl⟩ := List.mem_map.1 hmem
      exact .inl (h.firedWhole hf hc)
    · exact .inr (h.leftAlone hmem hid)
  · intro hr id c c' hc hdue hmoved
    have hid : c'.id = id := (CronDefinition.id_movedOn hmoved).trans (hf id c hc)
    have hmovable : c' ∈ s.store.movable s.now :=
      hf.mem_movable.2 ⟨c, by rwa [hid], hdue, hmoved⟩
    obtain ⟨rfl, rfl⟩ := h.through hr
    rw [h.split, Option.toList_none, List.nil_append, List.append_nil] at hmovable
    exact hid ▸ h.firedWhole hf hmovable

/-! ## A run that is stopped halfway -/

/-- The definition is due, and the first call that saves a job will fail. -/
def crowded : EngineState where
  now := .epoch
  backend := {
    store := Store.saveCron {} minutely
    faults := [⟨.saveJob, 0, 1, "no space left"⟩] }
  breaker := { name := "storage", settings := .default }

/-- The engine after a cron run. -/
def halfway : EngineState := crowded.fireDueCrons.2

theorem not_settled_halfway
    (h : halfway.events = crowded.events ++ told.map fun f => .cronScheduled f.1 f.2) :
    ¬ FiredWhole crowded halfway told minutely.id ∧ ¬ LeftAlone crowded halfway told minutely.id := by
  have hevents : halfway.events = crowded.events := by decide +kernel
  have hmoved : halfway.store.cron? minutely.id ≠ crowded.store.cron? minutely.id := by
    decide +kernel
  have htold : told = [] := by
    rw [hevents] at h
    exact List.map_eq_nil_iff.1 (List.append_cancel_left ((List.append_nil _).trans h)).symm
  constructor
  · rintro ⟨c, c', jobId, -, -, -, -, hfilter, -⟩
    rw [htold] at hfilter
    cases hfilter
  · rintro ⟨hsame, -⟩
    exact hmoved hsame

/-- A cron run may leave a definition neither fired as a whole nor alone. -/
theorem firing_split_by_fault :
    ¬ ∃ told : List Firing,
      halfway.events = crowded.events ++ told.map (fun f => .cronScheduled f.1 f.2) ∧
      ∀ id, FiredWhole crowded halfway told id ∨ LeftAlone crowded halfway told id := by
  rintro ⟨told, htold, hall⟩
  obtain ⟨hwhole, halone⟩ := not_settled_halfway htold
  rcases hall minutely.id with h | h
  · exact hwhole h
  · exact halone h

theorem minutely_firing_lost :
    ∃ told, Tells crowded halfway told ∧
      FiringLost crowded halfway crowded.fireDueCrons.1 told minutely.id := by
  have hf : crowded.store.CronsFiled := Store.CronsFiled.saveCron fun _ _ h => by cases h
  obtain ⟨hrun, hruns⟩ := fires_whole_or_loses_one hf
  obtain ⟨told, lost, htells, hall, -⟩ := hruns _ _ hrun
  obtain ⟨hlost, hothers⟩ := hall minutely.id
  obtain ⟨hwhole, halone⟩ := not_settled_halfway htells.events
  by_cases hid : lost = some minutely.id
  · exact ⟨told, htells, hlost hid⟩
  · rcases hothers hid with h | h
    · exact absurd h hwhole
    · exact absurd h halone

end JobEngine.EngineState
