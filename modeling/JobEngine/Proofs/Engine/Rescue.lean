-- SUMMARY: What a janitor run does to the records of the store, whatever fails on the way.
import JobEngine.Proofs.Engine.Records

/-!
# Janitor runs

A janitor run reads the executing jobs page by page and reclaims the stale ones. Whichever of its
storage calls fail, it leaves each record as it was or reclaims it once: a reclaimed job no longer
executes, so no later page shows it.
-/

namespace JobEngine

/-- A record is as before, or it is the stale record from before, reclaimed. -/
def Reclaimed (now : Instant) (before after : Option Job) : Prop :=
  after = before ∨ ∃ j, before = some j ∧ j.isStale now ∧ after = some (j.rescue now)

namespace Reclaimed

variable {now : Instant} {a b c : Option Job}

theorem rfl : Reclaimed now a a := .inl (Eq.refl a)

theorem trans (hab : Reclaimed now a b) (hbc : Reclaimed now b c) : Reclaimed now a c := by
  rcases hab with rfl | ⟨j, rfl, hj, rfl⟩
  · exact hbc
  · rcases hbc with rfl | ⟨k, hk, hstale, -⟩
    · exact .inr ⟨j, Eq.refl _, hj, Eq.refl _⟩
    · obtain rfl := Option.some.inj hk
      cases Job.executing_of_isStale hstale

theorem id_eq {id : JobId} (h : Reclaimed now a b) (ha : ∀ j, a = some j → j.id = id) :
    ∀ j, b = some j → j.id = id := by
  rcases h with rfl | ⟨k, rfl, -, rfl⟩
  · exact ha
  · intro j hj
    obtain rfl := Option.some.inj hj
    exact ha k (Eq.refl _)

end Reclaimed

namespace EngineState

variable {s : EngineState} {now : Instant}

/-! ## One job -/

/-- Examining a job passes it over, or fails to save it, or saves it reclaimed. -/
theorem rescuePage_single (now : Instant) (j : Job) (kept : Nat) (s : EngineState) :
    (j.isStale now = false ∧ rescuePage now [j] kept s = (.ok (kept + 1), s)) ∨
      (j.isStale now = true ∧
        ((∃ e t, rescuePage now [j] kept s = (.error e, t) ∧ t.store = s.store) ∨
          ∃ t, rescuePage now [j] kept s = (.ok kept, t) ∧
            t.store = s.store.saveJob (j.rescue now))) := by
  cases hstale : j.isStale now with
  | false => exact .inl ⟨rfl, by simp [rescuePage, hstale]⟩
  | true =>
    refine .inr ⟨rfl, ?_⟩
    rcases s.saveJob_cases (j.rescue now) with ⟨e, t, ht, hs⟩ | ⟨t, ht, hs⟩
    · exact .inl ⟨e, t, by simp [rescuePage, hstale, ht], hs⟩
    · exact .inr ⟨t.dispatch (.jobRescued (j.rescue now)), by simp [rescuePage, hstale, ht], hs⟩

/-- A page is examined job by job, and the first failure ends it. -/
theorem rescuePage_cons (now : Instant) (j : Job) (rest : List Job) (kept : Nat)
    (s : EngineState) :
    rescuePage now (j :: rest) kept s =
      match rescuePage now [j] kept s with
      | (.error e, t) => (.error e, t)
      | (.ok kept, t) => rescuePage now rest kept t := by
  simp only [rescuePage]
  split
  · rcases s.saveJob (j.rescue now) with ⟨e | _, t⟩ <;> rfl
  · rfl

theorem rescuePage_single_store (now : Instant) (j : Job) (kept : Nat) (s : EngineState) :
    (rescuePage now [j] kept s).2.store = s.store ∨
      j.isStale now ∧ (rescuePage now [j] kept s).2.store = s.store.saveJob (j.rescue now) := by
  rcases rescuePage_single now j kept s with ⟨-, h⟩ | ⟨hj, ⟨e, t, h, hs⟩ | ⟨t, h, hs⟩⟩
  · exact .inl (by rw [h])
  · exact .inl (by rw [h, hs])
  · exact .inr ⟨hj, by rw [h, hs]⟩

/-! ## Pages -/

/-- A page of stored jobs is reclaimed record by record: saving one job leaves the others of the
page as they were read. -/
theorem rescuePage_records {page : List Job} (hids : (page.map Job.id).Nodup)
    (hread : ∀ j ∈ page, s.store.job? j.id = some j) (kept : Nat) (id : JobId) :
    Reclaimed now (s.store.job? id) ((rescuePage now page kept s).2.store.job? id) := by
  induction page generalizing s kept with
  | nil => exact .rfl
  | cons j rest ih =>
    obtain ⟨hj, hrest⟩ := List.nodup_cons.1 hids
    have hcur : s.store.job? j.id = some j := hread j List.mem_cons_self
    rw [rescuePage_cons]
    rcases rescuePage_single now j kept s with ⟨-, h⟩ | ⟨hstale, ⟨e, t, h, hs⟩ | ⟨t, h, hs⟩⟩
    · rw [h]
      exact ih hrest (fun k hk => hread k (List.mem_cons_of_mem _ hk)) _
    · rw [h]
      exact .inl (by simp only [hs])
    · rw [h]
      have hfirst : Reclaimed now (s.store.job? id) (t.store.job? id) := by
        rw [hs, Store.job?_saveJob]
        split
        · rename_i hid
          obtain rfl : id = j.id := hid
          exact .inr ⟨j, hcur, hstale, rfl⟩
        · exact .rfl
      refine hfirst.trans (ih hrest (fun k hk => ?_) kept)
      have hne : k.id ≠ (j.rescue now).id := fun he => hj (he ▸ List.mem_map_of_mem hk)
      rw [hs, Store.job?_saveJob_of_ne hne]
      exact hread k (List.mem_cons_of_mem _ hk)

theorem rescuePages_records (h : s.store.Filed) (batch fuel kept : Nat) (id : JobId) :
    Reclaimed now (s.store.job? id) ((rescuePages now batch fuel kept s).2.store.job? id) := by
  induction fuel generalizing s kept id with
  | zero => exact .rfl
  | succ fuel ih =>
    simp only [rescuePages, Backend.getJobs]
    rcases s.guarded_perform .getJobs
        (fun s => (s.getJobs { states := [.executing] } ⟨kept, batch⟩, s)) with
      ⟨e, t, ht, hs, -⟩ | ⟨t, ht, hs, -⟩
    · rw [ht]
      exact .inl (by simp only [hs])
    · rw [ht]
      simp only at hs ⊢
      have hread : ∀ j ∈ s.store.getJobs { states := [.executing] } ⟨kept, batch⟩,
          t.store.job? j.id = some j :=
        fun j hj => hs ▸ h.job?_of_mem (Store.mem_of_mem_getJobs hj).1
      have hpage := fun id =>
        @rescuePage_records t now _ (h.getJobs_ids_nodup _ _) hread kept id
      rw [hs] at hpage
      split
      · rename_i e u hu
        simpa only [hu] using hpage id
      · rename_i kept' u hu
        simp only [hu] at hpage
        have hfiled : u.store.Filed := fun id => (hpage id).id_eq (h id)
        split
        · exact hpage id
        · exact (hpage id).trans (ih hfiled _ _)

/-! ## Runs -/

/-- A janitor run leaves each record as it was, or reclaims it if it was stale. -/
theorem rescueStale_records (h : s.store.Filed) (batch : Nat) (id : JobId) :
    Reclaimed s.now (s.store.job? id) ((rescueStale batch s).2.store.job? id) :=
  rescuePages_records h _ _ _ id

theorem filed_rescueStale (h : s.store.Filed) (batch : Nat) :
    (rescueStale batch s).2.store.Filed :=
  fun id => (rescueStale_records h batch id).id_eq (h id)

theorem rescuePage_messages (page : List Job) (kept : Nat) (s : EngineState) :
    (rescuePage now page kept s).2.store.messages = s.store.messages := by
  induction page generalizing s kept with
  | nil => rfl
  | cons j rest ih =>
    have hfirst : (rescuePage now [j] kept s).2.store.messages = s.store.messages := by
      rcases rescuePage_single_store now j kept s with h | ⟨-, h⟩ <;> rw [h]
      rfl
    rw [rescuePage_cons]
    split
    · rename_i e t ht
      rwa [ht] at hfirst
    · rename_i kept' t ht
      rw [ht] at hfirst
      exact (ih kept' t).trans hfirst

theorem rescuePages_messages (batch fuel kept : Nat) (s : EngineState) :
    (rescuePages now batch fuel kept s).2.store.messages = s.store.messages := by
  induction fuel generalizing s kept with
  | zero => rfl
  | succ fuel ih =>
    simp only [rescuePages, Backend.getJobs]
    rcases s.guarded_perform .getJobs
        (fun s => (s.getJobs { states := [.executing] } ⟨kept, batch⟩, s)) with
      ⟨e, t, ht, hs, -⟩ | ⟨t, ht, hs, -⟩
    · simp only [ht, hs]
    · have hpage := @rescuePage_messages now
        (s.store.getJobs { states := [.executing] } ⟨kept, batch⟩) kept t
      rw [ht]
      simp only at hs ⊢
      rw [hs] at hpage
      split
      · rename_i e u hu
        rwa [hu] at hpage
      · rename_i kept' u hu
        rw [hu] at hpage
        split
        · exact hpage
        · exact (ih kept' u).trans hpage

/-- Janitor runs write no notes. -/
theorem rescueStale_messages (batch : Nat) (s : EngineState) :
    (rescueStale batch s).2.store.messages = s.store.messages :=
  rescuePages_messages _ _ _ s

end EngineState

end JobEngine
