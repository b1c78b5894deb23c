-- SUMMARY: What janitor runs come to in the end: each stale job is reclaimed and told once, in order of age.
import JobEngine.Proofs.Engine.Rescue
import JobEngine.Proofs.Store.Listing

/-!
# Sweeps

A janitor run skips the jobs that it left alone and reads on from there, while the jobs that it
reclaims drop out of what it reads. A sweep of some jobs is what a run did so far: it stored each of
them reclaimed and told so. Every run sweeps the oldest stale jobs, and one that is not stopped
sweeps them all, whatever the size of its pages. So runs that were stopped early only leave less to
do for the next one.
-/

namespace JobEngine

variable {now : Instant}

/-! ## Reclaiming jobs in a store -/

namespace Store

variable {s : Store} {p : Job → Bool} {l m : List Job}

/-- Store jobs reclaimed, one after another. -/
def reclaim (now : Instant) (s : Store) (l : List Job) : Store :=
  l.foldl (fun s j => s.saveJob (j.rescue now)) s

@[simp] theorem reclaim_cons {j : Job} :
    s.reclaim now (j :: l) = (s.saveJob (j.rescue now)).reclaim now l := rfl

theorem reclaim_append : s.reclaim now (l ++ m) = (s.reclaim now l).reclaim now m :=
  List.foldl_append

theorem Filed.reclaim (hf : s.Filed) : (s.reclaim now l).Filed := by
  induction l generalizing s with
  | nil => exact hf
  | cons j rest ih => exact ih hf.saveJob

theorem reclaim_eq (now : Instant) (s : Store) (l : List Job) :
    s.reclaim now l = s.saveJobs (l.map (·.rescue now)) :=
  List.foldl_map.symm

theorem map_id_rescue (now : Instant) (l : List Job) :
    (l.map (·.rescue now)).map Job.id = l.map Job.id :=
  List.map_map

theorem job?_reclaim_of_not_mem {id : JobId} (h : id ∉ l.map Job.id) :
    (s.reclaim now l).job? id = s.job? id := by
  rw [reclaim_eq]
  exact job?_saveJobs_of_not_mem (map_id_rescue now l ▸ h)

theorem job?_reclaim_of_mem {j : Job} (hids : (l.map Job.id).Nodup) (hj : j ∈ l) :
    (s.reclaim now l).job? j.id = some (j.rescue now) := by
  rw [reclaim_eq]
  exact job?_saveJobs_of_mem (map_id_rescue now l ▸ hids)
    (List.mem_map_of_mem (f := (·.rescue now)) hj)

theorem crons_reclaim (now : Instant) (s : Store) (l : List Job) :
    (s.reclaim now l).crons = s.crons := by
  rw [reclaim_eq, crons_saveJobs]

theorem messages_reclaim (now : Instant) (s : Store) (l : List Job) :
    (s.reclaim now l).messages = s.messages := by
  rw [reclaim_eq, messages_saveJobs]

/-- Jobs that lose a property when they are reclaimed drop out of its listing. -/
theorem Filed.listing_reclaim (hf : s.Filed) (hp : ∀ j ∈ l, p (j.rescue now) = false) :
    (s.reclaim now l).listing p = (s.listing p).filter (fun k => k.id ∉ l.map Job.id) := by
  induction l generalizing s with
  | nil => exact (List.filter_eq_self.2 (by simp)).symm
  | cons j rest ih =>
    have hfirst := hf.listing_saveJob (hp j List.mem_cons_self)
    rw [reclaim_cons, ih hf.saveJob fun k hk => hp k (List.mem_cons_of_mem _ hk), hfirst,
      List.filter_filter]
    apply List.filter_congr
    intro k _
    by_cases hk : k.id = j.id <;> simp [hk]

/-- Reclaiming jobs of a listing takes just these off it. -/
theorem Filed.listing_reclaim_of_subset (hf : s.Filed) (hp : ∀ j ∈ l, p (j.rescue now) = false)
    (hl : l ⊆ s.listing p) : (s.reclaim now l).listing p = (s.listing p).filter (· ∉ l) := by
  rw [hf.listing_reclaim hp]
  apply List.filter_congr
  intro k hk
  have hiff : k.id ∈ l.map Job.id ↔ k ∈ l := by
    refine ⟨fun h => ?_, List.mem_map_of_mem⟩
    obtain ⟨j, hj, hid⟩ := List.mem_map.1 h
    have hstored := (hf.mem_listing.1 (hl hj)).1
    rw [hid, (hf.mem_listing.1 hk).1] at hstored
    rwa [Option.some.inj hstored]
  simp only [hiff]

/-- The jobs whose attempt is lost, in order of age. -/
def stale (s : Store) (now : Instant) : List Job := s.listing (·.isStale now)

theorem Filed.mem_stale {j : Job} (hf : s.Filed) :
    j ∈ s.stale now ↔ s.job? j.id = some j ∧ j.isStale now :=
  hf.mem_listing

theorem Filed.stale_ids_nodup (hf : s.Filed) : ((s.stale now).map Job.id).Nodup :=
  hf.listing_ids_nodup _

/-- The executing jobs, in order of age. -/
def executing (s : Store) : List Job := s.listing ({ states := [.executing] } : JobFilter).admits

/-- Reclaiming all stale jobs changes them and nothing else. -/
theorem Filed.reclaim_stale (hf : s.Filed) (now : Instant) :
    s.reclaim now (s.stale now) =
      { s with jobs := s.jobs.mapValues fun j => if j.isStale now then j.rescue now else j } := by
  have hjobs : (s.reclaim now (s.stale now)).jobs =
      s.jobs.mapValues fun j => if j.isStale now then j.rescue now else j := by
    apply Table.ext_get?
    intro id
    rw [Table.get?_mapValues]
    change (s.reclaim now (s.stale now)).job? id = (s.job? id).map _
    by_cases hid : id ∈ (s.stale now).map Job.id
    · obtain ⟨k, hk, rfl⟩ := List.mem_map.1 hid
      obtain ⟨hstored, hstale⟩ := hf.mem_stale.1 hk
      rw [job?_reclaim_of_mem hf.stale_ids_nodup hk, hstored, Option.map_some, if_pos hstale]
    · rw [job?_reclaim_of_not_mem hid]
      cases hj : s.job? id with
      | none => rfl
      | some j =>
        have hnot : ¬ j.isStale now := by
          intro hstale
          refine hid (List.mem_map.2 ⟨j, hf.mem_stale.2 ⟨?_, hstale⟩, hf id j hj⟩)
          rwa [hf id j hj]
        rw [Option.map_some, if_neg hnot]
  calc s.reclaim now (s.stale now)
      = { s with jobs := (s.reclaim now (s.stale now)).jobs } := by
        rw [← crons_reclaim now s (s.stale now), ← messages_reclaim now s (s.stale now)]
    _ = _ := by rw [hjobs]

/-- The page that a janitor run reads after `kept` jobs. -/
def page (s : Store) (kept batch : Nat) : List Job := Page.of ⟨kept, batch⟩ s.executing

theorem admits_executing {j : Job} :
    ({ states := [.executing] } : JobFilter).admits j = true ↔ j.state = .executing := by
  simp [JobFilter.admits]

theorem Filed.stale_eq (hf : s.Filed) (now : Instant) :
    s.stale now = s.executing.filter (·.isStale now) :=
  hf.listing_filter fun _ h => admits_executing.2 (Job.executing_of_isStale h)

theorem isStale_rescue (j : Job) : (j.rescue now).isStale now = false := by
  simp [Job.isStale, Job.rescue]

theorem Filed.stale_reclaim (hf : s.Filed) (h : s.stale now = l ++ m) :
    (s.reclaim now l).stale now = m := by
  have hnodup : (l ++ m).Nodup := h ▸ hf.listing_nodup _
  have hsubset : l ⊆ s.stale now := h ▸ List.subset_append_left l m
  have hrest : (s.reclaim now l).stale now = (s.stale now).filter (· ∉ l) :=
    hf.listing_reclaim_of_subset (fun j _ => isStale_rescue j) hsubset
  rw [hrest, h, List.filter_append, List.filter_eq_nil_iff.2, List.filter_eq_self.2,
    List.nil_append]
  · intro j hj
    have hdisjoint := (List.nodup_append.1 hnodup).2.2
    simpa using fun hl => hdisjoint j hl j hj rfl
  · intro j hj
    simp [hj]

end Store

/-! ## Sweeps -/

namespace EngineState

/-- From `s` to `t` the jobs `done` were stored reclaimed, and each was told. -/
structure Sweeps (now : Instant) (done : List Job) (s t : EngineState) : Prop where
  store : t.store = s.store.reclaim now done
  events : t.events = s.events ++ done.map fun j => .jobRescued (j.rescue now)

variable {s t u : EngineState} {done done' : List Job}

theorem Sweeps.refl (now : Instant) (s : EngineState) : Sweeps now [] s s :=
  ⟨rfl, (List.append_nil _).symm⟩

theorem Sweeps.trans (h : Sweeps now done s t) (h' : Sweeps now done' t u) :
    Sweeps now (done ++ done') s u where
  store := by rw [h'.store, h.store, Store.reclaim_append]
  events := by rw [h'.events, h.events, List.map_append, List.append_assoc]

theorem Sweeps.filed (h : Sweeps now done s t) (hf : s.store.Filed) : t.store.Filed :=
  h.store ▸ hf.reclaim

/-- Reading a page changes nothing. -/
theorem getJobs_sweeps (now : Instant) {f : JobFilter} {page : Page}
    {r : Except EngineError (List Job)} (h : s.guarded (·.getJobs f page) = (r, t)) :
    Sweeps now [] s t ∧ ∀ jobs, r = .ok jobs → jobs = page.of (s.store.listing f.admits) := by
  have hevents := guarded_events h
  rcases s.guarded_perform .getJobs (fun s => (s.getJobs f page, s)) with
    ⟨e, u, hu, hs, -⟩ | ⟨u, hu, hs, -⟩
  · obtain ⟨rfl, rfl⟩ := Prod.mk.inj (h.symm.trans hu)
    exact ⟨⟨hs, by simp [hevents]⟩, by simp⟩
  · obtain ⟨rfl, rfl⟩ := Prod.mk.inj (h.symm.trans hu)
    exact ⟨⟨hs, by simp [hevents]⟩, fun jobs hjobs => (Except.ok.inj hjobs).symm⟩

/-- Saving a stale job sweeps it once that is told, or changes nothing. -/
theorem saveJob_sweeps (now : Instant) (s : EngineState) (j : Job) :
    (∃ e t, s.saveJob (j.rescue now) = (.error e, t) ∧ Sweeps now [] s t) ∨
      ∃ t, s.saveJob (j.rescue now) = (.ok (), t) ∧
        Sweeps now [j] s (t.dispatch (.jobRescued (j.rescue now))) := by
  rcases s.saveJob_cases (j.rescue now) with ⟨e, t, ht, hs⟩ | ⟨t, ht, hs⟩
  · exact .inl ⟨e, t, ht, hs, by simp [guarded_events ht]⟩
  · exact .inr ⟨t, ht, hs, by simp [dispatch, guarded_events ht]⟩

/-- Examining a page sweeps its first stale jobs, and all of them unless it is stopped. -/
theorem rescuePage_sweeps (now : Instant) (page : List Job) (kept : Nat) (s : EngineState) :
    ∃ done rest, page.filter (·.isStale now) = done ++ rest ∧
      Sweeps now done s (rescuePage now page kept s).2 ∧
      ∀ n, (rescuePage now page kept s).1 = .ok n →
        rest = [] ∧ n = kept + (page.filter (!·.isStale now)).length := by
  induction page generalizing kept s with
  | nil =>
    refine ⟨[], [], rfl, .refl now s, fun n hn => ⟨rfl, ?_⟩⟩
    cases hn
    rfl
  | cons j page ih =>
    cases hstale : j.isStale now with
    | false =>
      obtain ⟨done, rest, hfilter, hsweeps, hend⟩ := ih (kept + 1) s
      refine ⟨done, rest, by simpa [hstale] using hfilter, by simpa [rescuePage, hstale] using hsweeps,
        fun n hn => ?_⟩
      simp only [rescuePage, hstale, Bool.false_eq_true, if_false] at hn
      obtain ⟨hrest, hcount⟩ := hend n hn
      refine ⟨hrest, ?_⟩
      simp only [List.filter_cons, hstale, Bool.not_false, if_true, List.length_cons]
      omega
    | true =>
      rcases saveJob_sweeps now s j with ⟨e, t, ht, hsame⟩ | ⟨t, ht, hfirst⟩
      · refine ⟨[], j :: page.filter (·.isStale now), by simp [hstale],
          by simpa [rescuePage, hstale, ht] using hsame, fun n hn => ?_⟩
        simp [rescuePage, hstale, ht] at hn
      · obtain ⟨done, rest, hfilter, hsweeps, hend⟩ :=
          ih kept (t.dispatch (.jobRescued (j.rescue now)))
        refine ⟨j :: done, rest, by simp [hstale, hfilter], ?_, fun n hn => ?_⟩
        · simpa [rescuePage, hstale, ht] using hfirst.trans hsweeps
        · simp only [rescuePage, hstale, if_true, ht] at hn
          simpa [hstale] using hend n hn

/-! ## Pages -/

/-- The rest of a janitor run of time `now`, with no bound on the number of its pages: having passed
over `kept` jobs, it goes from `s` to `t` and ends with `r`. -/
inductive Pages (now : Instant) (batch : Nat) :
    Nat → EngineState → Except EngineError Unit → EngineState → Prop where
  | unread {kept : Nat} {s t : EngineState} {e : EngineError}
    (read : s.guarded (·.getJobs { states := [.executing] } ⟨kept, batch⟩) = (.error e, t)) :
    Pages now batch kept s (.error e) t
  | stopped {kept : Nat} {s t u : EngineState} {page : List Job} {e : EngineError}
    (read : s.guarded (·.getJobs { states := [.executing] } ⟨kept, batch⟩) = (.ok page, t))
    (examined : rescuePage now page kept t = (.error e, u)) : Pages now batch kept s (.error e) u
  | last {kept kept' : Nat} {s t u : EngineState} {page : List Job}
    (read : s.guarded (·.getJobs { states := [.executing] } ⟨kept, batch⟩) = (.ok page, t))
    (examined : rescuePage now page kept t = (.ok kept', u)) (short : page.length < batch) :
    Pages now batch kept s (.ok ()) u
  | next {kept kept' : Nat} {s t u v : EngineState} {page : List Job} {r : Except EngineError Unit}
    (read : s.guarded (·.getJobs { states := [.executing] } ⟨kept, batch⟩) = (.ok page, t))
    (examined : rescuePage now page kept t = (.ok kept', u)) (full : ¬ page.length < batch)
    (rest : Pages now batch kept' u r v) : Pages now batch kept s r v

end EngineState

namespace Store

variable {s : Store} {kept batch : Nat}

/-- The first `kept` executing jobs are left alone. -/
structure Passed (s : Store) (now : Instant) (kept : Nat) : Prop where
  bound : kept ≤ s.executing.length
  alone : ∀ j ∈ s.executing.take kept, j.isStale now = false

theorem Passed.start (s : Store) (now : Instant) : s.Passed now 0 :=
  ⟨Nat.zero_le _, by simp⟩

theorem length_page (s : Store) (kept batch : Nat) :
    (s.page kept batch).length = min batch (s.executing.length - kept) := by
  rw [page, Page.of, List.length_take, List.length_drop]

theorem length_executing_le (s : Store) : s.executing.length ≤ s.jobs.size := by
  rw [executing, listing, Job.byAge, List.length_mergeSort]
  refine Nat.le_trans (List.length_filter_le _ _) (Nat.le_of_eq ?_)
  rw [Table.values, List.length_map]
  rfl

/-- The jobs that were passed over, the page, and the jobs after it. -/
theorem executing_split (s : Store) (kept batch : Nat) :
    s.executing.take kept ++ s.page kept batch ++ s.executing.drop (kept + batch) =
      s.executing := by
  rw [List.append_assoc, page, Page.of, ← List.drop_drop, List.take_append_drop,
    List.take_append_drop]

variable {passed read rest : List Job}

theorem Filed.stale_split (hf : s.Filed) (hsplit : s.executing = passed ++ read ++ rest)
    (halone : ∀ j ∈ passed, j.isStale now = false) :
    s.stale now = read.filter (·.isStale now) ++ rest.filter (·.isStale now) := by
  have hnone : passed.filter (·.isStale now) = [] :=
    List.filter_eq_nil_iff.2 fun j hj => by simp [halone j hj]
  rw [hf.stale_eq, hsplit, List.filter_append, List.filter_append, hnone, List.nil_append]

/-- Once the stale jobs of a page are reclaimed, those that stay follow the jobs that were passed
over. -/
theorem Filed.executing_reclaim (hf : s.Filed) (hsplit : s.executing = passed ++ read ++ rest) :
    (s.reclaim now (read.filter (·.isStale now))).executing =
      passed ++ read.filter (!·.isStale now) ++ rest := by
  have hnodup : (passed ++ read ++ rest).Nodup := hsplit ▸ hf.listing_nodup _
  obtain ⟨hfront, -, hback⟩ := List.nodup_append.1 hnodup
  obtain ⟨-, -, hpage⟩ := List.nodup_append.1 hfront
  have hsubset : read.filter (·.isStale now) ⊆ s.executing := by
    intro j hj
    rw [hsplit]
    exact List.mem_append_left _ (List.mem_append_right _ (List.mem_filter.1 hj).1)
  have hleft : (s.reclaim now (read.filter (·.isStale now))).executing =
      s.executing.filter (· ∉ read.filter (·.isStale now)) :=
    hf.listing_reclaim_of_subset (fun j _ => by simp [JobFilter.admits, Job.rescue]) hsubset
  have hbefore : passed.filter (· ∉ read.filter (·.isStale now)) = passed := by
    rw [List.filter_eq_self]
    intro j hj
    have hnot : j ∉ read := fun hmem => hpage j hj j hmem rfl
    simp [hnot]
  have hstay : read.filter (· ∉ read.filter (·.isStale now)) = read.filter (!·.isStale now) := by
    apply List.filter_congr
    intro j hj
    simp [hj]
  have hafter : rest.filter (· ∉ read.filter (·.isStale now)) = rest := by
    rw [List.filter_eq_self]
    intro j hj
    have hnot : j ∉ read := fun hmem => hback j (List.mem_append_right _ hmem) j hj rfl
    simp [hnot]
  rw [hleft, hsplit, List.filter_append, List.filter_append, hbefore, hstay, hafter]

/-- After a page the offset has moved past all that was left alone, and as many jobs fewer than the
page held are left to read. -/
theorem Passed.next (h : s.Passed now kept) (hf : s.Filed) (batch : Nat) :
    let read := s.page kept batch
    let kept' := kept + (read.filter (!·.isStale now)).length
    let s' := s.reclaim now (read.filter (·.isStale now))
    s'.Passed now kept' ∧
      s'.executing.length - kept' = s.executing.length - kept - read.length := by
  intro read kept' s'
  have hE : s'.executing = s.executing.take kept ++ read.filter (!·.isStale now) ++
      s.executing.drop (kept + batch) :=
    hf.executing_reclaim (s.executing_split kept batch).symm
  have htake : (s.executing.take kept).length = kept := by
    rw [List.length_take]
    exact Nat.min_eq_left h.bound
  have hfront : (s.executing.take kept ++ read.filter (!·.isStale now)).length = kept' := by
    rw [List.length_append, htake]
  have hread : read.length = min batch (s.executing.length - kept) := s.length_page kept batch
  have hlength : s'.executing.length = kept' + (s.executing.length - (kept + batch)) := by
    rw [hE, List.length_append, hfront, List.length_drop]
  refine ⟨⟨by omega, ?_⟩, by omega⟩
  intro j hj
  rw [hE, ← hfront, List.take_left] at hj
  rcases List.mem_append.1 hj with hj | hj
  · exact h.alone j hj
  · simpa using (List.mem_filter.1 hj).2

end Store

namespace EngineState

variable {batch kept fuel : Nat} {s t : EngineState} {r : Except EngineError Unit}

/-- A page that was examined to its end is swept. -/
theorem page_sweeps {kept' : Nat} {page : List Job} {u : EngineState}
    (read : s.guarded (·.getJobs { states := [.executing] } ⟨kept, batch⟩) = (.ok page, t))
    (examined : rescuePage now page kept t = (.ok kept', u)) :
    page = s.store.page kept batch ∧ Sweeps now (page.filter (·.isStale now)) s u ∧
      kept' = kept + (page.filter (!·.isStale now)).length := by
  obtain ⟨hsame, hpage⟩ := getJobs_sweeps now read
  obtain ⟨done, rest, hdone, hswept, hend⟩ := rescuePage_sweeps now page kept t
  rw [examined] at hswept hend
  obtain ⟨rfl, hcount⟩ := hend kept' rfl
  rw [List.append_nil] at hdone
  exact ⟨hpage page rfl, hdone ▸ hsame.trans hswept, hcount⟩

/-- What the pages from an offset on come to: the oldest stale jobs are swept, and all of them unless
the run is stopped. -/
theorem Pages.sweeps (h : Pages now batch kept s r t) (hf : s.store.Filed)
    (hpassed : s.store.Passed now kept) :
    ∃ done rest, s.store.stale now = done ++ rest ∧ Sweeps now done s t ∧
      (r = .ok () → rest = []) := by
  induction h with
  | @unread kept s t e read =>
    exact ⟨[], _, rfl, (getJobs_sweeps now read).1, by simp⟩
  | @stopped kept s t u page e read examined =>
    obtain ⟨hsame, hpage⟩ := getJobs_sweeps now read
    obtain rfl : page = s.store.page kept batch := hpage page rfl
    have hsplit := hf.stale_split (s.store.executing_split kept batch).symm hpassed.alone
    obtain ⟨done, rest, hdone, hswept, -⟩ := rescuePage_sweeps now (s.store.page kept batch) kept t
    rw [examined] at hswept
    rw [hdone, List.append_assoc] at hsplit
    exact ⟨done, _, hsplit, hsame.trans hswept, by simp⟩
  | @last kept kept' s t u page read examined short =>
    obtain ⟨rfl, hswept, -⟩ := page_sweeps read examined
    have hsplit := hf.stale_split (s.store.executing_split kept batch).symm hpassed.alone
    have hend : s.store.executing.length ≤ kept + batch := by
      rw [Store.length_page] at short
      omega
    rw [List.drop_eq_nil_of_le hend, List.filter_nil] at hsplit
    exact ⟨_, [], hsplit, hswept, fun _ => rfl⟩
  | @next kept kept' s t u v page r read examined full rest ih =>
    obtain ⟨rfl, hswept, rfl⟩ := page_sweeps read examined
    have hsplit := hf.stale_split (s.store.executing_split kept batch).symm hpassed.alone
    have hleft := hf.stale_reclaim hsplit
    obtain ⟨hnext, -⟩ := hpassed.next hf batch
    rw [← hswept.store] at hleft hnext
    obtain ⟨done, rest, hdone, hrest, hend⟩ := ih (hswept.filed hf) hnext
    rw [← hleft, hdone, ← List.append_assoc] at hsplit
    exact ⟨_, rest, hsplit, hswept.trans hrest, hend⟩

/-- With enough fuel for the jobs after the offset, the loop goes through all pages. -/
theorem pages_of_fuel (hbatch : 0 < batch) (hf : s.store.Filed) (hpassed : s.store.Passed now kept)
    (hfuel : s.store.executing.length - kept < fuel) :
    Pages now batch kept s (rescuePages now batch fuel kept s).1
      (rescuePages now batch fuel kept s).2 := by
  induction fuel generalizing kept s with
  | zero => omega
  | succ fuel ih =>
    simp only [rescuePages]
    split
    · rename_i e t read
      exact .unread read
    · rename_i page t read
      split
      · rename_i e u examined
        exact .stopped read examined
      · rename_i kept' u examined
        split
        · rename_i short
          exact .last read examined short
        · rename_i full
          obtain ⟨rfl, hswept, rfl⟩ := page_sweeps read examined
          obtain ⟨hnext, hfewer⟩ := hpassed.next hf batch
          rw [← hswept.store] at hnext hfewer
          have hpage := s.store.length_page kept batch
          exact .next read examined full (ih (hswept.filed hf) hnext (by omega))

/-- A janitor run ends by itself: the bound on its pages does not stop it. -/
theorem rescueStale_pages (hf : s.store.Filed) (batch : Nat) :
    Pages s.now (max batch 1) 0 s (rescueStale batch s).1 (rescueStale batch s).2 := by
  refine pages_of_fuel (by omega) hf (.start _ _) ?_
  have hlength : s.store.executing.length ≤ s.backend.store.jobs.size :=
    s.store.length_executing_le
  omega

theorem rescueStale_sweeps (hf : s.store.Filed) (batch : Nat) :
    ∃ done rest, s.store.stale s.now = done ++ rest ∧
      Sweeps s.now done s (rescueStale batch s).2 ∧ ((rescueStale batch s).1 = .ok () → rest = []) :=
  (rescueStale_pages hf batch).sweeps hf (.start _ _)

end EngineState

end JobEngine
