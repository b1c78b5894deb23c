-- SUMMARY: A job that has ended stays as it is until it is deleted, unless it was reclaimed early.
import JobEngine.Proofs.Interleaving.Custody

/-!
# Ended jobs

A job that is stored as completed or failed may be overwritten by a worker that picked it in an
earlier attempt and comes back late, as in `World.overtaking`, or by a janitor run that read it
during an earlier attempt. Nothing else but deletion can happen to it. Coming late takes a janitor
that reclaims the job while a worker still has it in hand, or that acts on what it read before
somebody else changed it; if it does neither, the job is never changed again.
-/

namespace JobEngine

/-- The job completed or failed for good. -/
def Job.HasEnded (j : Job) : Prop := j.state = .completed ∨ j.state = .failed

instance (j : Job) : Decidable j.HasEnded := inferInstanceAs (Decidable (_ ∨ _))

namespace World

variable {x : World} {a : Act} {id : JobId} {j : Job}

/-- The janitor rescues the job only while no worker has it in hand, and only from the record that
is stored. -/
def Respects (x : World) (a : Act) (id : JobId) : Prop :=
  x.Rescues a id →
    (∀ w, ¬ x.Holds w id) ∧ ∀ now j, a = .examine now j → x.job? id = some j

/-- An outdated record is about to be stored: a worker is done with the job, or a janitor run
examines what it read of the job before the record changed. -/
def ComesLate (x : World) (a : Act) (id : JobId) : Prop :=
  (∃ w, a.relieved? = some w ∧ x.Holds w id) ∨
    ∃ now k, a = .examine now k ∧ k.id = id ∧ x.job? id ≠ some k

/-- The only other change to a job that has ended, or that was deleted after it had, is its
deletion. -/
theorem change_of_ended (hf : x.engine.store.Filed) (h : x.Lawful a) (hknown : id ∈ x.known)
    (hended : ∀ j, x.job? id = some j → j.HasEnded)
    (hne : (x.after a).job? id ≠ x.job? id) :
    ((∃ retention, a = .delete retention) ∧ (x.after a).job? id = none) ∨ x.ComesLate a id := by
  cases cause_of_change hf h hknown hne with
  | pick stored state => rcases hended _ stored with he | he <;> cases state.symm.trans he
  | outcome relieved holds => exact .inr (.inl ⟨_, relieved, holds⟩)
  | promotion stored awaiting =>
    rcases hended _ stored with he | he <;> rw [he] at awaiting <;> cases awaiting
  | rescue _ stored state => rcases hended _ stored with he | he <;> cases state.symm.trans he
  | @outdated now k hid changed => exact .inr (.inr ⟨now, k, rfl, hid, changed⟩)
  | @deletion retention _ _ _ gone => exact .inl ⟨⟨retention, rfl⟩, gone⟩

/-- The record `j` of a job that has ended is final: it is stored, or the job was deleted. -/
structure Final (x : World) (id : JobId) (j : Job) : Prop where
  custody : x.Custody id
  ended : j.HasEnded
  known : id ∈ x.known
  stored : x.job? id = some j ∨ x.job? id = none

namespace Final

theorem hasEnded (hx : x.Final id j) : ∀ k, x.job? id = some k → k.HasEnded := by
  intro k hk
  rcases hx.stored with h | h
  · exact Option.some.inj (h.symm.trans hk) ▸ hx.ended
  · cases h.symm.trans hk

/-- A final record stays as it is, or it is deleted. -/
theorem record_after (hx : x.Final id j) (h : x.Lawful a) (hr : x.Respects a id) :
    (x.after a).job? id = x.job? id ∨
      (∃ retention, a = .delete retention) ∧ (x.after a).job? id = none := by
  by_cases heq : (x.after a).job? id = x.job? id
  · exact .inl heq
  have hfree : ∀ w, ¬ x.Holds w id := by
    refine hx.custody.not_holds fun k hk hexec => ?_
    rcases hx.hasEnded k hk with he | he <;> cases hexec.symm.trans he
  rcases change_of_ended hx.custody.filed h hx.known hx.hasEnded heq with
    hdelete | ⟨w, -, hw⟩ | ⟨now, k, rfl, -, hk⟩
  · exact .inr hdelete
  · exact absurd hw (hfree w)
  · exact absurd ((hr ⟨rfl, heq⟩).2 now k rfl) hk

theorem after (hx : x.Final id j) (h : x.Lawful a) (hr : x.Respects a id) :
    (x.after a).Final id j where
  custody := hx.custody.after h fun hres => (hr hres).1
  ended := hx.ended
  known := known_after hx.known
  stored := by
    rcases hx.record_after h hr with heq | ⟨-, hnone⟩
    · rw [heq]
      exact hx.stored
    · exact .inr hnone

end Final

/-- The acts of an engine whose janitor respects a job. -/
def Respecting (id : JobId) (x : World) (a : Act) : Prop := x.Lawful a ∧ x.Respects a id

/-- Once a job is stored as completed or failed, an act leaves its record as it is, or deletes it,
or comes late. If the janitor respects the job no act ever does: the record is final, and a deleted
job does not come back. -/
theorem ended_job_final {s : EngineState} (hf : s.store.Filed) {before later : List Act} {a : Act}
    (h : Runs Lawful (start s) (before ++ later ++ [a]))
    (hj : ((start s).afterAll before).job? id = some j) (hended : j.HasEnded) {x : World}
    (hx : x = (start s).afterAll (before ++ later)) :
    (x.job? id = some j ∨ x.job? id = none →
      (x.after a).job? id = x.job? id ∨
        ((∃ retention, a = .delete retention) ∧ (x.after a).job? id = none) ∨
        x.ComesLate a id) ∧
      (Runs (Respecting id) (start s) (before ++ later ++ [a]) →
        (x.job? id = some j ∨ x.job? id = none) ∧
          ((x.after a).job? id = x.job? id ∨
            (∃ retention, a = .delete retention) ∧ (x.after a).job? id = none)) := by
  obtain ⟨hrun, ha, -⟩ := runs_append.1 h
  rw [← hx] at ha
  refine ⟨fun hstored => ?_, fun hr => ?_⟩
  · have hfiled : x.engine.store.Filed := hx ▸ filed_afterAll hf (hrun.mono fun _ _ => And.left)
    have hknown : id ∈ x.known := by
      rw [hx, afterAll_append]
      exact known_afterAll (known_of_job?_afterAll hj)
    have hends : ∀ k, x.job? id = some k → k.HasEnded := by
      intro k hk
      rcases hstored with hs | hs
      · exact Option.some.inj (hs.symm.trans hk) ▸ hended
      · cases hs.symm.trans hk
    by_cases heq : (x.after a).job? id = x.job? id
    · exact .inl heq
    · exact .inr (change_of_ended hfiled ha hknown hends heq)
  · obtain ⟨hrun, ha, -⟩ := runs_append.1 hr
    obtain ⟨hbefore, hlater⟩ := runs_append.1 hrun
    have hcustody : ((start s).afterAll before).Custody id :=
      Custody.afterAll (hbefore.mono fun _ _ h => ⟨h.1, fun hres => (h.2 hres).1⟩) (.start hf)
    have hbegin : ((start s).afterAll before).Final id j :=
      ⟨hcustody, hended, hcustody.known j hj, .inl hj⟩
    have hfinal : x.Final id j := by
      rw [hx, afterAll_append]
      exact hlater.preserves (P := fun x => x.Final id j) (fun _ _ hx h => hx.after h.1 h.2) hbegin
    rw [← hx] at ha
    exact ⟨hfinal.stored, hfinal.record_after ha.1 ha.2⟩

theorem completed_job_final :
    ∃ j, ((start loneEngine).afterAll [.pick 0, .succeed 0]).job? loneJob.id = some j ∧
      j.state = .completed ∧
      let x := (start loneEngine).afterAll [.pick 0, .succeed 0, .enqueue]
      (x.job? loneJob.id = some j ∨ x.job? loneJob.id = none) ∧
        ((x.after (.delete none)).job? loneJob.id = x.job? loneJob.id ∨
          (∃ retention, Act.delete none = .delete retention) ∧
            (x.after (.delete none)).job? loneJob.id = none) := by
  have hlawful : Runs Lawful (start loneEngine)
      ([.pick 0, .succeed 0] ++ [.enqueue] ++ [.delete none]) := by
    decide +kernel
  have hidle : ∀ {x : World} {a : Act}, a.ofJanitor = false → x.Respects a loneJob.id := by
    intro x a ha hres
    rw [hres.1] at ha
    cases ha
  have hrespecting : Runs (Respecting loneJob.id) (start loneEngine)
      ([.pick 0, .succeed 0] ++ [.enqueue] ++ [.delete none]) := by
    obtain ⟨h₁, h₂, h₃, h₄, -⟩ := hlawful
    exact ⟨⟨h₁, hidle rfl⟩, ⟨h₂, hidle rfl⟩, ⟨h₃, hidle rfl⟩, ⟨h₄, hidle rfl⟩, trivial⟩
  have hstate : (((start loneEngine).afterAll [.pick 0, .succeed 0]).job? loneJob.id).map
      Job.state = some .completed := by
    decide +kernel
  obtain ⟨j, hj, hs⟩ := Option.map_eq_some_iff.1 hstate
  exact ⟨j, hj, hs, (ended_job_final filed_loneEngine hlawful hj (.inl hs) rfl).2 hrespecting⟩

/-- Without the condition on the janitor an ended job can come back: in `overtaking` the first
worker stores its late failure over the completed job. -/
theorem ended_job_overwritten :
    ¬ ∀ (s : EngineState) (acts : List Act) (a : Act) (id : JobId) (j : Job),
      s.store.Filed → (∀ id j, s.store.job? id = some j → j.state.isActive) →
      Runs Lawful (start s) (acts ++ [a]) →
      ((start s).afterAll acts).job? id = some j → j.HasEnded →
      ((start s).afterAll (acts ++ [a])).job? id = some j ∨
        (∃ retention, a = .delete retention) ∧
          ((start s).afterAll (acts ++ [a])).job? id = none := by
  intro hclaim
  have hstate : (((start loneEngine).afterAll (overtaking.take 6)).job? loneJob.id).map Job.state =
      some .completed := by
    decide +kernel
  have hlate : (((start loneEngine).afterAll overtaking).job? loneJob.id).map Job.state =
      some .retryable := by
    decide +kernel
  obtain ⟨j, hj, hs⟩ := Option.map_eq_some_iff.1 hstate
  have hactive : ∀ id j, loneEngine.store.job? id = some j → j.state.isActive := by
    intro id j hj
    rw [(job?_loneEngine hj).1]
    rfl
  rcases hclaim loneEngine (overtaking.take 6) (.fail 0 { message := "too late" } .linear)
    loneJob.id j filed_loneEngine hactive overtaking_lawful hj (.inl hs) with
    hkept | ⟨⟨retention, hdelete⟩, -⟩
  · have hkept : ((start loneEngine).afterAll overtaking).job? loneJob.id = some j := hkept
    rw [hkept] at hlate
    simp [hs] at hlate
  · cases hdelete

end World

end JobEngine
