-- SUMMARY: While the janitor spares held jobs, every attempt of a job has one worker.
import JobEngine.Proofs.Interleaving.Change

/-!
# Custody of jobs

No lock keeps two workers from running one job, only its state does. As long as the janitor does not
reclaim a job that a worker has in hand, the job stays in the store as it was picked, so neither a
pick nor any other act touches it, and only its worker ends its attempt.

Custody is an invariant of each job by itself: what the janitor does to other jobs does not matter.

A job that is ready leaves that state by a pick. For this the maintenance commands have to run one
after another, as the scheduler has it: if jobs were made ready in the middle of a janitor run, it
could write an outdated record over one of them.
-/

namespace JobEngine.World

variable {x : World} {a : Act} {id : JobId}

/-- The janitor's act `a` changes the record of a job. -/
def Rescues (x : World) (a : Act) (id : JobId) : Prop :=
  a.ofJanitor ∧ (x.after a).job? id ≠ x.job? id

/-- The janitor does not rescue the job while a worker has it in hand. -/
def Spares (x : World) (a : Act) (id : JobId) : Prop := x.Rescues a id → ∀ w, ¬ x.Holds w id

theorem spares_of_not_janitor (h : a.ofJanitor = false) : x.Spares a id := by
  intro hr
  rw [hr.1] at h
  cases h

/-! ## The invariant -/

/-- A job in a worker's hands is stored as it was picked, and no other worker has it. -/
structure Custody (x : World) (id : JobId) : Prop where
  filed : x.engine.store.Filed
  known : ∀ j, x.job? id = some j → id ∈ x.known
  stored : ∀ w j, x.held w = some j → j.id = id → x.job? id = some j ∧ j.state = .executing
  alone : ∀ v w, x.Holds v id → x.Holds w id → v = w

namespace Custody

theorem start {s : EngineState} (hf : s.store.Filed) : (start s).Custody id where
  filed := hf
  known := fun j hj => Table.mem_keys.2 ⟨j, hj⟩
  stored := fun w j hj _ => by cases hj
  alone := fun v w ⟨j, hj, _⟩ _ => by cases hj

/-- A job that is not stored as executing is in nobody's hands. -/
theorem not_holds (hx : x.Custody id) (h : ∀ j, x.job? id = some j → j.state ≠ .executing)
    (w : Nat) : ¬ x.Holds w id := by
  rintro ⟨k, hk, hid⟩
  obtain ⟨hstored, hexec⟩ := hx.stored w k hk hid
  exact h k hstored hexec

theorem not_holds_of_enqueued (hx : x.Custody id) {j : Job} (hj : x.job? id = some j)
    (hq : j.state = .enqueued) (w : Nat) : ¬ x.Holds w id := by
  refine hx.not_holds (fun k hk => ?_) w
  obtain rfl : k = j := Option.some.inj (hk.symm.trans hj)
  simp [hq]

/-- An act that leaves a worker the job leaves the record of the job alone. -/
theorem record_kept (hx : x.Custody id) (h : x.Lawful a) (hs : x.Spares a id) {w : Nat} {k : Job}
    (hk : x.held w = some k) (hid : k.id = id) (hrel : a.relieved? ≠ some w) :
    (x.after a).job? id = some k := by
  obtain ⟨hstored, hexec⟩ := hx.stored w k hk hid
  have hstate : ∀ i, x.job? id = some i → i.state = .executing := by
    intro i hi
    obtain rfl := Option.some.inj (hi.symm.trans hstored)
    exact hexec
  by_cases heq : (x.after a).job? id = x.job? id
  · exact heq.trans hstored
  cases cause_of_change hx.filed h (hx.known k hstored) heq with
  | pick stored state => cases (hstate _ stored).symm.trans state
  | outcome relieved holds =>
    obtain rfl := hx.alone _ w holds ⟨k, hk, hid⟩
    exact absurd relieved hrel
  | promotion stored awaiting =>
    rw [hstate _ stored] at awaiting
    cases awaiting
  | rescue janitor _ _ => exact absurd ⟨k, hk, hid⟩ (hs ⟨janitor, heq⟩ w)
  | outdated _ _ => exact absurd ⟨k, hk, hid⟩ (hs ⟨rfl, heq⟩ w)
  | deletion stored terminal _ =>
    rw [hstate _ stored] at terminal
    cases terminal

theorem after (hx : x.Custody id) (h : x.Lawful a) (hs : x.Spares a id) :
    (x.after a).Custody id where
  filed := filed_after hx.filed h.1
  known := fun _ => known_of_job?_after
  stored := by
    intro w k hk hid
    rcases held_after hx.filed hk with ⟨hbefore, hrel⟩ | ⟨-, j, -, -, rfl, hstored⟩
    · exact ⟨hx.record_kept h hs hbefore hid hrel, (hx.stored w k hbefore hid).2⟩
    · subst hid
      exact ⟨hstored, rfl⟩
  alone := by
    rintro v w ⟨j, hj, hidj⟩ ⟨k, hk, hidk⟩
    -- What was picked just now was ready before, so it was in nobody's hands.
    rcases held_after hx.filed hj with ⟨hj', -⟩ | ⟨hv, j', hsj, hqj, rfl, -⟩
    · rcases held_after hx.filed hk with ⟨hk', -⟩ | ⟨-, k', hsk, hqk, rfl, -⟩
      · exact hx.alone v w ⟨j, hj', hidj⟩ ⟨k, hk', hidk⟩
      · obtain rfl : k'.id = id := hidk
        exact absurd ⟨j, hj', hidj⟩ (hx.not_holds_of_enqueued hsk hqk v)
    · rcases held_after hx.filed hk with ⟨hk', -⟩ | ⟨hw, -⟩
      · obtain rfl : j'.id = id := hidj
        exact absurd ⟨k, hk', hidk⟩ (hx.not_holds_of_enqueued hsj hqj w)
      · exact Act.pick.inj (hv.symm.trans hw)

/-- Custody of a job lasts as long as the janitor spares it. -/
theorem afterAll {acts : List Act}
    (h : Runs (fun x a => x.Lawful a ∧ x.Spares a id) x acts) (hx : x.Custody id) :
    (x.afterAll acts).Custody id :=
  h.preserves (P := fun x => x.Custody id) (fun _ _ hx h => hx.after h.1 h.2) hx

end Custody

/-! ## Ready jobs -/

/-- The worker whose pick changes the record of a job has it in hand. -/
theorem holds_of_pick {w : Nat} (hf : x.engine.store.Filed)
    (h : (x.after (.pick w)).job? id ≠ x.job? id) : (x.after (.pick w)).Holds w id := by
  rw [job?_after_eq] at h
  rcases EngineState.pick_cases hf with ⟨t, ht, hs⟩ | ⟨j, t, hj, hq, ht, hs⟩
  · exact absurd (by simp only [perform, hold, ht, hs, job?]) h
  · refine ⟨j.execute x.engine.now, by simp [World.after, perform, hold, ht], ?_⟩
    simp only [perform, hold, ht] at h
    rcases job?_of_saved (congrArg Store.jobs hs) id with heq | ⟨hid, -⟩
    · exact absurd heq h
    · exact hid

/-- Only the command that makes jobs ready does. -/
theorem not_ready_after (hf : x.engine.store.Filed) (h : x.Possible a) (ha : a ≠ .enqueue)
    (hx : ∀ j, x.job? id = some j → j.state ≠ .enqueued) :
    ∀ j, (x.after a).job? id = some j → j.state ≠ .enqueued := by
  intro k hk
  rcases job?_after hf h id with hsame | ⟨r, hr, hchange⟩
  · exact hx k (hsame.symm.trans hk)
  obtain rfl : r = some k := hr.symm.trans hk
  cases hchange with
  | promoted => exact absurd rfl ha
  | picked | completed | retried | failed | derived | swept | rescued =>
    intro hq
    cases hq

theorem not_ready_afterAll {acts : List Act} (hf : x.engine.store.Filed)
    (h : Runs Possible x acts) (hacts : .enqueue ∉ acts)
    (hx : ∀ j, x.job? id = some j → j.state ≠ .enqueued) :
    ∀ j, (x.afterAll acts).job? id = some j → j.state ≠ .enqueued := by
  induction acts generalizing x with
  | nil => exact hx
  | cons a rest ih =>
    obtain ⟨ha, hrest⟩ := List.ne_and_not_mem_of_not_mem_cons hacts
    exact ih (filed_after hf h.1) h.2 hrest (not_ready_after hf h.1 ha.symm hx)

/-- If act `a` examines a record after the run `acts`, no job was made ready in the course of that
janitor run: the record was read on a page, and there was no `enqueue` since. -/
def Undisturbed (s : EngineState) (acts : List Act) : Act → Prop
  | .examine _ k => ∃ before p later, acts = before ++ .read p :: later ∧
      k ∈ ((start s).afterAll before).page p ∧ .enqueue ∉ later
  | _ => True

/-- What an undisturbed janitor run examines is not ready. -/
theorem Undisturbed.not_ready {s : EngineState} {acts : List Act} {now : Instant} {k : Job}
    (hu : Undisturbed s acts (.examine now k)) (hf : s.store.Filed)
    (h : Runs Possible (start s) acts) :
    ∀ j, ((start s).afterAll acts).job? k.id = some j → j.state ≠ .enqueued := by
  obtain ⟨before, p, later, rfl, hk, hlater⟩ := hu
  obtain ⟨hbefore, hrest⟩ := runs_append.1 h
  have hfiled := filed_afterAll hf hbefore
  obtain ⟨hstored, hexec⟩ := stored_of_mem_page hfiled hk
  rw [afterAll_append]
  have hquiet : Act.enqueue ∉ Act.read p :: later := by simpa using hlater
  refine not_ready_afterAll hfiled hrest hquiet ?_
  intro j hj
  obtain rfl : k = j := Option.some.inj (hstored.symm.trans hj)
  rw [hexec]
  decide

/-- What takes a job that is ready is a pick, unless it is a janitor run with an older record. -/
theorem Custody.taken (hx : x.Custody id) (h : x.Lawful a) {j : Job} (hj : x.job? id = some j)
    (hq : j.state = .enqueued) (hne : (x.after a).job? id ≠ x.job? id) :
    (∃ w, a = .pick w) ∨ ∃ now k, a = .examine now k ∧ k.id = id := by
  have hstate : ∀ i, x.job? id = some i → i.state = .enqueued := by
    intro i hi
    obtain rfl := Option.some.inj (hi.symm.trans hj)
    exact hq
  cases cause_of_change hx.filed h (hx.known j hj) hne with
  | @pick w _ _ _ => exact .inl ⟨w, rfl⟩
  | outcome _ holds => exact absurd holds (hx.not_holds_of_enqueued hj hq _)
  | promotion stored awaiting =>
    rw [hstate _ stored] at awaiting
    cases awaiting
  | rescue _ stored state => cases (hstate _ stored).symm.trans state
  | @outdated now k hid changed => exact .inr ⟨now, k, rfl, hid⟩
  | deletion stored terminal _ =>
    rw [hstate _ stored] at terminal
    cases terminal

/-! ## All jobs -/

/-- The acts of an engine whose janitor spares held jobs. -/
def Sparing (x : World) (a : Act) : Prop := x.Lawful a ∧ ∀ id, x.Spares a id

theorem sparing_of_not_janitor (h : x.Lawful a) (ha : a.ofJanitor = false) : x.Sparing a :=
  ⟨h, fun _ => spares_of_not_janitor ha⟩

theorem sparing_of_idle (h : x.Lawful a) (hidle : ∀ w, x.held w = none) : x.Sparing a := by
  refine ⟨h, fun id _ w => ?_⟩
  rintro ⟨j, hj, -⟩
  rw [hidle w] at hj
  cases hj

/-- If only one worker picks jobs, then all hands are empty once it is done with its last one. -/
theorem idle_afterAll {l m : List Act} {w : Nat} (hidle : ∀ v, x.held v = none)
    (hrel : a.relieved? = some w) (hlater : .pick w ∉ m) (hpicks : ∀ v ≠ w, .pick v ∉ l ++ a :: m)
    (v : Nat) : (x.afterAll (l ++ a :: m)).held v = none := by
  by_cases hv : v = w
  · subst hv
    rw [afterAll_append]
    exact held_afterAll_eq_none (x := (x.afterAll l).after a) (held_of_relieved hrel) hlater
  · exact held_afterAll_eq_none (hidle v) (hpicks v hv)

/-- A record in another state is another record. -/
theorem ne_some_of_state {r : Option Job} {j : Job} {state : JobState}
    (hr : r.map Job.state = some state) (hj : j.state ≠ state) : r ≠ some j := by
  rintro rfl
  exact hj (Option.some.inj hr)

/-- While the janitor spares held jobs, the jobs in the workers' hands are distinct and stored as
they are held, a pick gives a job that no worker has, and a job that is ready leaves that state into
the hands of exactly one worker. As the maintenance commands run one after another, no job is made
ready during a janitor run. -/
theorem one_worker_per_attempt {s : EngineState} (hf : s.store.Filed) {acts : List Act}
    (h : Runs Sparing (start s) acts) {x : World} (hx : x = (start s).afterAll acts) :
    (∀ v w j k, x.held v = some j → x.held w = some k → v ≠ w → j.id ≠ k.id) ∧
      (∀ w j, x.held w = some j → x.job? j.id = some j ∧ j.state = .executing) ∧
      (∀ j, x.engine.pick.1 = some j → ∀ w, ¬ x.Holds w j.id) ∧
      ∀ a id j, x.Sparing a → Undisturbed s acts a → x.job? id = some j → j.state = .enqueued →
        (x.after a).job? id ≠ some j →
          ∃ w, a = .pick w ∧ ∀ v, (x.after a).Holds v id ↔ v = w := by
  have hc : ∀ id, x.Custody id := fun id =>
    hx ▸ Custody.afterAll (h.mono fun _ _ h => ⟨h.1, h.2 id⟩) (.start hf)
  refine ⟨?distinct, fun w j hj => (hc j.id).stored w j hj rfl, ?pick, ?passage⟩
  case distinct =>
    intro v w j k hj hk hne hid
    exact hne ((hc k.id).alone v w ⟨j, hj, hid⟩ ⟨k, hk, rfl⟩)
  case pick =>
    intro j hj w
    rcases EngineState.pick_cases (hc j.id).filed with ⟨t, ht, -⟩ | ⟨i, t, hi, hq, ht, -⟩
    · rw [ht] at hj
      cases hj
    · rw [ht] at hj
      obtain rfl := Option.some.inj hj
      exact (hc i.id).not_holds_of_enqueued hi hq w
  case passage =>
    intro a id j ha hu hj hq hne
    rw [← hj] at hne
    rcases (hc id).taken ha.1 hj hq hne with ⟨w, rfl⟩ | ⟨now, k, rfl, rfl⟩
    · have hw := holds_of_pick (hc id).filed hne
      refine ⟨w, rfl, fun v => ⟨fun hv => ?_, fun hv => hv ▸ hw⟩⟩
      exact ((hc id).after ha.1 (ha.2 id)).alone v w hv hw
    · have hpossible : Runs Possible (start s) acts := h.mono fun _ _ h => h.1.1
      exact absurd hq (hu.not_ready hf hpossible j (hx ▸ hj))

/-- A worker drops its job. Later a janitor run reads the job and reclaims it, and it is made ready.
-/
def dropping : List Act :=
  [.pick 0, .lose 0,
    .other { ((start loneEngine).after (.pick 0)).engine with now := .ofMillis 1000000 },
    .read ⟨0, 1000⟩, .examine (.ofMillis 1000000) (loneJob.execute .epoch), .enqueue]

theorem dropping_sparing : Runs Sparing (start loneEngine) dropping := by
  have hlawful : Runs Lawful (start loneEngine) dropping := by decide +kernel
  obtain ⟨h₁, h₂, h₃, h₄, h₅, h₆, -⟩ := hlawful
  have hidle : ∀ w, ((start loneEngine).afterAll (dropping.take 4)).held w = none :=
    idle_afterAll (l := dropping.take 1) (a := .lose 0) (fun _ => rfl) rfl (by simp)
      fun v hv => by simp [dropping, hv]
  exact ⟨sparing_of_not_janitor h₁ rfl, sparing_of_not_janitor h₂ rfl, sparing_of_not_janitor h₃ rfl,
    sparing_of_not_janitor h₄ rfl, sparing_of_idle h₅ hidle, sparing_of_not_janitor h₆ rfl, trivial⟩

/-- The worker that picks the job then has it, and nobody else does. -/
theorem dropped_job_has_new_worker :
    ∃ j, ((start loneEngine).afterAll dropping).job? loneJob.id = some j ∧ j.retries = 1 ∧
      j.state = .enqueued ∧
      ∀ v, (((start loneEngine).afterAll dropping).after (.pick 1)).Holds v loneJob.id ↔ v = 1 := by
  obtain ⟨-, -, -, hpassage⟩ := one_worker_per_attempt filed_loneEngine dropping_sparing rfl
  have hready : (((start loneEngine).afterAll dropping).job? loneJob.id).map
      (fun j => (j.state, j.retries)) = some (.enqueued, 1) := by
    decide +kernel
  have hpicked : ((((start loneEngine).afterAll dropping).after (.pick 1)).job? loneJob.id).map
      Job.state = some .executing := by
    decide +kernel
  obtain ⟨j, hj, hstate⟩ := Option.map_eq_some_iff.1 hready
  obtain ⟨hq, hretries⟩ := Prod.mk.inj hstate
  have hlawful : ((start loneEngine).afterAll dropping).Lawful (.pick 1) := by decide +kernel
  have hne := ne_some_of_state hpicked (by rw [hq]; decide)
  obtain ⟨w, hw, hholds⟩ := hpassage (.pick 1) loneJob.id j (sparing_of_not_janitor hlawful rfl)
    trivial hj hq hne
  obtain rfl := Act.pick.inj hw
  exact ⟨j, hj, hretries, hq, hholds⟩

/-- A janitor run reads a job that has taken too long. Before it examines it, the attempt fails and
the job is made ready again. -/
def disturbing : List Act :=
  [.pick 0, .other { ((start loneEngine).after (.pick 0)).engine with now := .ofMillis 1000000 },
    .read ⟨0, 1000⟩, .fail 0 { message := "boom" } (.constant (.ofSecs 0)), .enqueue]

/-- A janitor run that is disturbed can take a job that is ready. -/
theorem ready_job_overwritten :
    ¬ ∀ (s : EngineState) (acts : List Act) (a : Act) (id : JobId) (j : Job), s.store.Filed →
      Runs Sparing (start s) (acts ++ [a]) → ((start s).afterAll acts).job? id = some j →
      j.state = .enqueued → ((start s).afterAll (acts ++ [a])).job? id ≠ some j →
        ∃ w, a = .pick w := by
  intro hclaim
  have hlawful : Runs Lawful (start loneEngine)
      (disturbing ++ [.examine (.ofMillis 1000000) (loneJob.execute .epoch)]) := by
    decide +kernel
  obtain ⟨h₁, h₂, h₃, h₄, h₅, h₆, -⟩ := hlawful
  have hidle : ∀ w, ((start loneEngine).afterAll disturbing).held w = none :=
    idle_afterAll (l := disturbing.take 3) (a := .fail 0 { message := "boom" } (.constant (.ofSecs 0)))
      (fun _ => rfl) rfl (by simp) fun v hv => by simp [disturbing, hv]
  have hsparing : Runs Sparing (start loneEngine)
      (disturbing ++ [.examine (.ofMillis 1000000) (loneJob.execute .epoch)]) :=
    ⟨sparing_of_not_janitor h₁ rfl, sparing_of_not_janitor h₂ rfl, sparing_of_not_janitor h₃ rfl,
      sparing_of_not_janitor h₄ rfl, sparing_of_not_janitor h₅ rfl, sparing_of_idle h₆ hidle,
      trivial⟩
  have hready : (((start loneEngine).afterAll disturbing).job? loneJob.id).map Job.state =
      some .enqueued := by
    decide +kernel
  have hrescued : (((start loneEngine).afterAll (disturbing ++
      [.examine (.ofMillis 1000000) (loneJob.execute .epoch)])).job? loneJob.id).map Job.state =
      some .retryable := by
    decide +kernel
  obtain ⟨j, hj, hq⟩ := Option.map_eq_some_iff.1 hready
  have hne := ne_some_of_state hrescued (by rw [hq]; decide)
  obtain ⟨w, hw⟩ := hclaim loneEngine disturbing _ loneJob.id j filed_loneEngine hsparing hj hq hne
  cases hw

end JobEngine.World
