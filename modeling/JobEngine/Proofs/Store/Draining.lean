-- SUMMARY: Picking again and again takes the ready jobs of a store in their order, each once.
import JobEngine.Proofs.Engine.Calls
import JobEngine.Proofs.Store.Listing

/-!
# Draining a store

The ready jobs of a store stand in a strict order: the heavier queue, the longer wait, the greater
age, the smaller identifier. A pick takes the first of them and leaves the others, so that picks
which follow each other take them one by one, at whatever times they are made. Afterwards there is
nothing to pick.
-/

namespace JobEngine

/-! ## The order of picks -/

namespace Job

variable {a b c j : Job} {l q : List Job}

/-- Due before; a job that waits for no time is due before all others. -/
def DueBefore (a b : Option Instant) : Prop :=
  (a = none ∧ b ≠ none) ∨ ∃ s t, a = some s ∧ b = some t ∧ s < t

/-- On a heavier queue; on an equally heavy one, due before; due at the same time, created before;
created at the same time, under a smaller identifier. -/
def Precedes (a b : Job) : Prop :=
  b.queue.weight < a.queue.weight ∨ (a.queue.weight = b.queue.weight ∧
    (DueBefore a.scheduledAt b.scheduledAt ∨ (a.scheduledAt = b.scheduledAt ∧
      (a.createdAt < b.createdAt ∨ (a.createdAt = b.createdAt ∧ a.id < b.id)))))

/-- A time as a number; no time stands before the first one. -/
def dueRank : Option Instant → Int
  | none => Instant.minNanos - 1
  | some t => t.nanos

theorem dueBefore_iff {s t : Option Instant} : DueBefore s t ↔ dueRank s < dueRank t := by
  cases s with
  | none =>
    cases t with
    | none => simp [DueBefore]
    | some t =>
      have hmin := t.min_le
      simp only [DueBefore, dueRank, ne_eq, reduceCtorEq, not_false_eq_true, and_self, true_or,
        true_iff]
      omega
  | some s =>
    have hmin := s.min_le
    cases t with
    | none =>
      simp only [DueBefore, dueRank, reduceCtorEq, false_and, and_false, exists_const, or_self,
        false_iff]
      omega
    | some t =>
      simp only [DueBefore, dueRank, reduceCtorEq, false_and, false_or, Option.some.injEq]
      constructor
      · rintro ⟨_, _, rfl, rfl, h⟩
        exact h
      · exact fun h => ⟨s, t, rfl, rfl, h⟩

theorem dueRank_inj {s t : Option Instant} : dueRank s = dueRank t ↔ s = t := by
  refine ⟨fun h => ?_, congrArg dueRank⟩
  cases s with
  | none =>
    cases t with
    | none => rfl
    | some t =>
      have hmin := t.min_le
      simp only [dueRank] at h
      omega
  | some s =>
    have hmin := s.min_le
    cases t with
    | none =>
      simp only [dueRank] at h
      omega
    | some t => exact congrArg some (Instant.ext_nanos h)

theorem precedes_iff : a.Precedes b ↔ b.queue.weight.val < a.queue.weight.val ∨
    (a.queue.weight.val = b.queue.weight.val ∧
      (dueRank a.scheduledAt < dueRank b.scheduledAt ∨
        (dueRank a.scheduledAt = dueRank b.scheduledAt ∧
          (a.createdAt.nanos < b.createdAt.nanos ∨
            (a.createdAt.nanos = b.createdAt.nanos ∧ a.id.value < b.id.value))))) := by
  have hweight : a.queue.weight = b.queue.weight ↔ a.queue.weight.val = b.queue.weight.val :=
    ⟨congrArg Count.val, Count.ext_val⟩
  have htime : a.createdAt = b.createdAt ↔ a.createdAt.nanos = b.createdAt.nanos :=
    ⟨congrArg Instant.nanos, Instant.ext_nanos⟩
  rw [Precedes, hweight, dueBefore_iff, dueRank_inj, htime]
  exact Iff.rfl

theorem Precedes.not_precedes (h : a.Precedes b) : ¬ b.Precedes a := by
  rw [precedes_iff] at *
  omega

theorem Precedes.ne (h : a.Precedes b) : a ≠ b := by
  rintro rfl
  exact h.not_precedes h

theorem precedes_or_precedes (h : a.id ≠ b.id) : a.Precedes b ∨ b.Precedes a := by
  have hvalue : a.id.value ≠ b.id.value := fun hv => h (Uuid.ext_value hv)
  rw [precedes_iff, precedes_iff]
  omega

theorem not_precedes_trans (h : ¬ a.Precedes b) (h' : ¬ b.Precedes c) : ¬ a.Precedes c := by
  rw [precedes_iff] at *
  omega

theorem timeBefore_eq_true {s t : Option Instant} : timeBefore s t = true ↔ DueBefore s t := by
  cases s <;> cases t <;> simp [timeBefore, DueBefore]

theorem pickedBefore_eq_true : a.pickedBefore b = true ↔ a.Precedes b := by
  unfold pickedBefore
  rw [precedes_iff]
  split
  · rename_i hweight
    have hne : a.queue.weight.val ≠ b.queue.weight.val := fun h => hweight (Count.ext_val h)
    rw [decide_eq_true_eq]
    change b.queue.weight.val < a.queue.weight.val ↔ _
    omega
  · rename_i hweight
    have hsame := congrArg Count.val (Decidable.not_not.1 hweight)
    split
    · rename_i hdue
      have hne : dueRank a.scheduledAt ≠ dueRank b.scheduledAt := fun h => hdue (dueRank_inj.1 h)
      rw [timeBefore_eq_true, dueBefore_iff]
      omega
    · rename_i hdue
      have hsame' := congrArg dueRank (Decidable.not_not.1 hdue)
      split
      · rename_i htime
        have hne : a.createdAt.nanos ≠ b.createdAt.nanos := fun h => htime (Instant.ext_nanos h)
        rw [decide_eq_true_eq]
        change a.createdAt.nanos < b.createdAt.nanos ↔ _
        omega
      · rename_i htime
        have hsame'' := congrArg Instant.nanos (Decidable.not_not.1 htime)
        rw [decide_eq_true_eq]
        change a.id.value < b.id.value ↔ _
        omega

theorem firstPicked?_eq_none (h : firstPicked? l = none) : l = [] := by
  cases l with
  | nil => rfl
  | cons k rest =>
    simp only [firstPicked?] at h
    split at h
    · cases h
    · split at h <;> cases h

/-- No job of the list precedes the one that is picked first. -/
theorem not_precedes_of_firstPicked? (h : firstPicked? l = some j) (ha : a ∈ l) :
    ¬ a.Precedes j := by
  induction l generalizing j with
  | nil => cases h
  | cons k rest ih =>
    simp only [firstPicked?] at h
    split at h
    · rename_i hrest
      obtain rfl := Option.some.inj h
      have hnil : rest = [] := firstPicked?_eq_none hrest
      obtain rfl : a = k := by simpa [hnil] using ha
      exact fun hself => hself.ne rfl
    · rename_i first hrest
      have hfirst := ih hrest
      split at h
      · rename_i hbefore
        obtain rfl := Option.some.inj h
        rcases List.mem_cons.1 ha with rfl | ha
        · exact (pickedBefore_eq_true.1 hbefore).not_precedes
        · exact hfirst ha
      · rename_i hbefore
        obtain rfl := Option.some.inj h
        rw [pickedBefore_eq_true] at hbefore
        rcases List.mem_cons.1 ha with rfl | ha
        · exact fun hself => hself.ne rfl
        · exact not_precedes_trans (hfirst ha) hbefore

/-- A list in the order of picks gives its first job, however its members are listed. -/
theorem firstPicked?_eq_head? (hq : q.Pairwise Precedes) (h : ∀ j, j ∈ q ↔ j ∈ l) :
    firstPicked? l = q.head? := by
  cases q with
  | nil =>
    have hnil : l = [] := List.eq_nil_iff_forall_not_mem.2 fun j hj => by simpa using (h j).2 hj
    rw [hnil]
    rfl
  | cons k rest =>
    have hk : k ∈ l := (h k).1 List.mem_cons_self
    cases hfirst : firstPicked? l with
    | none => simp [firstPicked?_eq_none hfirst] at hk
    | some j =>
      have hj : j ∈ l := Store.mem_of_firstPicked? hfirst
      rcases List.mem_cons.1 ((h j).2 hj) with rfl | hrest
      · rfl
      · exact absurd ((List.pairwise_cons.1 hq).1 j hrest) (not_precedes_of_firstPicked? hfirst hk)

end Job

/-! ## Picks one after another -/

namespace Store

variable {s : Store} {j : Job} {q : List Job} {now : Instant}

/-- The list holds the ready jobs of a store in the order of picks. -/
structure Queued (s : Store) (q : List Job) : Prop where
  mem_iff : ∀ j, j ∈ q ↔ s.job? j.id = some j ∧ j.state = .enqueued
  ordered : q.Pairwise Job.Precedes

theorem Queued.ids_nodup (hq : s.Queued q) : (q.map Job.id).Nodup := by
  refine List.pairwise_map.2 (hq.ordered.imp_of_mem fun {a b} ha hb h hid => h.ne ?_)
  have ha := ((hq.mem_iff a).1 ha).1
  rw [hid, ((hq.mem_iff b).1 hb).1] at ha
  exact (Option.some.inj ha).symm

/-- The ready jobs of every filed store can be put in the order of picks. -/
theorem Filed.exists_queued (hf : s.Filed) : ∃ q, s.Queued q := by
  let ready := s.jobs.values.filter fun j => j.state = .enqueued
  let before (a b : Job) : Bool := !b.pickedBefore a
  have hbefore {a b : Job} : before a b = true ↔ ¬ b.Precedes a := by
    rw [Bool.not_eq_true', ← Bool.not_eq_true, Job.pickedBefore_eq_true]
  have hperm : (ready.mergeSort before).Perm ready := List.mergeSort_perm _ _
  refine ⟨ready.mergeSort before, fun j => ?_, ?_⟩
  · rw [hperm.mem_iff, List.mem_filter, decide_eq_true_eq]
    exact and_congr_left fun _ => ⟨hf.job?_of_mem, mem_values_of_job?⟩
  · have hsorted : (ready.mergeSort before).Pairwise fun a b => before a b := by
      apply List.pairwise_mergeSort
      · intro a b c hab hbc
        rw [hbefore] at *
        exact Job.not_precedes_trans hbc hab
      · intro a b
        rw [Bool.or_eq_true, hbefore, hbefore]
        by_cases h : b.Precedes a
        · exact .inr h.not_precedes
        · exact .inl h
    have hids : ((ready.mergeSort before).map Job.id).Nodup :=
      (hperm.map Job.id).nodup_iff.2 (hf.ids_nodup.sublist (List.filter_sublist.map _))
    refine (hsorted.and (List.pairwise_map.1 hids)).imp fun h => ?_
    exact (Job.precedes_or_precedes h.2).resolve_right (hbefore.1 h.1)

theorem Filed.firstPicked?_ready (hf : s.Filed) (hq : s.Queued q) :
    Job.firstPicked? (s.jobs.values.filter fun j => j.state = .enqueued) = q.head? := by
  refine Job.firstPicked?_eq_head? hq.ordered fun j => ?_
  rw [hq.mem_iff, List.mem_filter, decide_eq_true_eq]
  exact and_congr_left fun _ => ⟨mem_values_of_job?, hf.job?_of_mem⟩

theorem Filed.pickJob_nil (hf : s.Filed) (hq : s.Queued []) : s.pickJob now = (none, s) := by
  unfold pickJob
  rw [hf.firstPicked?_ready hq]
  rfl

theorem Filed.pickJob_cons (hf : s.Filed) (hq : s.Queued (j :: q)) :
    s.pickJob now = (some (j.execute now), s.saveJob (j.execute now)) := by
  unfold pickJob
  rw [hf.firstPicked?_ready hq]
  rfl

/-- Once the attempt of the first job begins, the others are queued as before. -/
theorem Queued.tail (hq : s.Queued (j :: q)) : (s.saveJob (j.execute now)).Queued q := by
  obtain ⟨hfirst, hrest⟩ := List.pairwise_cons.1 hq.ordered
  have hj := (hq.mem_iff j).1 List.mem_cons_self
  have hid : (j.execute now).id = j.id := rfl
  refine ⟨fun k => ?_, hrest⟩
  rw [job?_saveJob, hid]
  split
  · rename_i hsame
    constructor
    · -- No other queued job has the identifier of the first one.
      intro hk
      have hstored := ((hq.mem_iff k).1 (List.mem_cons_of_mem _ hk)).1
      rw [hsame, hj.1] at hstored
      exact absurd (Option.some.inj hstored) (hfirst k hk).ne
    · rintro ⟨hk, hstate⟩
      obtain rfl := Option.some.inj hk
      cases hstate
  · rename_i hother
    rw [← hq.mem_iff, List.mem_cons]
    have hne : k ≠ j := fun h => hother (congrArg Job.id h)
    exact (or_iff_right hne).symm

end Store

namespace Backend

/-- Pick at each of some times, one after another. -/
def pickAll : List Instant → Backend → List (Except EngineError (Option Job)) × Backend
  | [], b => ([], b)
  | now :: rest, b =>
    let (answer, b) := b.pickJob now
    let (answers, b) := pickAll rest b
    (answer :: answers, b)

variable {b : Backend} {q : List Job}

/-- The jobs of a queue that picks at some times take, as they then are: the attempt of each begins
at the time of its pick. -/
def begun (q : List Job) (times : List Instant) : List Job :=
  q.zipWith (fun j now => { j with state := .executing, executingAt := some now }) times

theorem map_id_begun_sublist (q : List Job) (times : List Instant) :
    ((begun q times).map Job.id).Sublist (q.map Job.id) := by
  induction q generalizing times with
  | nil => exact .slnil
  | cons j q ih =>
    cases times with
    | nil => exact List.nil_sublist _
    | cons now rest => exact (ih rest).cons_cons j.id

/-- Picks take the jobs of the queue in order, each at its time, and then find nothing. -/
theorem pickAll_of_queued (hf : b.store.Filed) (ha : b.available) (hb : b.Faultless)
    (hq : b.store.Queued q) (times : List Instant) :
    (pickAll times b).1 = (begun q times).map (fun j => .ok (some j)) ++
        List.replicate (times.length - q.length) (.ok none) ∧
      (pickAll times b).2.store = b.store.saveJobs (begun q times) := by
  induction times generalizing b q with
  | nil => simp [pickAll, begun, Store.saveJobs]
  | cons now rest ih =>
    obtain ⟨c, hc, hs, hfaults, havailable⟩ :=
      perform_of_faultless hb ha .pickJob (·.pickJob now)
    have hpick : b.pickJob now = _ := hc
    cases q with
    | nil =>
      rw [hf.pickJob_nil hq] at hpick hs
      obtain ⟨hanswers, hstore⟩ := ih (hs ▸ hf) havailable hfaults (hs ▸ hq : c.store.Queued [])
      simp only [pickAll, hpick, hanswers, hstore, hs]
      exact ⟨rfl, rfl⟩
    | cons j q =>
      rw [hf.pickJob_cons hq] at hpick hs
      obtain ⟨hanswers, hstore⟩ :=
        ih (hs ▸ hf.saveJob) havailable hfaults (hs ▸ hq.tail : c.store.Queued q)
      simp only [pickAll, hpick, hanswers, hstore, hs, List.length_cons, Nat.add_sub_add_right]
      exact ⟨rfl, rfl⟩

/-- Picks that follow each other take all ready jobs of a storage, each once and in the order of
picks, and then find nothing. A job is taken as it was stored, but for its state and the beginning
of its attempt; so it is stored, and nothing else changes. -/
theorem picks_drain_store (hf : b.store.Filed) (ha : b.available) (hb : b.Faultless) :
    ∃ queue : List Job,
      (∀ j, j ∈ queue ↔ b.store.job? j.id = some j ∧ j.state = .enqueued) ∧
      (queue.map Job.id).Nodup ∧ queue.Pairwise Job.Precedes ∧
      ∀ times : List Instant,
        (pickAll times b).1 = (begun queue times).map (fun j => .ok (some j)) ++
            List.replicate (times.length - queue.length) (.ok none) ∧
          (∀ j ∈ begun queue times, (pickAll times b).2.store.job? j.id = some j) ∧
          (∀ id, id ∉ (begun queue times).map Job.id →
            (pickAll times b).2.store.job? id = b.store.job? id) ∧
          (pickAll times b).2.store.crons = b.store.crons ∧
          (pickAll times b).2.store.messages = b.store.messages := by
  obtain ⟨queue, hq⟩ := hf.exists_queued
  refine ⟨queue, hq.mem_iff, hq.ids_nodup, hq.ordered, fun times => ?_⟩
  obtain ⟨hanswers, hstore⟩ := pickAll_of_queued hf ha hb hq times
  have hids := hq.ids_nodup.sublist (map_id_begun_sublist queue times)
  rw [hstore]
  exact ⟨hanswers, fun j hj => Store.job?_saveJobs_of_mem hids hj,
    fun id hid => Store.job?_saveJobs_of_not_mem hid, Store.crons_saveJobs _ _,
    Store.messages_saveJobs _ _⟩

/-! ## A store with a ready job on each level of the order -/

/-- A job that is ready at a time. -/
def readyJob (id : Nat) (weight : Count) (due : Option Instant) : Job :=
  { Job.new (Uuid.ofNat id) "report" { id := Uuid.ofNat 0, name := "default", weight } .epoch with
    scheduledAt := due }

/-- Three ready jobs, and one that waits for its time. -/
def assorted : Backend where
  store := (((Store.saveJob {} (readyJob 1 1 (some .epoch))).saveJob (readyJob 2 1 none)).saveJob
    (readyJob 3 5 (some .max))).saveJob ((readyJob 4 9 none).scheduleFor .epoch)

/-- The clock goes back between the picks. -/
def pickTimes : List Instant := [.ofMillis 20, .ofMillis 10, .epoch, .max]

/-- The job of the heavy queue is picked first, then the one that waits for no time. -/
theorem assorted_drained :
    ∃ queue : List Job,
      (∀ j, j ∈ queue ↔ assorted.store.job? j.id = some j ∧ j.state = .enqueued) ∧
      (pickAll pickTimes assorted).1 = (begun queue pickTimes).map (fun j => .ok (some j)) ++
        List.replicate (4 - queue.length) (.ok none) ∧
      (pickAll pickTimes assorted).1.map Except.toOption =
        [some (some ((readyJob 3 5 (some .max)).execute (.ofMillis 20))),
          some (some ((readyJob 2 1 none).execute (.ofMillis 10))),
          some (some ((readyJob 1 1 (some .epoch)).execute .epoch)), some none] := by
  have hf : assorted.store.Filed :=
    .saveJob (.saveJob (.saveJob (.saveJob fun _ _ h => by cases h)))
  have hfaults : assorted.Faultless := fun _ h => by cases h
  obtain ⟨queue, hmem, -, -, hpicks⟩ := picks_drain_store hf rfl hfaults
  exact ⟨queue, hmem, (hpicks pickTimes).1, by decide +kernel⟩

end Backend

end JobEngine
