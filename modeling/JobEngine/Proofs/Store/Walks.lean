-- SUMMARY: No answer of a storage depends on the order in which it walks over what it holds.
import JobEngine.Proofs.Engine.Telling
import JobEngine.Proofs.Store.Definitions
import JobEngine.Proofs.Store.Draining
import Mathlib.Data.List.Nodup

/-!
# Walks

A storage keeps its jobs and cron definitions in hash maps, which are walked over in no particular
order: it may differ from one storage to another with the same contents, and from one call to the
next. Here the operations of a store are given with the order of the walk as an argument. Whatever
that order is, they come to what they come to in the order of the identifiers: a pick takes the
first job of a strict order, lists are sorted by a strict order, and the other operations treat each
record by itself. So the order in which records were stored cannot be told from the answers either.
-/

namespace JobEngine

/-! ## Sorting -/

/-- Sorting by an order that ties no two members of a list forgets how they were listed. -/
theorem mergeSort_eq_of_perm {α κ : Type} {le : α → α → Bool} {key : α → κ} {l m : List α}
    (trans : ∀ a b c, le a b → le b c → le a c) (total : ∀ a b, le a b || le b a)
    (tie : ∀ a b, le a b → le b a → key a = key b) (hkeys : (l.map key).Nodup) (h : l.Perm m) :
    l.mergeSort le = m.mergeSort le := by
  have hl := List.mergeSort_perm l le
  have hm := List.mergeSort_perm m le
  refine List.Perm.eq_of_pairwise ?_ (List.pairwise_mergeSort trans total l)
    (List.pairwise_mergeSort trans total m) (hl.trans (h.trans hm.symm))
  intro a b ha hb hab hba
  exact List.inj_on_of_nodup_map hkeys (hl.mem_iff.1 ha) (h.mem_iff.2 (hm.mem_iff.1 hb))
    (tie a b hab hba)

theorem Job.id_eq_of_olderOrSame (a b : Job) (hab : a.olderOrSame b) (hba : b.olderOrSame a) :
    a.id = b.id := by
  rw [olderOrSame_iff] at *
  exact Uuid.ext_value (by omega)

theorem Job.byAge_eq_of_perm {l m : List Job} (hids : (l.map Job.id).Nodup) (h : l.Perm m) :
    byAge l = byAge m :=
  mergeSort_eq_of_perm olderOrSame_trans olderOrSame_total id_eq_of_olderOrSame hids h

namespace CronDefinition

/-- The order of lists of definitions: by name, and of one name by identifier. -/
def upTo (a b : CronDefinition) : Bool := if a.name = b.name then a.id ≤ b.id else a.name ≤ b.name

theorem upTo_iff {a b : CronDefinition} :
    a.upTo b = true ↔ a.name ≤ b.name ∧ (a.name = b.name → a.id ≤ b.id) := by
  unfold upTo
  split
  · rename_i hname
    rw [decide_eq_true_eq]
    exact ⟨fun h => ⟨hname ▸ Std.le_refl a.name, fun _ => h⟩, fun h => h.2 hname⟩
  · rename_i hname
    rw [decide_eq_true_eq]
    exact ⟨fun h => ⟨h, fun hsame => absurd hsame hname⟩, And.left⟩

theorem upTo_trans (a b c : CronDefinition) (hab : a.upTo b) (hbc : b.upTo c) : a.upTo c := by
  rw [upTo_iff] at *
  refine ⟨Std.le_trans hab.1 hbc.1, ?_⟩
  intro hsame
  have hname : a.name = b.name := Std.le_antisymm hab.1 (hsame ▸ hbc.1)
  exact Std.le_trans (hab.2 hname) (hbc.2 (hname ▸ hsame))

theorem upTo_total (a b : CronDefinition) : a.upTo b || b.upTo a := by
  rw [Bool.or_eq_true, upTo_iff, upTo_iff]
  by_cases hname : a.name = b.name
  · rw [hname]
    refine (Std.le_total (a := a.id) (b := b.id)).imp ?_ ?_
    · exact fun h => ⟨Std.le_refl _, fun _ => h⟩
    · exact fun h => ⟨Std.le_refl _, fun _ => h⟩
  · refine (Std.le_total (a := a.name) (b := b.name)).imp ?_ ?_
    · exact fun h => ⟨h, fun hsame => absurd hsame hname⟩
    · exact fun h => ⟨h, fun hsame => absurd hsame.symm hname⟩

theorem id_eq_of_upTo (a b : CronDefinition) (hab : a.upTo b) (hba : b.upTo a) : a.id = b.id := by
  rw [upTo_iff] at *
  have hname := Std.le_antisymm hab.1 hba.1
  exact Std.le_antisymm (hab.2 hname) (hba.2 hname.symm)

theorem byName_eq_of_perm {l m : List CronDefinition} (hids : (l.map CronDefinition.id).Nodup)
    (h : l.Perm m) : byName l = byName m :=
  mergeSort_eq_of_perm upTo_trans upTo_total id_eq_of_upTo hids h

end CronDefinition

/-! ## Operations that walk -/

/-- The orders in which the two maps of a storage are walked over. -/
structure Walk where
  jobs : List Job → List Job
  crons : List CronDefinition → List CronDefinition
  jobs_perm : ∀ l, (jobs l).Perm l
  crons_perm : ∀ l, (crons l).Perm l

namespace Store

variable {s : Store} {w : Walk} {now time : Instant}

/-- Take the job that is picked first among those that the walk comes upon. -/
def pickJobBy (w : Walk) (s : Store) (now : Instant) : Option Job × Store :=
  match Job.firstPicked? ((w.jobs s.jobs.values).filter (fun j => j.state = .enqueued)) with
  | none => (none, s)
  | some j => (some (j.execute now), { s with jobs := s.jobs.insert j.id (j.execute now) })

/-- Make jobs ready on the way, and sort them. -/
def enqueueJobsBy (w : Walk) (s : Store) (now : Instant) : List Job × Store :=
  let promote (j : Job) : Job := if j.isPromotable now then j.enqueue else j
  (Job.byAge (((w.jobs s.jobs.values).filter (·.isPromotable now)).map Job.enqueue),
    { s with jobs := s.jobs.mapValues promote })

/-- Collect jobs on the way, sort them, and cut the page out. -/
def getJobsBy (w : Walk) (s : Store) (f : JobFilter) (p : Page) : List Job :=
  p.of (Job.byAge ((w.jobs s.jobs.values).filter f.admits))

/-- Collect the jobs to be removed on the way, and remove them. -/
def deleteJobsBy (w : Walk) (s : Store) (time : Instant) : Nat × Store :=
  let purged := (w.jobs s.jobs.values).filter (·.isExpired time)
  if purged.isEmpty then (0, s)
  else
    (purged.length,
      { s with
        jobs := s.jobs.filterValues fun j => !j.isExpired time
        messages := s.messages.filter fun m => !(purged.any fun j => j.id = m.jobId) })

/-- Collect the definitions on the way, and sort them. -/
def cronListBy (w : Walk) (s : Store) : List CronDefinition :=
  CronDefinition.byName (w.crons s.crons.values)

/-- What a walk comes upon with some property. -/
theorem filter_walk_perm (p : Job → Bool) :
    ((w.jobs s.jobs.values).filter p).Perm (s.jobs.values.filter p) :=
  (w.jobs_perm _).filter p

theorem Filed.walk_ids_nodup (hf : s.Filed) (p : Job → Bool) :
    (((w.jobs s.jobs.values).filter p).map Job.id).Nodup :=
  ((filter_walk_perm p).map Job.id).nodup_iff.2 (hf.ids_nodup.sublist (List.filter_sublist.map _))

theorem Filed.pickJobBy_eq (hf : s.Filed) : s.pickJobBy w now = s.pickJob now := by
  obtain ⟨q, hq⟩ := hf.exists_queued
  have hwalk : Job.firstPicked? ((w.jobs s.jobs.values).filter fun j => j.state = .enqueued) =
      q.head? := by
    refine Job.firstPicked?_eq_head? hq.ordered fun j => ?_
    rw [(filter_walk_perm _).mem_iff, hq.mem_iff, List.mem_filter, decide_eq_true_eq]
    exact and_congr_left fun _ => ⟨mem_values_of_job?, hf.job?_of_mem⟩
  rw [pickJobBy, hwalk, ← hf.firstPicked?_ready hq]
  rfl

theorem Filed.enqueueJobsBy_eq (hf : s.Filed) : s.enqueueJobsBy w now = s.enqueueJobs now := by
  have hids : ((((w.jobs s.jobs.values).filter (·.isPromotable now)).map Job.enqueue).map
      Job.id).Nodup := by
    rw [List.map_map]
    exact hf.walk_ids_nodup _
  exact Prod.ext (Job.byAge_eq_of_perm hids ((filter_walk_perm _).map Job.enqueue)) rfl

theorem Filed.getJobsBy_eq (hf : s.Filed) (f : JobFilter) (p : Page) :
    s.getJobsBy w f p = s.getJobs f p := by
  unfold getJobsBy getJobs
  rw [Job.byAge_eq_of_perm (hf.walk_ids_nodup f.admits) (filter_walk_perm f.admits)]

theorem deleteJobsBy_eq : s.deleteJobsBy w time = s.deleteJobs time := by
  have hperm : ((w.jobs s.jobs.values).filter (·.isExpired time)).Perm
      (s.jobs.values.filter (·.isExpired time)) := filter_walk_perm _
  simp only [deleteJobsBy, deleteJobs, hperm.isEmpty_eq, hperm.length_eq, hperm.any_eq]

theorem CronsFiled.cronListBy_eq (hf : s.CronsFiled) : s.cronListBy w = s.cronList := by
  have hids : ((w.crons s.crons.values).map CronDefinition.id).Nodup :=
    ((w.crons_perm _).map _).nodup_iff.2 (Table.nodup_map_values hf)
  exact CronDefinition.byName_eq_of_perm hids (w.crons_perm _)

end Store

/-! ## Calls -/

namespace Backend

variable {α : Type} {b : Backend}

/-- A call depends on an operation only in what it does to the storage as it is. -/
theorem perform_congr {op op' : Store → α × Store} (method : StorageMethod)
    (h : op b.store = op' b.store) : b.perform method op = b.perform method op' := by
  unfold perform planned
  split
  · rfl
  · rename_i c hc
    obtain ⟨-, rfl⟩ := Prod.mk.inj hc
    simp only [reach, h]

/-- Every record of a storage stands under its own identifier. -/
structure Filed (b : Backend) : Prop where
  jobs : b.store.Filed
  crons : b.store.CronsFiled

theorem Filed.of_store {c : Backend} (h : b.Filed) (hs : c.store = b.store) : c.Filed := by
  refine ⟨?_, ?_⟩
  · rw [hs]
    exact h.jobs
  · rw [hs]
    exact h.crons

end Backend

namespace StorageCall

variable {b : Backend} {w : Walk} {now : Instant}

/-- The call on a storage that walks over its records in orders of its own. -/
def onBy (w : Walk) (now : Instant) :
    (c : StorageCall) → Backend → Except EngineError c.Answer × Backend
  | .pickJob => (·.perform .pickJob (·.pickJobBy w now))
  | .enqueueJobs => (·.perform .enqueueJobs (·.enqueueJobsBy w now))
  | .saveJob j => (·.saveJob j)
  | .saveNewJob draft => (·.saveNewJob draft)
  | .getJobs f page => (·.perform .getJobs fun s => (s.getJobsBy w f page, s))
  | .getCrons => (·.perform .getCrons fun s => (s.cronListBy w, s))
  | .saveCron c => (·.saveCron c)
  | .deleteJobs time => (·.perform .deleteJobs (·.deleteJobsBy w time))
  | .saveMessage m => (·.saveMessage m)

/-- The order of the walk does not matter to a call. -/
theorem onBy_eq (hb : b.Filed) (c : StorageCall) : c.onBy w now b = c.on now b := by
  cases c with
  | pickJob => exact Backend.perform_congr _ hb.jobs.pickJobBy_eq
  | enqueueJobs => exact Backend.perform_congr _ hb.jobs.enqueueJobsBy_eq
  | getJobs f page =>
    exact Backend.perform_congr _ (congrArg (·, b.store) (hb.jobs.getJobsBy_eq f page))
  | getCrons => exact Backend.perform_congr _ (congrArg (·, b.store) hb.crons.cronListBy_eq)
  | deleteJobs time => exact Backend.perform_congr _ Store.deleteJobsBy_eq
  | saveJob | saveNewJob | saveCron | saveMessage => rfl

/-- A call fails and leaves the records, or has its effect. -/
theorem on_store (c : StorageCall) (now : Instant) (b : Backend) :
    (c.on now b).2.store = b.store ∨
      (c.on now b).2.store = (c.effect now (Uuid.ofNat b.nextId) b.store).2 := by
  have hperform {α : Type} (method : StorageMethod) (op : Store → α × Store) :
      (b.perform method op).2.store = b.store ∨
        (b.perform method op).2.store = (op b.store).2 := by
    rcases b.perform_cases method op with ⟨e, d, hd, hs, -⟩ | ⟨d, hd, hs, -⟩
    · rw [hd]
      exact .inl hs
    · rw [hd]
      exact .inr hs
  cases c with
  | saveNewJob draft =>
    rcases b.saveNewJob_cases draft with ⟨e, d, hd, hs⟩ | ⟨d, hd, hs, -⟩
    · refine .inl ?_
      simp only [on, hd, hs]
    · refine .inr ?_
      simp only [on, hd, hs, effect]
  | pickJob | enqueueJobs | saveJob | getJobs | getCrons | saveCron | deleteJobs | saveMessage =>
    exact hperform _ _

theorem filed_effect (c : StorageCall) (now : Instant) (id : JobId) {s : Store} (hj : s.Filed)
    (hc : s.CronsFiled) : (c.effect now id s).2.Filed ∧ (c.effect now id s).2.CronsFiled := by
  cases c with
  | pickJob =>
    change (s.pickJob now).2.Filed ∧ (s.pickJob now).2.CronsFiled
    rcases hj.pickJob_cases now with hnone | ⟨j, -, -, hpick⟩
    · rw [hnone]
      exact ⟨hj, hc⟩
    · rw [hpick]
      exact ⟨hj.saveJob, hc⟩
  | enqueueJobs => exact ⟨hj.enqueueJobs, hc⟩
  | saveJob | saveNewJob => exact ⟨hj.saveJob, hc⟩
  | saveCron => exact ⟨hj, hc.saveCron⟩
  | deleteJobs time =>
    refine ⟨hj.deleteJobs, ?_⟩
    simp only [effect, Store.deleteJobs]
    split
    · exact hc
    · exact hc
  | getJobs | getCrons | saveMessage => exact ⟨hj, hc⟩

theorem filed_on (hb : b.Filed) (c : StorageCall) (now : Instant) : (c.on now b).2.Filed := by
  obtain ⟨hjobs, hcrons⟩ := c.filed_effect now (Uuid.ofNat b.nextId) hb.jobs hb.crons
  rcases c.on_store now b with hs | hs
  · exact hb.of_store hs
  · exact ⟨hs ▸ hjobs, hs ▸ hcrons⟩

end StorageCall

/-! ## Calls one after another -/

namespace Backend

variable {b : Backend} {w w' : Nat → Walk}

/-- Make calls, each at its time and in a walk of its own. -/
def answersBy (w : Nat → Walk) :
    List (Instant × StorageCall) → Backend →
      List ((c : StorageCall) × Except EngineError c.Answer) × Backend
  | [], b => ([], b)
  | (now, c) :: rest, b =>
    let (answer, b) := c.onBy (w 0) now b
    let (answers, b) := answersBy (fun n => w (n + 1)) rest b
    (⟨c, answer⟩ :: answers, b)

theorem answersBy_eq (hb : b.Filed) (calls : List (Instant × StorageCall)) :
    answersBy w calls b = answersBy w' calls b := by
  induction calls generalizing b w w' with
  | nil => rfl
  | cons call rest ih =>
    obtain ⟨now, c⟩ := call
    have hnext : answersBy (fun n => w (n + 1)) rest (c.on now b).2 =
        answersBy (fun n => w' (n + 1)) rest (c.on now b).2 := ih (c.filed_on hb now)
    simp only [answersBy, c.onBy_eq hb, hnext]

theorem filed_answersBy (hb : b.Filed) (calls : List (Instant × StorageCall)) :
    (answersBy w calls b).2.Filed := by
  induction calls generalizing b w with
  | nil => exact hb
  | cons call rest ih =>
    obtain ⟨now, c⟩ := call
    simp only [answersBy, c.onBy_eq hb]
    exact ih (c.filed_on hb now)

end Backend

/-! ## Filling a storage -/

/-- Entries under different keys can be put in either order. -/
theorem Table.insert_comm {κ α : Type} [LT κ] [LE κ] [DecidableLT κ] [DecidableEq κ]
    [Std.IsLinearOrder κ] [Std.LawfulOrderLT κ] (t : Table κ α) {k k' : κ} (v v' : α)
    (h : k ≠ k') : (t.insert k v).insert k' v' = (t.insert k' v').insert k v := by
  refine ext_get? fun i => ?_
  rw [get?_insert, get?_insert, get?_insert, get?_insert]
  by_cases hk : i = k
  · rw [hk, if_neg h, if_pos rfl, if_pos rfl]
  · rw [if_neg hk, if_neg hk]

/-- A record of one of the two maps. -/
inductive Stored where
  | job (j : Job)
  | cron (c : CronDefinition)
deriving DecidableEq

namespace Stored

/-- What a record is stored under. -/
def key : Stored → JobId ⊕ CronId
  | .job j => .inl j.id
  | .cron c => .inr c.id

def saveIn (s : Store) : Stored → Store
  | .job j => s.saveJob j
  | .cron c => s.saveCron c

/-- The call that stores a record. -/
def save (b : Backend) : Stored → Backend
  | .job j => (b.saveJob j).2
  | .cron c => (b.saveCron c).2

variable {x y : Stored}

theorem saveIn_comm (s : Store) (h : x.key ≠ y.key) :
    saveIn (saveIn s x) y = saveIn (saveIn s y) x := by
  cases x with
  | job j =>
    cases y with
    | job k =>
      have hid : j.id ≠ k.id := fun hsame => h (congrArg Sum.inl hsame)
      simp only [saveIn, Store.saveJob, s.jobs.insert_comm j k hid]
    | cron c => rfl
  | cron c =>
    cases y with
    | job k => rfl
    | cron d =>
      have hid : c.id ≠ d.id := fun hsame => h (congrArg Sum.inr hsame)
      simp only [saveIn, Store.saveCron, s.crons.insert_comm c d hid]

/-- Without faults the calls store the records. -/
theorem foldl_save (l : List Stored) (s : Store) (n : Nat) :
    l.foldl save { store := s, calls := n } =
      { store := l.foldl saveIn s, calls := n + l.length } := by
  induction l generalizing s n with
  | nil => rfl
  | cons x rest ih =>
    have hx : save { store := s, calls := n } x = { store := saveIn s x, calls := n + 1 } := by
      cases x <;> rfl
    rw [List.foldl_cons, hx, ih, List.foldl_cons, List.length_cons, Nat.add_right_comm,
      Nat.add_assoc]

theorem filed_foldl {s : Store} (l : List Stored) (hj : s.Filed) (hc : s.CronsFiled) :
    (l.foldl saveIn s).Filed ∧ (l.foldl saveIn s).CronsFiled := by
  induction l generalizing s with
  | nil => exact ⟨hj, hc⟩
  | cons x rest ih =>
    cases x with
    | job j => exact ih hj.saveJob hc
    | cron c => exact ih hj hc.saveCron

end Stored

namespace Backend

/-- An empty storage after records were stored in it one after another. -/
def stocked (l : List Stored) : Backend := l.foldl Stored.save {}

theorem stocked_eq (l : List Stored) :
    stocked l = { store := l.foldl Stored.saveIn {}, calls := l.length } := by
  have hempty := Stored.foldl_save l {} 0
  rw [Nat.zero_add] at hempty
  exact hempty

/-- The order in which records with different keys were stored leaves no trace. -/
theorem stocked_eq_of_perm {l m : List Stored} (hkeys : (l.map Stored.key).Nodup) (h : l.Perm m) :
    stocked l = stocked m := by
  have hstore : l.foldl Stored.saveIn {} = m.foldl Stored.saveIn {} := by
    refine h.foldl_eq' ?_ ({} : Store)
    intro x hx y hy s
    by_cases hsame : x = y
    · rw [hsame]
    · exact Stored.saveIn_comm s fun hkey => hsame (List.inj_on_of_nodup_map hkeys hx hy hkey)
  rw [stocked_eq, stocked_eq, hstore, h.length_eq]

theorem filed_stocked (l : List Stored) : (stocked l).Filed := by
  rw [stocked_eq]
  obtain ⟨hjobs, hcrons⟩ := Stored.filed_foldl (s := {}) l (fun _ _ h => nomatch h)
    (fun _ _ h => nomatch h)
  exact ⟨hjobs, hcrons⟩

end Backend

/-! ## Pages -/

/-- The first pages of a list, one after another, are the front of the list. -/
theorem Page.flatMap_of {α : Type} (l : List α) (size n : Nat) :
    (List.range n).flatMap (fun k => (Page.mk (k * size) size).of l) = l.take (n * size) := by
  induction n with
  | zero => simp
  | succ n ih =>
    rw [List.range_succ, List.flatMap_append, ih, List.flatMap_singleton, Nat.succ_mul,
      List.take_add]
    rfl

/-- The first `n` pages of the jobs that a filter admits, each collected in a walk of its own. -/
def Store.pagesBy (w : Nat → Walk) (s : Store) (f : JobFilter) (size n : Nat) : List Job :=
  (List.range n).flatMap fun k => s.getJobsBy (w k) f ⟨k * size, size⟩

theorem Store.Filed.pagesBy_eq {s : Store} (hf : s.Filed) (w : Nat → Walk) (f : JobFilter)
    (size n : Nat) : s.pagesBy w f size n = (s.listing f.admits).take (n * size) := by
  unfold pagesBy
  simp only [hf.getJobsBy_eq]
  exact Page.flatMap_of _ size n

/-- Two storages that hold the same records answer alike, in whatever order the records were stored
and in whatever order each storage walks over them in each call. In every storage the pages of a
listing are cut from one list, which holds the jobs that the filter admits, each once and in strict
order of age. -/
theorem Backend.answers_of_contents {l m : List Stored} (hkeys : (l.map Stored.key).Nodup)
    (h : l.Perm m) :
    (∀ calls w w', (stocked l).answersBy w calls = (stocked m).answersBy w' calls) ∧
      (∀ calls w, ((stocked l).answersBy w calls).2.store.Filed) ∧
      ∀ s : Store, s.Filed → ∀ (f : JobFilter) (size : Nat), 0 < size →
        ∃ listed : List Job, (∀ j, j ∈ listed ↔ s.job? j.id = some j ∧ f.admits j) ∧
          listed.Pairwise Job.Older ∧
          ∀ w n, s.pagesBy w f size n = listed.take (n * size) ∧
            (listed.length ≤ n → s.pagesBy w f size n = listed) := by
  refine ⟨?_, ?_, ?_⟩
  · intro calls w w'
    rw [stocked_eq_of_perm hkeys h]
    exact answersBy_eq (filed_stocked m) calls
  · intro calls w
    exact (filed_answersBy (filed_stocked l) calls).jobs
  · intro s hf f size hsize
    refine ⟨s.listing f.admits, fun j => hf.mem_listing, hf.listing_older _, ?_⟩
    intro w n
    refine ⟨hf.pagesBy_eq w f size n, ?_⟩
    intro hlong
    rw [hf.pagesBy_eq]
    exact List.take_of_length_le (Nat.le_trans hlong (Nat.le_mul_of_pos_right n hsize))

/-! ## A storage that was filled in two orders -/

/-- In the order of the identifiers. -/
def Walk.forwards : Walk := ⟨id, id, .refl, .refl⟩

/-- From the largest identifier to the smallest. -/
def Walk.backwards : Walk := ⟨List.reverse, List.reverse, List.reverse_perm, List.reverse_perm⟩

/-- A job that waits for the beginning of time. -/
def ripeJob (id : Nat) : Job := (Backend.readyJob id 1 none).scheduleFor .epoch

def hourly (id : Nat) : CronDefinition where
  id := Uuid.ofNat id
  name := "report"
  expression := "0 * * * *"
  handler := "report"
  queue := { id := Uuid.ofNat 0, name := "default", weight := 1 }

/-- Jobs and definitions that differ in nothing but their identifiers. -/
def reports : List Stored :=
  [.job (ripeJob 1), .cron (hourly 1), .job (ripeJob 2), .cron (hourly 2)]

/-- Both storages answer alike, and the pages give the jobs in the order of their identifiers. -/
theorem Backend.reports_answered :
    (stocked reports).answersBy (fun _ => .forwards)
        [(.epoch, .getCrons), (.epoch, .enqueueJobs), (.epoch, .pickJob)] =
      (stocked reports.reverse).answersBy (fun _ => .backwards)
        [(.epoch, .getCrons), (.epoch, .enqueueJobs), (.epoch, .pickJob)] ∧
    ∃ listed : List Job,
      (∀ j, j ∈ listed ↔
        (stocked reports).store.job? j.id = some j ∧ ({} : JobFilter).admits j) ∧
      (stocked reports).store.pagesBy (fun _ => .backwards) {} 1 2 = listed.take 2 ∧
      listed.take 2 = [ripeJob 1, ripeJob 2] := by
  have hkeys : (reports.map Stored.key).Nodup := by decide
  obtain ⟨hsame, hfiled, hpages⟩ := answers_of_contents hkeys reports.reverse_perm.symm
  have hf : (stocked reports).store.Filed := hfiled [] fun _ => .forwards
  obtain ⟨listed, hmem, -, hcut⟩ := hpages (stocked reports).store hf {} 1 (by decide)
  have hjobs : (stocked reports).store.jobs.values.filter ({} : JobFilter).admits =
      [ripeJob 1, ripeJob 2] := by decide
  have hlisting : (stocked reports).store.listing ({} : JobFilter).admits =
      [ripeJob 1, ripeJob 2] :=
    (congrArg Job.byAge hjobs).trans (List.mergeSort_of_pairwise (by decide))
  refine ⟨hsame _ _ _, listed, hmem, (hcut _ 2).1, ?_⟩
  rw [← (hcut (fun _ => .backwards) 2).1, hf.pagesBy_eq, hlisting]
  rfl

end JobEngine
