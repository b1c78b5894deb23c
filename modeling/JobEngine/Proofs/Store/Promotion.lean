-- SUMMARY: Promoting at two times, one after the other, comes to promoting at the later one alone.
import JobEngine.Proofs.Engine.Idle

/-!
# Promotion

A promotion makes the waiting jobs ready whose time has come, and answers them in order of age. It
changes nothing but their state, so it takes no job from a later promotion but those that it answers
itself: two promotions, one after the other, leave the store as the later one alone would, and share
out its answer between them.
-/

namespace JobEngine

/-! ## Ripe jobs -/

namespace Job

variable {j : Job} {now early late : Instant}

/-- The job waits, and not for a time after `now`. -/
def Ripe (j : Job) (now : Instant) : Prop :=
  (j.state = .scheduled ∨ j.state = .retryable) ∧
    (j.scheduledAt = none ∨ ∃ time, j.scheduledAt = some time ∧ time ≤ now)

theorem isAwaiting_iff : j.state.isAwaiting = true ↔ j.state = .scheduled ∨ j.state = .retryable := by
  cases j.state <;> simp [JobState.isAwaiting]

theorem isDue_iff :
    j.isDue now = true ↔ j.scheduledAt = none ∨ ∃ time, j.scheduledAt = some time ∧ time ≤ now := by
  cases h : j.scheduledAt <;> simp [isDue, h]

theorem isPromotable_iff : j.isPromotable now = true ↔ j.Ripe now := by
  rw [isPromotable, Bool.and_eq_true, isAwaiting_iff, isDue_iff, Ripe]

theorem Ripe.mono (h : j.Ripe early) (hle : early ≤ late) : j.Ripe late := by
  refine ⟨h.1, h.2.imp_right ?_⟩
  rintro ⟨time, htime, hdue⟩
  exact ⟨time, htime, Int.le_trans hdue hle⟩

theorem not_ripe_enqueue : ¬ j.enqueue.Ripe now := by
  rintro ⟨hstate | hstate, -⟩ <;> cases hstate

/-- The job after a promotion. -/
def promote (now : Instant) (j : Job) : Job := if j.isPromotable now then j.enqueue else j

theorem promote_of_ripe (h : j.Ripe now) : j.promote now = j.enqueue :=
  if_pos (isPromotable_iff.2 h)

theorem promote_of_not_ripe (h : ¬ j.Ripe now) : j.promote now = j :=
  if_neg fun hp => h (isPromotable_iff.1 hp)

@[simp] theorem id_promote : (j.promote now).id = j.id := by
  unfold promote
  split <;> rfl

theorem ripe_promote_iff : (j.promote early).Ripe late ↔ j.Ripe late ∧ ¬ j.Ripe early := by
  by_cases h : j.Ripe early
  · rw [promote_of_ripe h]
    exact ⟨fun hripe => absurd hripe not_ripe_enqueue, fun hripe => absurd h hripe.2⟩
  · rw [promote_of_not_ripe h]
    exact (and_iff_left h).symm

/-- A promotion does not keep a later one from anything. -/
theorem promote_promote (hle : early ≤ late) (j : Job) :
    (j.promote early).promote late = j.promote late := by
  by_cases h : j.Ripe early
  · rw [promote_of_ripe h, promote_of_ripe (h.mono hle), promote_of_not_ripe not_ripe_enqueue]
  · rw [promote_of_not_ripe h]

end Job

/-! ## Promotions of a store -/

namespace Store

variable {s t : Store} {j : Job} {l : List Job} {id : JobId} {now early late : Instant}

/-- Promoting the jobs of `s` at `now` answers `l` and leaves `t`. -/
structure Promotion (s : Store) (now : Instant) (l : List Job) (t : Store) : Prop where
  mem_iff : ∀ j, j ∈ l ↔
    ∃ k, s.job? k.id = some k ∧ k.Ripe now ∧ j = { k with state := .enqueued }
  ordered : l.Pairwise Job.Older
  promoted : ∀ j ∈ l, t.job? j.id = some j
  others : ∀ id, id ∉ l.map Job.id → t.job? id = s.job? id
  crons : t.crons = s.crons
  messages : t.messages = s.messages

theorem job?_enqueueJobs_eq : (s.enqueueJobs now).2.job? id = (s.job? id).map (·.promote now) :=
  job?_enqueueJobs

theorem Filed.enqueueJobs_fst (hf : s.Filed) (now : Instant) :
    (s.enqueueJobs now).1 = (s.listing (·.isPromotable now)).map Job.enqueue := by
  have hperm : (s.enqueueJobs now).1.Perm ((s.listing (·.isPromotable now)).map Job.enqueue) :=
    (List.mergeSort_perm _ _).trans ((List.mergeSort_perm _ _).symm.map Job.enqueue)
  have hordered : ((s.listing (·.isPromotable now)).map Job.enqueue).Pairwise Job.Older :=
    List.pairwise_map.2 (hf.listing_older _)
  have hids : ((s.enqueueJobs now).1.map Job.id).Nodup := by
    refine (hperm.map Job.id).nodup_iff.2 ?_
    rw [List.map_map]
    exact hf.listing_ids_nodup _
  have hsorted : (s.enqueueJobs now).1.Pairwise (fun a b => a.olderOrSame b) :=
    List.pairwise_mergeSort Job.olderOrSame_trans Job.olderOrSame_total _
  -- Both lists are in strict order of age, so it is enough that they have the same members.
  refine Job.eq_of_pairwise_older ?_ hordered fun j => hperm.mem_iff
  exact (hsorted.and (List.pairwise_map.1 hids)).imp fun h => Job.older_of_olderOrSame h.1 h.2

theorem Filed.promotion (hf : s.Filed) (now : Instant) :
    s.Promotion now (s.enqueueJobs now).1 (s.enqueueJobs now).2 := by
  have hmem : ∀ j, j ∈ (s.enqueueJobs now).1 ↔
      ∃ k, s.job? k.id = some k ∧ k.Ripe now ∧ j = { k with state := .enqueued } := by
    intro j
    rw [hf.enqueueJobs_fst, List.mem_map]
    constructor
    · rintro ⟨k, hk, rfl⟩
      obtain ⟨hstored, hripe⟩ := hf.mem_listing.1 hk
      exact ⟨k, hstored, Job.isPromotable_iff.1 hripe, rfl⟩
    · rintro ⟨k, hstored, hripe, rfl⟩
      exact ⟨k, hf.mem_listing.2 ⟨hstored, Job.isPromotable_iff.2 hripe⟩, rfl⟩
  refine ⟨hmem, ?_, fun j hj => ?_, fun id hid => ?_, rfl, rfl⟩
  · rw [hf.enqueueJobs_fst]
    exact List.pairwise_map.2 (hf.listing_older _)
  · obtain ⟨k, hstored, hripe, rfl⟩ := (hmem j).1 hj
    change (s.enqueueJobs now).2.job? k.id = _
    rw [job?_enqueueJobs_eq, hstored, Option.map_some, Job.promote_of_ripe hripe]
    rfl
  · rw [job?_enqueueJobs_eq]
    cases hstored : s.job? id with
    | none => rfl
    | some k =>
      have hk := hf id k hstored
      subst hk
      refine congrArg some (Job.promote_of_not_ripe fun hripe => hid ?_)
      exact List.mem_map.2 ⟨_, (hmem _).2 ⟨k, hstored, hripe, rfl⟩, rfl⟩

/-- Two promotions, one after the other, leave what the later one alone leaves. -/
theorem enqueueJobs_enqueueJobs (s : Store) (hle : early ≤ late) :
    ((s.enqueueJobs early).2.enqueueJobs late).2 = (s.enqueueJobs late).2 := by
  have hjobs : ((s.enqueueJobs early).2.enqueueJobs late).2.jobs = (s.enqueueJobs late).2.jobs := by
    refine Table.ext_get? fun id => ?_
    change ((s.enqueueJobs early).2.enqueueJobs late).2.job? id = (s.enqueueJobs late).2.job? id
    rw [job?_enqueueJobs_eq, job?_enqueueJobs_eq, job?_enqueueJobs_eq, Option.map_map]
    exact Option.map_congr fun j _ => Job.promote_promote hle j
  exact congrArg (fun jobs => { s with jobs }) hjobs

section Answers

variable {first second : List Job} {u : Store}

theorem Promotion.state_eq (h : s.Promotion now l t) (hj : j ∈ l) : j.state = .enqueued := by
  obtain ⟨k, -, -, rfl⟩ := (h.mem_iff j).1 hj
  rfl

theorem Promotion.nodup (h : s.Promotion now l t) : l.Nodup := h.ordered.imp Job.Older.ne

/-- What the earlier of two promotions answers is ready when the later one is made. -/
theorem Promotion.ids_ne (h : s.Promotion early first t) (h' : t.Promotion late second u) :
    ∀ j ∈ first, ∀ k ∈ second, j.id ≠ k.id := by
  intro j hj k hk hid
  have hready := h.promoted j hj
  obtain ⟨k, hstored, hripe, rfl⟩ := (h'.mem_iff k).1 hk
  have hsame : j.id = k.id := hid
  rw [hsame, hstored] at hready
  obtain rfl := Option.some.inj hready
  rcases hripe.1 with hstate | hstate <;> cases hstate.symm.trans (h.state_eq hj)

/-- After a promotion, a later one answers the jobs that were not ripe for the first. -/
theorem Filed.mem_enqueueJobs_later (hf : s.Filed) :
    j ∈ ((s.enqueueJobs early).2.enqueueJobs late).1 ↔ ∃ k, s.job? k.id = some k ∧
      (k.Ripe late ∧ ¬ k.Ripe early) ∧ j = { k with state := .enqueued } := by
  rw [(hf.enqueueJobs.promotion late).mem_iff]
  constructor
  · rintro ⟨k, hk, hripe, rfl⟩
    rw [job?_enqueueJobs_eq] at hk
    obtain ⟨i, hi, rfl⟩ := Option.map_eq_some_iff.1 hk
    rw [Job.id_promote] at hi
    have hboth := Job.ripe_promote_iff.1 hripe
    rw [Job.promote_of_not_ripe hboth.2]
    exact ⟨i, hi, hboth, rfl⟩
  · rintro ⟨k, hk, hboth, rfl⟩
    refine ⟨k, ?_, hboth.1, rfl⟩
    rw [job?_enqueueJobs_eq, hk, Option.map_some, Job.promote_of_not_ripe hboth.2]

/-- Two promotions, one after the other, answer what the later one alone answers. -/
theorem Filed.enqueueJobs_perm (hf : s.Filed) (hle : early ≤ late) :
    ((s.enqueueJobs early).1 ++ ((s.enqueueJobs early).2.enqueueJobs late).1).Perm
      (s.enqueueJobs late).1 := by
  have hleft : (s.enqueueJobs early).2.Filed := hf.enqueueJobs
  have h := hf.promotion early
  have h' := hleft.promotion late
  have hwhole := hf.promotion late
  have hdisjoint : ∀ j ∈ (s.enqueueJobs early).1,
      ∀ k ∈ ((s.enqueueJobs early).2.enqueueJobs late).1, j ≠ k :=
    fun j hj k hk heq => h.ids_ne h' j hj k hk (congrArg Job.id heq)
  have hnodup := List.nodup_append.2 ⟨h.nodup, h'.nodup, hdisjoint⟩
  refine (List.perm_ext_iff_of_nodup hnodup hwhole.nodup).2 fun j => ?_
  rw [List.mem_append, h.mem_iff, hf.mem_enqueueJobs_later, hwhole.mem_iff]
  constructor
  · rintro (⟨k, hk, hripe, hj⟩ | ⟨k, hk, hripe, hj⟩)
    · exact ⟨k, hk, hripe.mono hle, hj⟩
    · exact ⟨k, hk, hripe.1, hj⟩
  · rintro ⟨k, hk, hripe, hj⟩
    by_cases hearly : k.Ripe early
    · exact .inl ⟨k, hk, hearly, hj⟩
    · exact .inr ⟨k, hk, ⟨hripe, hearly⟩, hj⟩

end Answers

end Store

/-! ## Promotions through a storage -/

namespace Backend

variable {b : Backend}

theorem enqueueJobs_of_faultless (hb : b.Faultless) (ha : b.available) (now : Instant) :
    ∃ c, b.enqueueJobs now = (.ok (b.store.enqueueJobs now).1, c) ∧
      c.store = (b.store.enqueueJobs now).2 ∧ c.Faultless ∧ c.available :=
  perform_of_faultless hb ha .enqueueJobs (·.enqueueJobs now)

/-- While the storage is available, a promotion answers the waiting jobs whose time has come, in
order of age, and changes nothing but their state; made again at the same time, it finds none. A
promotion and a later one leave together what the later one leaves alone, and answer different jobs,
together those that the later one answers alone. -/
theorem promotions_compose (hf : b.store.Filed) (ha : b.available) (hb : b.Faultless) :
    (∀ now, ∃ l c, b.enqueueJobs now = (.ok l, c) ∧ b.store.Promotion now l c.store ∧
      ∃ d, c.enqueueJobs now = (.ok [], d) ∧ d.store = c.store) ∧
    ∀ early late, early ≤ late → ∃ first second whole c d e,
      b.enqueueJobs early = (.ok first, c) ∧ c.enqueueJobs late = (.ok second, d) ∧
      b.enqueueJobs late = (.ok whole, e) ∧ d.store = e.store ∧
      (∀ j ∈ first, ∀ k ∈ second, j.id ≠ k.id) ∧ (first ++ second).Perm whole := by
  refine ⟨fun now => ?_, fun early late hle => ?_⟩
  · obtain ⟨c, hc, hstore, hfaults, havailable⟩ := enqueueJobs_of_faultless hb ha now
    obtain ⟨d, hd, hagain, -⟩ := enqueueJobs_of_faultless hfaults havailable now
    have hnone := b.store.noneDue_enqueueJobs now
    rw [hstore, hnone.enqueueJobs] at hd hagain
    refine ⟨_, c, hc, ?_, d, hd, hagain.trans hstore.symm⟩
    rw [hstore]
    exact hf.promotion now
  · obtain ⟨c, hc, hfirst, hfaults, havailable⟩ := enqueueJobs_of_faultless hb ha early
    obtain ⟨d, hd, hsecond, -⟩ := enqueueJobs_of_faultless hfaults havailable late
    obtain ⟨e, he, hwhole, -⟩ := enqueueJobs_of_faultless hb ha late
    rw [hfirst] at hd hsecond
    refine ⟨_, _, _, c, d, e, hc, hd, he, ?_, ?_, hf.enqueueJobs_perm hle⟩
    · rw [hsecond, hwhole, b.store.enqueueJobs_enqueueJobs hle]
    · exact (hf.promotion early).ids_ne (hf.enqueueJobs.promotion late)

/-! ## Jobs that wait for different times -/

/-- A job that waits for a time, or for none. -/
def waitingJob (id : Nat) (state : JobState) (due : Option Instant) : Job :=
  { Job.new (Uuid.ofNat id) "report" { id := Uuid.ofNat 0, name := "default" } .epoch with
    state, scheduledAt := due }

/-- The first promotion is made just when the retry is due. One job is due by the second one, and
one is not. -/
def waiting : Backend where
  store := (((Store.saveJob {} (waitingJob 1 .scheduled none)).saveJob
    (waitingJob 2 .retryable (some (.ofMillis 10)))).saveJob
    (waitingJob 3 .scheduled (some (.ofMillis 15)))).saveJob
    (waitingJob 4 .scheduled (some (.ofMillis 21)))

theorem waiting_promoted :
    ∃ first second whole c d e,
      waiting.enqueueJobs (.ofMillis 10) = (.ok first, c) ∧
      c.enqueueJobs (.ofMillis 20) = (.ok second, d) ∧
      waiting.enqueueJobs (.ofMillis 20) = (.ok whole, e) ∧ d.store = e.store ∧
      (first ++ second).Perm whole ∧
      first = [waitingJob 1 .enqueued none, waitingJob 2 .enqueued (some (.ofMillis 10))] ∧
      second = [waitingJob 3 .enqueued (some (.ofMillis 15))] := by
  have hf : waiting.store.Filed :=
    .saveJob (.saveJob (.saveJob (.saveJob fun _ _ h => by cases h)))
  have hfaults : waiting.Faultless := fun _ h => by cases h
  obtain ⟨first, second, whole, c, d, e, hc, hd, he, hstore, -, hperm⟩ :=
    (promotions_compose hf rfl hfaults).2 (.ofMillis 10) (.ofMillis 20) (by decide)
  refine ⟨first, second, whole, c, d, e, hc, hd, he, hstore, hperm, ?_, ?_⟩
  · have hdue : (waiting.store.jobs.values.filter (·.isPromotable (.ofMillis 10))).map Job.enqueue =
        [waitingJob 1 .enqueued none, waitingJob 2 .enqueued (some (.ofMillis 10))] := by decide
    have hfirst : first = (waiting.store.enqueueJobs (.ofMillis 10)).1 :=
      (Except.ok.inj (congrArg Prod.fst hc)).symm
    exact hfirst.trans ((congrArg Job.byAge hdue).trans (List.mergeSort_of_pairwise (by decide)))
  · obtain rfl : _ = c := congrArg Prod.snd hc
    have hdue : ((waiting.store.enqueueJobs (.ofMillis 10)).2.jobs.values.filter
        (·.isPromotable (.ofMillis 20))).map Job.enqueue =
          [waitingJob 3 .enqueued (some (.ofMillis 15))] := by decide
    have hsecond : second =
        ((waiting.store.enqueueJobs (.ofMillis 10)).2.enqueueJobs (.ofMillis 20)).1 :=
      (Except.ok.inj (congrArg Prod.fst hd)).symm
    exact hsecond.trans ((congrArg Job.byAge hdue).trans (List.mergeSort_singleton _))

end Backend

end JobEngine
