-- SUMMARY: In every interleaving a budget is raised by grants alone, and nothing bounds the grants.
import JobEngine.Proofs.Interleaving.Finality
import JobEngine.Proofs.Store.Listing

/-!
# Granted retries

A rescue of a job whose budget is spent raises the budget to the attempt that it counts. That is a
grant; it leaves the budget spent, so the next lost attempt brings another one. Grants are all that
raises a budget: each copy of a record, the outdated ones in the workers' hands and among what the
janitor has read included, has a budget that lies no further above the original than there were
grants. Unless an outdated record is stored, each grant counts.

`World.forsaking` is the run in which the outcome of two attempts cannot be stored.
-/

namespace JobEngine

/-! ## Budgets -/

/-- The budget covers the retries so far, and lies above `m` by at most `n`. -/
structure Job.BudgetWithin (m n : Nat) (j : Job) : Prop where
  covered : j.retries.val ≤ j.maxRetries.val
  least : m ≤ j.maxRetries.val
  most : j.maxRetries.val ≤ m + n

namespace Job

variable {j k : Job} {m n i : Nat}

/-- A rescue covers the attempt that it counts. -/
theorem covered_rescue (j : Job) (now : Instant) :
    (j.rescue now).retries.val ≤ (j.rescue now).maxRetries.val := by
  have hr := j.val_retries_rescue now
  cases h : j.hasRetriesLeft with
  | true =>
    have hlt := hasRetriesLeft_eq_true.1 h
    rw [maxRetries_rescue_of_left h]
    omega
  | false =>
    have heq : (j.rescue now).maxRetries.val = (j.rescue now).retries.val := by
      rw [maxRetries_rescue_of_spent h]
    exact Nat.le_of_eq heq.symm

namespace BudgetWithin

/-- Only the counters matter, and later there may have been more grants. -/
theorem copy (h : j.BudgetWithin m n) (hr : k.retries = j.retries)
    (hm : k.maxRetries = j.maxRetries) : k.BudgetWithin m (n + i) where
  covered := by
    rw [hr, hm]
    exact h.covered
  least := by
    rw [hm]
    exact h.least
  most := by
    rw [hm]
    exact Nat.le_trans h.most (by omega)

theorem retryAt (h : j.BudgetWithin m n) (hl : j.hasRetriesLeft = true) (next : Instant) :
    (j.retryAt next).BudgetWithin m n where
  covered := by
    have hlt := hasRetriesLeft_eq_true.1 hl
    have hr := j.val_retries_retryAt next
    change _ ≤ j.maxRetries.val
    omega
  least := h.least
  most := h.most

theorem rescue_of_left (h : j.BudgetWithin m n) (hl : j.hasRetriesLeft = true) (now : Instant) :
    (j.rescue now).BudgetWithin m n where
  covered := j.covered_rescue now
  least := by
    rw [maxRetries_rescue_of_left hl]
    exact h.least
  most := by
    rw [maxRetries_rescue_of_left hl]
    exact h.most

theorem rescue_of_spent (h : j.BudgetWithin m n) (hs : j.hasRetriesLeft = false) (now : Instant) :
    (j.rescue now).BudgetWithin m (n + 1) := by
  have hr := j.val_retries_rescue now
  have hle := hasRetriesLeft_eq_false_iff.1 hs
  have hlimit := j.maxRetries.lt_limit
  obtain ⟨hcovered, hleast, hmost⟩ := h
  refine ⟨j.covered_rescue now, ?_, ?_⟩ <;> rw [maxRetries_rescue_of_spent hs] <;> omega

end BudgetWithin

end Job

/-! ## Grants -/

namespace World

variable {x : World} {a : Act} {id : JobId} {m n : Nat}

/-- The record of a job that a janitor's act goes by. -/
def source? (x : World) (id : JobId) : Act → Option Job
  | .sweep _ => x.job? id
  | .examine _ j => if j.id = id then some j else none
  | _ => none

/-- Act `a` rescues a job that has no retries left. -/
def Grants (x : World) (a : Act) (id : JobId) : Prop :=
  x.Rescues a id ∧ (x.source? id a).any (!·.hasRetriesLeft)

instance : Decidable (x.Rescues a id) := inferInstanceAs (Decidable (_ ∧ _))
instance : Decidable (x.Grants a id) := inferInstanceAs (Decidable (_ ∧ _))

/-- How many acts of a run grant a job a retry. -/
def grants (id : JobId) : World → List Act → Nat
  | _, [] => 0
  | x, a :: rest => (if x.Grants a id then 1 else 0) + grants id (x.after a) rest

/-! ## Every copy of a record -/

/-- Every copy of the job's record has a budget that lies above `m` by at most `n`. -/
structure BudgetWithin (id : JobId) (m n : Nat) (x : World) : Prop where
  filed : x.engine.store.Filed
  known : id ∈ x.known
  stored : ∀ j, x.job? id = some j → j.BudgetWithin m n
  held : ∀ w j, x.held w = some j → j.id = id → j.BudgetWithin m n
  seen : ∀ j ∈ x.seen, j.id = id → j.BudgetWithin m n

namespace BudgetWithin

theorem rescue {k : Job} {now : Instant} (hk : k.BudgetWithin m n) (hr : x.Rescues a id)
    (hsource : x.source? id a = some k) :
    (k.rescue now).BudgetWithin m (n + if x.Grants a id then 1 else 0) := by
  cases hl : k.hasRetriesLeft with
  | true => exact (hk.rescue_of_left hl now).copy rfl rfl
  | false =>
    rw [if_pos ⟨hr, by rw [hsource, Option.any_some, hl]; rfl⟩]
    exact hk.rescue_of_spent hl now

theorem record_after (hx : x.BudgetWithin id m n) (h : x.Lawful a) {k : Job}
    (hk : (x.after a).job? id = some k) :
    k.BudgetWithin m (n + if x.Grants a id then 1 else 0) := by
  by_cases heq : (x.after a).job? id = x.job? id
  · exact (hx.stored k (heq.symm.trans hk)).copy rfl rfl
  rcases job?_after hx.filed h.1 id with hsame | ⟨r, hr, hchange⟩
  · exact absurd hsame heq
  obtain rfl : r = some k := hr.symm.trans hk
  cases hchange with
  | picked stored _ => exact (hx.stored _ stored).copy rfl rfl
  | completed held hid => exact (hx.held _ _ held hid).copy rfl rfl
  | retried held hid left => exact ((hx.held _ _ held hid).retryAt left _).copy rfl rfl
  | failed held hid _ => exact (hx.held _ _ held hid).copy rfl rfl
  | promoted stored _ => exact (hx.stored _ stored).copy rfl rfl
  | derived hnew => exact absurd (hnew ▸ hx.known) h.2
  | swept stored _ => exact rescue (hx.stored _ stored) ⟨rfl, heq⟩ stored
  | rescued seen hid _ => exact rescue (hx.seen _ seen hid) ⟨rfl, heq⟩ (if_pos hid)

theorem after (hx : x.BudgetWithin id m n) (h : x.Lawful a) :
    (x.after a).BudgetWithin id m (n + if x.Grants a id then 1 else 0) where
  filed := filed_after hx.filed h.1
  known := known_after hx.known
  stored := fun _ hk => hx.record_after h hk
  held := by
    intro w k hk hid
    rcases held_after hx.filed hk with ⟨hbefore, -⟩ | ⟨-, j, hj, -, rfl, -⟩
    · exact (hx.held w k hbefore hid).copy rfl rfl
    · obtain rfl : j.id = id := hid
      exact (hx.stored j hj).copy rfl rfl
  seen := by
    intro k hk hid
    rcases seen_after hx.filed hk with hbefore | hstored
    · exact (hx.seen k hbefore hid).copy rfl rfl
    · exact (hx.stored k (hid ▸ hstored)).copy rfl rfl

theorem afterAll {acts : List Act} (h : Runs Lawful x acts) (hx : x.BudgetWithin id m n) :
    (x.afterAll acts).BudgetWithin id m (n + grants id x acts) := by
  induction acts generalizing x n with
  | nil => exact hx
  | cons a rest ih =>
    have hrest := ih h.2 (hx.after h.1)
    rwa [Nat.add_assoc] at hrest

end BudgetWithin

/-! ## Without outdated records -/

/-- The budget of the stored record covers its retries, and is `n` above `m` unless that is more than
a count can be. -/
structure BudgetExactly (id : JobId) (m n : Nat) (x : World) : Prop where
  custody : x.Custody id
  known : id ∈ x.known
  covered : ∀ j, x.job? id = some j → j.retries.val ≤ j.maxRetries.val
  budget : ∀ j, x.job? id = some j → j.maxRetries.val = min (m + n) (UInt32.size - 1)

namespace BudgetExactly

/-- Whatever an act of an engine with a respectful janitor stores was stored before, up to the
counters, or it is the rescue of what was stored before. -/
theorem cases_after (hx : x.BudgetExactly id m n) (h : Respecting id x a) {k : Job}
    (hk : (x.after a).job? id = some k) :
    ∃ j, x.job? id = some j ∧
      ((k.maxRetries = j.maxRetries ∧ k.retries.val ≤ k.maxRetries.val ∧ ¬ x.Grants a id) ∨
        ∃ now, k = j.rescue now ∧ x.Rescues a id ∧ x.source? id a = some j) := by
  obtain ⟨hlawful, hrespects⟩ := h
  by_cases heq : (x.after a).job? id = x.job? id
  · have hsame := heq.symm.trans hk
    exact ⟨k, hsame, .inl ⟨rfl, hx.covered k hsame, fun hg => hg.1.2 heq⟩⟩
  have hidle (ha : a.ofJanitor = false) : ¬ x.Grants a id := fun hg => by
    simp [hg.1.1] at ha
  rcases job?_after hx.custody.filed hlawful.1 id with hsame | ⟨r, hr, hchange⟩
  · exact absurd hsame heq
  obtain rfl : r = some k := hr.symm.trans hk
  cases hchange with
  | @picked w j stored _ => exact ⟨j, stored, .inl ⟨rfl, hx.covered j stored, hidle rfl⟩⟩
  | @completed w j held hid =>
    have stored := (hx.custody.stored _ j held hid).1
    exact ⟨j, stored, .inl ⟨rfl, hx.covered j stored, hidle rfl⟩⟩
  | @retried w j error strategy next held hid left =>
    have stored := (hx.custody.stored _ j held hid).1
    refine ⟨j, stored, .inl ⟨rfl, ?_, hidle rfl⟩⟩
    have hlt := Job.hasRetriesLeft_eq_true.1 left
    have hr := j.val_retries_retryAt next
    change _ ≤ j.maxRetries.val
    omega
  | @failed w j error strategy held hid _ =>
    have stored := (hx.custody.stored _ j held hid).1
    exact ⟨j, stored, .inl ⟨rfl, hx.covered j stored, hidle rfl⟩⟩
  | @promoted j stored _ => exact ⟨j, stored, .inl ⟨rfl, hx.covered j stored, hidle rfl⟩⟩
  | derived hnew => exact absurd (hnew ▸ hx.known) hlawful.2
  | @swept batch j stored _ => exact ⟨j, stored, .inr ⟨_, rfl, ⟨rfl, heq⟩, stored⟩⟩
  | @rescued now j seen hid _ =>
    exact ⟨j, (hrespects ⟨rfl, heq⟩).2 now j rfl, .inr ⟨now, rfl, ⟨rfl, heq⟩, if_pos hid⟩⟩

theorem after (hx : x.BudgetExactly id m n) (h : Respecting id x a) :
    (x.after a).BudgetExactly id m (n + if x.Grants a id then 1 else 0) where
  custody := hx.custody.after h.1 fun hres => (h.2 hres).1
  known := known_after hx.known
  covered := by
    intro k hk
    obtain ⟨j, -, ⟨-, hcovered, -⟩ | ⟨now, rfl, -⟩⟩ := hx.cases_after h hk
    · exact hcovered
    · exact j.covered_rescue now
  budget := by
    intro k hk
    obtain ⟨j, hj, ⟨hm, -, hg⟩ | ⟨now, rfl, hres, hsource⟩⟩ := hx.cases_after h hk
    · rw [hm, if_neg hg]
      exact hx.budget j hj
    · have hbudget := hx.budget j hj
      have hcovered := hx.covered j hj
      cases hl : j.hasRetriesLeft with
      | true =>
        rw [Job.maxRetries_rescue_of_left hl, if_neg fun hg => by simp [Grants, hsource, hl] at hg]
        exact hbudget
      | false =>
        have hspent := Job.hasRetriesLeft_eq_false_iff.1 hl
        have hr := j.val_retries_rescue now
        rw [Job.maxRetries_rescue_of_spent hl, if_pos ⟨hres, by simp [hsource, hl]⟩]
        omega

theorem afterAll {acts : List Act} (h : Runs (Respecting id) x acts)
    (hx : x.BudgetExactly id m n) : (x.afterAll acts).BudgetExactly id m (n + grants id x acts) := by
  induction acts generalizing x n with
  | nil => exact hx
  | cons a rest ih =>
    have hrest := ih h.2 (hx.after h.1)
    rwa [Nat.add_assoc] at hrest

end BudgetExactly

/-! ## All runs -/

/-- The budget of a job is never lowered, and raised by grants alone, by at most one each. Where the
janitor respects the job, it is raised by one with every grant, however many there are. -/
theorem budget_raised_by_grants {s : EngineState} (hf : s.store.Filed) {j : Job}
    (hj : s.store.job? id = some j) (hcovered : j.retries ≤ j.maxRetries) {acts : List Act}
    (h : Runs Lawful (start s) acts) {k : Job} (hk : ((start s).afterAll acts).job? id = some k) :
    j.maxRetries ≤ k.maxRetries ∧
      k.maxRetries.val ≤ j.maxRetries.val + grants id (start s) acts ∧
      (Runs (Respecting id) (start s) acts →
        k.maxRetries.val = min (j.maxRetries.val + grants id (start s) acts) (UInt32.size - 1)) := by
  have honly : ∀ i, (start s).job? id = some i → i = j := fun i hi =>
    Option.some.inj (hi.symm.trans hj)
  have hknown : id ∈ (start s).known := Table.mem_keys.2 ⟨j, hj⟩
  have hstart : (start s).BudgetWithin id j.maxRetries.val 0 := {
    filed := hf
    known := hknown
    stored := by
      intro i hi
      rw [honly i hi]
      exact ⟨hcovered, Nat.le_refl _, Nat.le_refl _⟩
    held := fun w i hi => by cases hi
    seen := fun i hi => by cases hi }
  have hend := (hstart.afterAll h).stored k hk
  rw [Nat.zero_add] at hend
  refine ⟨hend.least, hend.most, fun hr => ?_⟩
  have hexact : (start s).BudgetExactly id j.maxRetries.val 0 := {
    custody := .start hf
    known := hknown
    covered := by
      intro i hi
      rw [honly i hi]
      exact hcovered
    budget := by
      intro i hi
      have hlimit := j.maxRetries.lt_limit
      rw [honly i hi]
      omega }
  have hbudget := (hexact.afterAll hr).budget k hk
  rwa [Nat.zero_add] at hbudget

/-! ## Two grants -/

/-- A worker's attempt succeeds but cannot be stored, and a janitor run reclaims the job at `now`. -/
def losing (x : World) (now : Instant) : List Act :=
  [.pick 0, .succeed 0,
    .other { ((x.after (.pick 0)).after (.succeed 0)).engine with now }, .sweep 1000]

theorem held_after_success (hx : ∀ v, x.held v = none) (v : Nat) :
    ((x.after (.pick 0)).after (.succeed 0)).held v = none := by
  by_cases hv : v = 0
  · rw [hv]
    exact held_of_relieved rfl
  · have hdone : (Act.succeed 0).relieved? ≠ some v := fun h => hv (Option.some.inj h).symm
    have hpick : Act.pick 0 ≠ .pick v := fun h => hv (Act.pick.inj h).symm
    rw [held_of_not_relieved hdone (by simp),
      held_of_not_relieved (by simp [Act.relieved?]) hpick, hx]

theorem respects_of_not_janitor (h : a.ofJanitor = false) : x.Respects a id := by
  intro hres
  rw [hres.1] at h
  cases h

/-- A whole janitor run reads what it saves, so workers with no job in hand are all that it takes. -/
theorem respects_sweep (hx : ∀ v, x.held v = none) (batch : Nat) :
    x.Respects (.sweep batch) id := by
  refine fun _ => ⟨?_, fun now j h => by cases h⟩
  rintro w ⟨j, hj, -⟩
  cases (hx w).symm.trans hj

theorem losing_respecting {now : Instant} (hx : ∀ v, x.held v = none)
    (h : Runs Lawful x (x.losing now)) : Runs (Respecting id) x (x.losing now) := by
  obtain ⟨hpick, hdone, hclock, hsweep, -⟩ := h
  refine ⟨⟨hpick, respects_of_not_janitor rfl⟩, ⟨hdone, respects_of_not_janitor rfl⟩,
    ⟨hclock, respects_of_not_janitor rfl⟩, ⟨hsweep, respects_sweep (fun v => ?_) _⟩, trivial⟩
  exact held_after_success hx v

/-- A ready job without retries, and a storage that fails to save it after each of two attempts. -/
def forsaken : EngineState where
  now := .epoch
  backend := {
    store := Store.saveJob {} { loneJob with maxRetries := 0 }
    faults := [⟨.saveJob, 0, 1, "no space left"⟩, ⟨.saveJob, 1, 1, "no space left"⟩] }
  breaker := { name := "storage", settings := .default }

/-- The first attempt is lost and the job made ready again. -/
def forsakingOnce : List Act := (start forsaken).losing (.ofMillis 1000000) ++ [.enqueue]

/-- The second attempt is lost as well. -/
def forsaking : List Act :=
  forsakingOnce ++ ((start forsaken).afterAll forsakingOnce).losing (.ofMillis 2000000)

theorem filed_forsaken : forsaken.store.Filed := Store.Filed.saveJob fun _ _ h => by cases h

theorem forsaking_lawful : Runs Lawful (start forsaken) forsaking := by decide +kernel

theorem forsaking_respecting : Runs (Respecting loneJob.id) (start forsaken) forsaking := by
  obtain ⟨honce, hagain⟩ := runs_append.1 forsaking_lawful
  obtain ⟨hfirst, hready, -⟩ := runs_append.1 honce
  have hempty : ∀ v, (start forsaken).held v = none := fun _ => rfl
  refine runs_append.2 ⟨runs_append.2 ⟨losing_respecting hempty hfirst,
    ⟨hready, respects_of_not_janitor rfl⟩, trivial⟩, losing_respecting (fun v => ?_) hagain⟩
  rw [forsakingOnce, afterAll_append]
  exact held_after_success hempty v

theorem forsaken_budget_raised :
    ∃ k, ((start forsaken).afterAll forsaking).job? loneJob.id = some k ∧ k.retries = 2 ∧
      (0 : Count) ≤ k.maxRetries ∧ k.maxRetries.val ≤ 0 + 2 ∧
      k.maxRetries.val = min (0 + 2) (UInt32.size - 1) := by
  have hstored : forsaken.store.job? loneJob.id = some { loneJob with maxRetries := 0 } := by
    decide +kernel
  have hretries : (((start forsaken).afterAll forsaking).job? loneJob.id).map Job.retries =
      some 2 := by
    decide +kernel
  have hgrants : grants loneJob.id (start forsaken) forsaking = 2 := by decide +kernel
  obtain ⟨k, hk, hr⟩ := Option.map_eq_some_iff.1 hretries
  obtain ⟨hleast, hmost, hexact⟩ :=
    budget_raised_by_grants filed_forsaken hstored (by decide) forsaking_lawful hk
  rw [hgrants] at hmost hexact
  exact ⟨k, hk, hr, hleast, hmost, hexact forsaking_respecting⟩

/-- The budget may be raised more than once: in `forsaking` a job without retries ends up with a
budget of two. -/
theorem budget_raised_past_one :
    ¬ ∀ (s : EngineState) (acts : List Act) (id : JobId) (j k : Job),
      s.store.Filed → s.store.job? id = some j → j.retries ≤ j.maxRetries →
      Runs Lawful (start s) acts → ((start s).afterAll acts).job? id = some k →
      k.maxRetries.val ≤ j.maxRetries.val + 1 := by
  intro hclaim
  have hstored : forsaken.store.job? loneJob.id = some { loneJob with maxRetries := 0 } := by
    decide +kernel
  have hbudget : (((start forsaken).afterAll forsaking).job? loneJob.id).map Job.maxRetries =
      some 2 := by
    decide +kernel
  obtain ⟨k, hk, hm⟩ := Option.map_eq_some_iff.1 hbudget
  have hone := hclaim forsaken forsaking loneJob.id _ k filed_forsaken hstored (by decide)
    forsaking_lawful hk
  rw [hm] at hone
  exact absurd hone (by decide)

end World

end JobEngine
