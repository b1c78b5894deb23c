-- SUMMARY: The jobs of a store in order of age, and what saving a job does to such a listing.
import JobEngine.Proofs.Store.Records

/-!
# Listings

A listing holds the stored jobs with some property, the older before the younger and of equally old
ones the one with the smaller identifier first. That order is strict on the jobs of a filed store, so
a listing is determined by what it holds.
-/

namespace JobEngine

/-! ## Age -/

namespace Job

variable {a b c : Job}

/-- Created earlier, or at the same time under a smaller identifier. -/
def Older (a b : Job) : Prop :=
  a.createdAt < b.createdAt ∨ (a.createdAt = b.createdAt ∧ a.id < b.id)

theorem older_iff : Older a b ↔ a.createdAt.nanos < b.createdAt.nanos ∨
    (a.createdAt.nanos = b.createdAt.nanos ∧ a.id.value < b.id.value) := by
  have htime : a.createdAt = b.createdAt ↔ a.createdAt.nanos = b.createdAt.nanos :=
    ⟨congrArg Instant.nanos, Instant.ext_nanos⟩
  simp only [Older, htime]
  rfl

theorem olderOrSame_iff : a.olderOrSame b = true ↔ a.createdAt.nanos < b.createdAt.nanos ∨
    (a.createdAt.nanos = b.createdAt.nanos ∧ a.id.value ≤ b.id.value) := by
  unfold olderOrSame
  split
  · rename_i htime
    rw [htime, decide_eq_true_eq]
    change a.id.value ≤ b.id.value ↔ _
    omega
  · rename_i htime
    have hne : a.createdAt.nanos ≠ b.createdAt.nanos := fun h => htime (Instant.ext_nanos h)
    rw [decide_eq_true_eq]
    change a.createdAt.nanos ≤ b.createdAt.nanos ↔ _
    omega

theorem olderOrSame_trans (a b c : Job) (hab : a.olderOrSame b) (hbc : b.olderOrSame c) :
    a.olderOrSame c := by
  rw [olderOrSame_iff] at *
  omega

theorem olderOrSame_total (a b : Job) : a.olderOrSame b || b.olderOrSame a := by
  rw [Bool.or_eq_true, olderOrSame_iff, olderOrSame_iff]
  omega

theorem older_of_olderOrSame (h : a.olderOrSame b) (hne : a.id ≠ b.id) : a.Older b := by
  have hvalue : a.id.value ≠ b.id.value := fun hv => hne (Uuid.ext_value hv)
  rw [olderOrSame_iff] at h
  rw [older_iff]
  omega

theorem Older.ne (h : a.Older b) : a ≠ b := by
  rintro rfl
  rw [older_iff] at h
  omega

theorem Older.not_older (h : a.Older b) : ¬ b.Older a := by
  rw [older_iff] at *
  omega

theorem mem_byAge {l : List Job} : a ∈ byAge l ↔ a ∈ l :=
  (List.mergeSort_perm l _).mem_iff

/-- A list in order of age is determined by its members. -/
theorem eq_of_pairwise_older {l m : List Job} (hl : l.Pairwise Older) (hm : m.Pairwise Older)
    (h : ∀ j, j ∈ l ↔ j ∈ m) : l = m := by
  have hperm := (List.perm_ext_iff_of_nodup (hl.imp Older.ne) (hm.imp Older.ne)).2 h
  exact hperm.eq_of_pairwise (fun _ _ _ _ hab hba => absurd hba hab.not_older) hl hm

end Job

/-! ## Listings -/

namespace Store

variable {s : Store} {p q : Job → Bool} {j : Job} {l m : List Job}

/-- The stored jobs with property `p`, in order of age. -/
def listing (s : Store) (p : Job → Bool) : List Job := Job.byAge (s.jobs.values.filter p)

theorem Filed.mem_listing (hf : s.Filed) : j ∈ s.listing p ↔ s.job? j.id = some j ∧ p j := by
  rw [listing, Job.mem_byAge, List.mem_filter]
  exact and_congr_left fun _ => ⟨hf.job?_of_mem, mem_values_of_job?⟩

theorem Filed.listing_ids_nodup (hf : s.Filed) (p : Job → Bool) :
    ((s.listing p).map Job.id).Nodup := by
  have hperm : (s.listing p).Perm (s.jobs.values.filter p) := List.mergeSort_perm _ _
  refine (hperm.map Job.id).nodup_iff.2 ?_
  exact hf.ids_nodup.sublist (List.filter_sublist.map _)

theorem Filed.listing_nodup (hf : s.Filed) (p : Job → Bool) : (s.listing p).Nodup :=
  List.Pairwise.of_map Job.id (fun _ _ hne heq => hne (congrArg Job.id heq))
    (hf.listing_ids_nodup p)

theorem Filed.listing_older (hf : s.Filed) (p : Job → Bool) :
    (s.listing p).Pairwise Job.Older := by
  have hsorted : (s.listing p).Pairwise (fun a b => a.olderOrSame b) :=
    List.pairwise_mergeSort Job.olderOrSame_trans Job.olderOrSame_total _
  have hids : (s.listing p).Pairwise (fun a b => a.id ≠ b.id) :=
    List.pairwise_map.1 (hf.listing_ids_nodup p)
  exact (hsorted.and hids).imp fun h => Job.older_of_olderOrSame h.1 h.2

/-- A list in order of age that holds the right jobs is the listing. -/
theorem Filed.listing_unique (hf : s.Filed) (hl : l.Pairwise Job.Older)
    (h : ∀ j, j ∈ l ↔ s.job? j.id = some j ∧ p j) : s.listing p = l :=
  Job.eq_of_pairwise_older (hf.listing_older p) hl fun j => hf.mem_listing.trans (h j).symm

/-- A narrower property keeps the order. -/
theorem Filed.listing_filter (hf : s.Filed) (hpq : ∀ j, q j → p j) :
    s.listing q = (s.listing p).filter q := by
  refine hf.listing_unique ((hf.listing_older p).sublist List.filter_sublist) fun j => ?_
  rw [List.mem_filter, hf.mem_listing, and_assoc]
  exact and_congr_right fun _ => ⟨And.right, fun h => ⟨hpq j h, h⟩⟩

/-- Saving a job without the property takes the record that stood there off the listing. -/
theorem Filed.listing_saveJob (hf : s.Filed) (hp : p j = false) :
    (s.saveJob j).listing p = (s.listing p).filter (·.id ≠ j.id) := by
  refine hf.saveJob.listing_unique ((hf.listing_older p).sublist List.filter_sublist) fun k => ?_
  rw [List.mem_filter, hf.mem_listing, job?_saveJob, decide_eq_true_eq]
  split
  · rename_i hid
    constructor
    · rintro ⟨-, hne⟩
      exact absurd hid hne
    · rintro ⟨hjk, hk⟩
      rw [← Option.some.inj hjk, hp] at hk
      cases hk
  · rename_i hid
    exact and_iff_left hid

end Store

end JobEngine
