-- SUMMARY: Jobs and cron definitions are read back from their records.
import JobEngine.Job.Record
import JobEngine.Proofs.Text.Identifiers
import JobEngine.Proofs.Time.DurationTexts
import JobEngine.Proofs.Time.InstantTexts

/-!
# Records of jobs, written and read

An object that was built from fields of different names holds each of them, so a record is read back
if every field is. The fields of a job are identifiers, counts, durations, times, names and labels;
each of them is determined by its written form.
-/

namespace JobEngine

/-! ## Objects -/

namespace Json

theorem setField_eq (k : String) (v : Json) (l : List (String × Json)) :
    setField k v l = Table.insertEntry k v l := by
  induction l with
  | nil => rfl
  | cons e rest ih => simp only [setField, Table.insertEntry, ih]

/-- A record that lists different names can be read field by field. -/
theorem record?_of_object {names : List String} (hnodup : names.Nodup) {v : Json}
    {fields : List (String × Json)} (hv : v = .object fields) (hnames : fields.map (·.1) = names) :
    ∃ r, v.record? names = some r ∧ ∀ e ∈ fields, r.find? e.1 = some e.2 := by
  subst hv hnames
  refine ⟨_, rfl, fun e hfield => ?_⟩
  have hfound : fields.find? (fun e' => e'.1 = e.1) = some e :=
    Table.find?_of_mem hnodup hfield
  simp only [Record.find?, setField_eq]
  rw [Table.find?_foldl_insertEntry hnodup, hfound, Option.some_or, Option.map_some]

theorem text?_str (s : String) : text? (.str s) = some s := rfl

theorem boolean?_bool (b : Bool) : boolean? (.bool b) = some b := rfl

namespace Record

variable {α : Type} {r : Record} {name : String} {v : Json} {read : Json → Option α} {a : α}

theorem required_of_find? (hfield : r.find? name = some v) (hread : read v = some a) :
    r.required name read = some a := by
  simp [required, hfield, hread]

/-- A field that is null if there is nothing to write. -/
theorem optional_of_find? {write : α → Json} {x : Option α}
    (hfield : r.find? name = some (.ofOption write x)) (hnull : ∀ a, write a ≠ .null)
    (hread : ∀ a, read (write a) = some a) : r.optional name read = some x := by
  cases x with
  | none => simp [optional, hfield, ofOption]
  | some a =>
    rw [optional, hfield]
    split
    · simp_all
    · rename_i heq
      exact absurd (Option.some.inj heq) (hnull a)
    · rename_i heq
      rw [← Option.some.inj heq]
      simp [ofOption, hread]

end Record

end Json

/-! ## Fields -/

theorem Uuid.ofJson?_toJson (u : Uuid) : ofJson? u.toJson = some u := by
  rw [ofJson?, toJson, Json.text?, Option.bind_some, parse?_toText]

theorem Instant.ofJson?_toJson (t : Instant) : ofJson? t.toJson = some t := by
  rw [ofJson?, toJson, Json.text?, Option.bind_some, parse?_zuluText]

theorem Instant.toJson_ne_null (t : Instant) : t.toJson ≠ .null := by
  intro h
  rw [toJson] at h
  cases h

theorem Json.Record.optionalTime_of_find? {r : Json.Record} {name : String} {x : Option Instant}
    (hfield : r.find? name = some (.ofOption Instant.toJson x)) :
    r.optional name Instant.ofJson? = some x :=
  optional_of_find? hfield Instant.toJson_ne_null Instant.ofJson?_toJson

theorem Duration.ofJson?_toJson (d : Duration) : ofJson? d.toJson = some d := by
  simp [ofJson?, toJson, Json.text?, d.parse_toText]

theorem Count.ofJson?_toJson (n : Count) : ofJson? n.toJson = some n := by
  simp [ofJson?, toJson, n.lt_limit]

theorem JobState.ofJson?_toJson (s : JobState) : ofJson? s.toJson = some s := by
  cases s <;> rfl

theorem JobCategory.ofJson?_toJson (s : JobCategory) : ofJson? s.toJson = some s := by
  cases s <;> rfl

theorem TagSet.ofJson?_toJson (t : TagSet) : ofJson? t.toJson = some t := by
  have hitems (l : List String) : (l.map Json.str).mapM Json.text? = some l := by
    induction l with
    | nil => rfl
    | cons s l ih => simp [List.mapM_cons, ih, Json.text?]
  have hentries : t.toList.map (·, ()) = t.entries := by
    simp [TagSet.toList, Table.keys, Function.comp_def]
  rw [ofJson?, toJson, Json.items?, hitems, Option.map_some, ofList, hentries, Table.ofList_entries]

/-! ## Records -/

open Json (text?_str boolean?_bool)
open Json.Record (required_of_find? optional_of_find? optionalTime_of_find?)

theorem Queue.ofJson?_toJson (q : Queue) : ofJson? q.toJson = some q := by
  obtain ⟨r, hrecord, hfields⟩ := Json.record?_of_object
    (by decide : ["id", "name", "weight", "locked"].Nodup) (rfl : q.toJson = .object _) rfl
  simp only [List.forall_mem_cons] at hfields
  obtain ⟨hid, hname, hweight, hlocked, -⟩ := hfields
  rw [ofJson?, bind_of_read hrecord,
    bind_of_read (required_of_find? hid (Uuid.ofJson?_toJson _)),
    bind_of_read (required_of_find? hname (text?_str _)),
    bind_of_read (required_of_find? hweight (Count.ofJson?_toJson _)),
    bind_of_read (required_of_find? hlocked (boolean?_bool _))]
  rfl

theorem Job.ofJson?_toJson (j : Job) : ofJson? j.toJson = some j := by
  obtain ⟨r, hrecord, hfields⟩ := Json.record?_of_object
    (by decide : fieldNames.Nodup) (rfl : j.toJson = .object _) rfl
  simp only [List.forall_mem_cons] at hfields
  obtain ⟨hid, hidentifier, hqueue, hhandler, hstate, hcategory, hdata, hretries, hmaxRetries,
    htimeout, htags, hcreated, hscheduled, hexecuting, hcompleted, hfailed, hdiscarded, -⟩ :=
    hfields
  rw [ofJson?, bind_of_read hrecord,
    bind_of_read (required_of_find? hid (Uuid.ofJson?_toJson _)),
    bind_of_read (optional_of_find? hidentifier nofun text?_str),
    bind_of_read (required_of_find? hqueue (Queue.ofJson?_toJson _)),
    bind_of_read (required_of_find? hhandler (text?_str _)),
    bind_of_read (required_of_find? hstate (JobState.ofJson?_toJson _)),
    bind_of_read (required_of_find? hcategory (JobCategory.ofJson?_toJson _)),
    bind_of_read (required_of_find? hdata rfl),
    bind_of_read (required_of_find? hretries (Count.ofJson?_toJson _)),
    bind_of_read (required_of_find? hmaxRetries (Count.ofJson?_toJson _)),
    bind_of_read (required_of_find? htimeout (Duration.ofJson?_toJson _)),
    bind_of_read (required_of_find? htags (TagSet.ofJson?_toJson _)),
    bind_of_read (required_of_find? hcreated (Instant.ofJson?_toJson _)),
    bind_of_read (optionalTime_of_find? hscheduled),
    bind_of_read (optionalTime_of_find? hexecuting),
    bind_of_read (optionalTime_of_find? hcompleted), bind_of_read (optionalTime_of_find? hfailed),
    bind_of_read (optionalTime_of_find? hdiscarded)]
  rfl

theorem CronDefinition.ofJson?_toJson (c : CronDefinition) : ofJson? c.toJson = some c := by
  obtain ⟨r, hrecord, hfields⟩ := Json.record?_of_object
    (by decide : fieldNames.Nodup) (rfl : c.toJson = .object _) rfl
  simp only [List.forall_mem_cons] at hfields
  obtain ⟨hid, hname, hexpression, hhandler, hqueue, hmaxRetries, htimeout, henabled, hnextRun, hdata,
    htags, -⟩ := hfields
  rw [ofJson?, bind_of_read hrecord,
    bind_of_read (required_of_find? hid (Uuid.ofJson?_toJson _)),
    bind_of_read (required_of_find? hname (text?_str _)),
    bind_of_read (required_of_find? hexpression (text?_str _)),
    bind_of_read (required_of_find? hhandler (text?_str _)),
    bind_of_read (required_of_find? hqueue (Queue.ofJson?_toJson _)),
    bind_of_read (required_of_find? hmaxRetries (Count.ofJson?_toJson _)),
    bind_of_read (required_of_find? htimeout (Duration.ofJson?_toJson _)),
    bind_of_read (required_of_find? henabled (boolean?_bool _)),
    bind_of_read (optionalTime_of_find? hnextRun), bind_of_read (required_of_find? hdata rfl),
    bind_of_read (required_of_find? htags (TagSet.ofJson?_toJson _))]
  rfl

/-- Every job and every cron definition is read back from its record as it was. -/
theorem records_read_back : (∀ j : Job, Job.ofJson? j.toJson = some j) ∧
    ∀ c : CronDefinition, CronDefinition.ofJson? c.toJson = some c :=
  ⟨Job.ofJson?_toJson, CronDefinition.ofJson?_toJson⟩

end JobEngine
