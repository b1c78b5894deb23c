-- SUMMARY: The contents of a job store and the operations on it.
import JobEngine.Job.CronDefinition
import JobEngine.Job.Filter
import JobEngine.Job.Message

/-!
# Stores

A `Store` holds jobs and cron definitions under their identifiers, and the messages about jobs in
the order in which they were written. Its operations are pure: each gives an answer and the store
after it. Lists of jobs are answered in the order of their creation times and then of their
identifiers, lists of cron definitions in the order of their names and then of their identifiers.
-/

namespace JobEngine

/-- What a storage holds. -/
structure Store where
  jobs : Table JobId Job := ∅
  crons : Table CronId CronDefinition := ∅
  messages : List JobMessage := []
deriving DecidableEq

instance : Inhabited Store := ⟨{}⟩

/-! ## Orders -/

namespace Job

/-- Older jobs first, and of equally old ones the one with the smaller identifier. -/
def olderOrSame (a b : Job) : Bool :=
  if a.createdAt = b.createdAt then a.id ≤ b.id else a.createdAt ≤ b.createdAt

/-- Jobs in order of age. -/
def byAge (l : List Job) : List Job := l.mergeSort olderOrSame

/-- An absent time comes first. -/
def timeBefore : Option Instant → Option Instant → Bool
  | none, some _ => true
  | some a, some b => a < b
  | _, none => false

/-- Whether `a` is picked before `b`: the heavier queue first, then the job that waits longer, then
the older one, then the smaller identifier. -/
def pickedBefore (a b : Job) : Bool :=
  if a.queue.weight ≠ b.queue.weight then b.queue.weight < a.queue.weight
  else if a.scheduledAt ≠ b.scheduledAt then timeBefore a.scheduledAt b.scheduledAt
  else if a.createdAt ≠ b.createdAt then a.createdAt < b.createdAt
  else a.id < b.id

/-- The job of a list that is picked before all others. -/
def firstPicked? : List Job → Option Job
  | [] => none
  | j :: rest =>
    match firstPicked? rest with
    | none => some j
    | some k => if k.pickedBefore j then some k else some j

/-- The job waits for its time, and the time has come. -/
def isPromotable (j : Job) (now : Instant) : Bool := j.state.isAwaiting && j.isDue now

/-- The job left the lifecycle before `time`. -/
def isExpired (j : Job) (time : Instant) : Bool :=
  j.state.isTerminal &&
    match j.finishedAt with
    | none => false
    | some finished => finished < time

end Job

/-- Definitions in the order of their names. -/
def CronDefinition.byName (l : List CronDefinition) : List CronDefinition :=
  l.mergeSort fun a b => if a.name = b.name then a.id ≤ b.id else a.name ≤ b.name

namespace Store

/-! ## Jobs -/

/-- The job of an identifier. -/
def job? (s : Store) (id : JobId) : Option Job := s.jobs.get? id

/-- All jobs, in order of age. -/
def jobList (s : Store) : List Job := Job.byAge s.jobs.values

/-- Store a job under its identifier, replacing the record that stands there. -/
def saveJob (s : Store) (j : Job) : Store := { s with jobs := s.jobs.insert j.id j }

/-- Take the ready job that is picked first, and begin its attempt. -/
def pickJob (s : Store) (now : Instant) : Option Job × Store :=
  match Job.firstPicked? (s.jobs.values.filter (fun j => j.state = .enqueued)) with
  | none => (none, s)
  | some j => (some (j.execute now), { s with jobs := s.jobs.insert j.id (j.execute now) })

/-- Make every job ready whose time has come, and answer these jobs in order of age. -/
def enqueueJobs (s : Store) (now : Instant) : List Job × Store :=
  let promote (j : Job) : Job := if j.isPromotable now then j.enqueue else j
  (Job.byAge ((s.jobs.values.filter (·.isPromotable now)).map Job.enqueue),
    { s with jobs := s.jobs.mapValues promote })

/-- A page of the jobs that a filter admits. -/
def getJobs (s : Store) (f : JobFilter) (p : Page) : List Job :=
  p.of (Job.byAge (s.jobs.values.filter f.admits))

/-- Remove the jobs that left the lifecycle before `time`, with their messages, and answer how many
there were. -/
def deleteJobs (s : Store) (time : Instant) : Nat × Store :=
  let purged := s.jobs.values.filter (·.isExpired time)
  if purged.isEmpty then (0, s)
  else
    (purged.length,
      { s with
        jobs := s.jobs.filterValues fun j => !j.isExpired time
        messages := s.messages.filter fun m => !(purged.any fun j => j.id = m.jobId) })

/-! ## Cron definitions, messages, queues -/

/-- All cron definitions, in order of their names. -/
def cronList (s : Store) : List CronDefinition := CronDefinition.byName s.crons.values

/-- Store a cron definition under its identifier. -/
def saveCron (s : Store) (c : CronDefinition) : Store := { s with crons := s.crons.insert c.id c }

/-- Add a message. -/
def saveMessage (s : Store) (m : JobMessage) : Store := { s with messages := s.messages ++ [m] }

/-- Lock or unlock a queue wherever it stands. -/
def setQueueLocked (s : Store) (name : String) (locked : Bool) : Store :=
  let update (q : Queue) : Queue := if q.name = name then { q with locked := locked } else q
  { s with
    jobs := s.jobs.mapValues fun j => { j with queue := update j.queue }
    crons := s.crons.mapValues fun c => { c with queue := update c.queue } }

end Store

end JobEngine
