-- SUMMARY: A storage that counts its calls, may be switched off, and may fail by plan.
import JobEngine.Error.Basic
import JobEngine.Store.Basic

/-!
# Storage backends

The engine reaches a store only through the methods of a backend. A call may fail: by plan, in which
case it does not reach the storage at all, or because the storage is switched off. A call that fails
leaves the store as it is. The backend also gives the jobs that are derived from cron definitions
their identifiers, when it is first asked to save them.
-/

namespace JobEngine

/-- The calls that the engine makes. -/
inductive StorageMethod where
  | pickJob
  | enqueueJobs
  | saveJob
  | getJobs
  | getCrons
  | saveCron
  | deleteJobs
  | saveMessage
deriving DecidableEq, Repr

namespace StorageMethod

def all : List StorageMethod :=
  [.pickJob, .enqueueJobs, .saveJob, .getJobs, .getCrons, .saveCron, .deleteJobs, .saveMessage]

def name : StorageMethod → String
  | .pickJob => "pick_job"
  | .enqueueJobs => "enqueue_jobs"
  | .saveJob => "save_job"
  | .getJobs => "get_jobs"
  | .getCrons => "get_all_cron_jobs"
  | .saveCron => "save_cron_job"
  | .deleteJobs => "delete_all_jobs"
  | .saveMessage => "save_job_message"

def ofName? (s : String) : Option StorageMethod := all.find? (·.name = s)

end StorageMethod

/-- A plan: let `skip` calls of a method pass, then fail `times` calls. -/
structure Fault where
  method : StorageMethod
  skip : Nat
  times : Nat
  message : String
deriving DecidableEq

/-- A store behind the methods that may fail. -/
structure Backend where
  store : Store := {}
  available : Bool := true
  /-- The calls that reached the storage, failed ones included. -/
  calls : Nat := 0
  faults : List Fault := []
  /-- The number of the next identifier for a derived job. -/
  nextId : Nat := 0
deriving DecidableEq

instance : Inhabited Backend := ⟨{}⟩

namespace Backend

/-- Pass a call by the plans. Every plan for the method counts the call until one is due. -/
def consult (method : StorageMethod) : List Fault → Option String × List Fault
  | [] => (none, [])
  | f :: rest =>
    let pass (f : Fault) :=
      let (failure, rest) := consult method rest
      (failure, f :: rest)
    if f.method ≠ method then pass f
    else if 0 < f.skip then pass { f with skip := f.skip - 1 }
    else if 0 < f.times then (some f.message, { f with times := f.times - 1 } :: rest)
    else pass f

/-- A planned failure of a call, and the backend with the plans moved on. -/
def planned (b : Backend) (method : StorageMethod) : Option String × Backend :=
  let (failure, faults) := consult method b.faults
  (failure, { b with faults := faults })

/-- A call that no plan stopped reaches the storage: it is counted, and it answers unless the
storage is switched off. -/
def reach {α : Type} (b : Backend) (op : Store → α × Store) : Except EngineError α × Backend :=
  let b := { b with calls := b.calls + 1 }
  if b.available then
    let (answer, store) := op b.store
    (.ok answer, { b with store := store })
  else (.error (.storageUnavailable "In-memory storage is switched off"), b)

/-- A call of a method. -/
def perform {α : Type} (b : Backend) (method : StorageMethod) (op : Store → α × Store) :
    Except EngineError α × Backend :=
  match b.planned method with
  | (some message, b) => (.error (.storage message), b)
  | (none, b) => b.reach op

/-! ## Methods -/

def pickJob (now : Instant) (b : Backend) : Except EngineError (Option Job) × Backend :=
  b.perform .pickJob (·.pickJob now)

def enqueueJobs (now : Instant) (b : Backend) : Except EngineError (List Job) × Backend :=
  b.perform .enqueueJobs (·.enqueueJobs now)

def saveJob (j : Job) (b : Backend) : Except EngineError Unit × Backend :=
  b.perform .saveJob fun s => ((), s.saveJob j)

/-- Save a job that has no identifier yet, and answer it with the one it got. A call that a plan
stops uses up no identifier. -/
def saveNewJob (draft : JobId → Job) (b : Backend) : Except EngineError Job × Backend :=
  match b.planned .saveJob with
  | (some message, b) => (.error (.storage message), b)
  | (none, b) =>
    let j := draft (Uuid.ofNat b.nextId)
    { b with nextId := b.nextId + 1 }.reach fun s => (j, s.saveJob j)

def getJobs (f : JobFilter) (p : Page) (b : Backend) : Except EngineError (List Job) × Backend :=
  b.perform .getJobs fun s => (s.getJobs f p, s)

def getCrons (b : Backend) : Except EngineError (List CronDefinition) × Backend :=
  b.perform .getCrons fun s => (s.cronList, s)

def saveCron (c : CronDefinition) (b : Backend) : Except EngineError Unit × Backend :=
  b.perform .saveCron fun s => ((), s.saveCron c)

def deleteJobs (time : Instant) (b : Backend) : Except EngineError Nat × Backend :=
  b.perform .deleteJobs (·.deleteJobs time)

def saveMessage (m : JobMessage) (b : Backend) : Except EngineError Unit × Backend :=
  b.perform .saveMessage fun s => ((), s.saveMessage m)

end Backend

end JobEngine
