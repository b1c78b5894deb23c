-- SUMMARY: The lifecycle states of a job, and where a job comes from.
import JobEngine.Json.Record

/-!
# Job states

A job waits (`scheduled`, `retryable`), is ready (`enqueued`), runs (`executing`), or has left the
lifecycle (`completed`, `failed`, `discarded`).
-/

namespace JobEngine

/-- Where a job stands in its lifecycle. -/
inductive JobState where
  | scheduled
  | enqueued
  | executing
  | retryable
  | completed
  | failed
  | discarded
deriving DecidableEq, Repr, Inhabited

namespace JobState

def all : List JobState :=
  [.scheduled, .enqueued, .executing, .retryable, .completed, .failed, .discarded]

/-- The name of a state, in messages and in data. -/
def name : JobState → String
  | .scheduled => "SCHEDULED"
  | .enqueued => "ENQUEUED"
  | .executing => "EXECUTING"
  | .retryable => "RETRYABLE"
  | .completed => "COMPLETED"
  | .failed => "FAILED"
  | .discarded => "DISCARDED"

def ofName? (s : String) : Option JobState := all.find? (fun x => x.name = s)

/-- The job has left the lifecycle. -/
def isTerminal : JobState → Bool
  | .completed | .failed | .discarded => true
  | _ => false

/-- The job still moves through the engine. -/
def isActive (s : JobState) : Bool := !s.isTerminal

/-- The job becomes ready once its time has come. -/
def isAwaiting : JobState → Bool
  | .scheduled | .retryable => true
  | _ => false

def toJson (s : JobState) : Json := .str s.name
def ofJson? (v : Json) : Option JobState := v.name?.bind ofName?

instance : Recorded JobState := ⟨toJson, ofJson?⟩

end JobState

/-- Where a job comes from: a client, or a cron definition. -/
inductive JobCategory where
  | normal
  | scheduled
deriving DecidableEq, Repr, Inhabited

namespace JobCategory

def name : JobCategory → String
  | .normal => "NORMAL"
  | .scheduled => "SCHEDULED"

def ofName? (s : String) : Option JobCategory := [normal, scheduled].find? (fun x => x.name = s)

def toJson (s : JobCategory) : Json := .str s.name
def ofJson? (v : Json) : Option JobCategory := v.name?.bind ofName?

instance : Recorded JobCategory := ⟨toJson, ofJson?⟩

end JobCategory

end JobEngine
