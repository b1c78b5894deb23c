-- SUMMARY: What has changed in an engine's state since somebody looked last.
import JobEngine.Engine.State

/-!
# Watching an engine

A `Watch` remembers what was seen of a state. `Watch.look` answers what is new or different since
then: events and messages that were added, records that differ, and jobs that are gone.
-/

namespace JobEngine

/-- What was seen of a state. -/
structure Watch where
  events : Nat := 0
  messages : Nat := 0
  jobs : Table JobId Job := ∅
  crons : Table CronId CronDefinition := ∅

/-- The differences between two looks at a state. -/
structure Changes where
  events : List EngineEvent
  /-- The messages beyond those that were there before. -/
  messages : List JobMessage
  /-- The number of messages, if it is another one. -/
  messageCount : Option Nat
  /-- The jobs that are new or differ, in order of age. -/
  jobs : List Job
  gone : List JobId
  /-- The cron definitions that are new or differ. -/
  crons : List CronDefinition

/-- Look at a state again. -/
def Watch.look (w : Watch) (s : EngineState) : Changes × Watch :=
  let store := s.backend.store
  let count := store.messages.length
  ({ events := s.events.drop w.events
     messages := store.messages.drop w.messages
     messageCount := if count = w.messages then none else some count
     jobs := store.jobList.filter fun j => w.jobs.get? j.id ≠ some j
     gone := w.jobs.keys.filter fun id => !store.jobs.contains id
     crons := store.crons.values.filter fun c => w.crons.get? c.id ≠ some c },
    ⟨s.events.length, count, store.jobs, store.crons⟩)

end JobEngine
