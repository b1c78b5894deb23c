-- SUMMARY: Selecting jobs by state, queue and handler.
import JobEngine.Job.Basic

/-!
# Job filters

An empty part of a filter admits every job.
-/

namespace JobEngine

/-- Which jobs to select. -/
structure JobFilter where
  states : List JobState := []
  queue : Option String := none
  handler : Option String := none
deriving DecidableEq

/-- Whether a job is selected. -/
def JobFilter.admits (f : JobFilter) (j : Job) : Bool :=
  (f.states.isEmpty || f.states.contains j.state) &&
    (match f.queue with
    | none => true
    | some q => j.queue.name == q) &&
    match f.handler with
    | none => true
    | some h => j.handler == h

/-- A part of a list: how many entries to skip, and how many to take after them. -/
structure Page where
  offset : Nat
  limit : Nat
deriving DecidableEq

/-- The entries of a page. -/
def Page.of {α : Type} (p : Page) (l : List α) : List α := (l.drop p.offset).take p.limit

end JobEngine
