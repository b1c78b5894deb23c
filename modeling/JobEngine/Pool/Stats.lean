-- SUMMARY: A snapshot of a pool's counters, and its record.
import JobEngine.Binary64.Basic
import JobEngine.Pool.Basic

/-!
# Pool statistics
-/

namespace JobEngine

/-- The counters of a pool at one moment. -/
structure PoolStats where
  name : String
  concurrency : Nat
  activeWorkers : Nat
  workersSpawned : Nat
  workerPanics : Nat
  processed : Nat
  skipped : Nat
  paused : Bool
  uptimeSecs : Nat
deriving DecidableEq

/-- The counters of a pool that has been up for some seconds. -/
def Pool.snapshot {ω : Type} (p : Pool ω) (uptimeSecs : Nat) : PoolStats where
  name := p.config.name
  concurrency := p.config.concurrency
  activeWorkers := p.active
  workersSpawned := p.spawned
  workerPanics := p.panics
  processed := p.stats.processed
  skipped := p.stats.skipped
  paused := p.isPaused
  uptimeSecs := uptimeSecs

namespace PoolStats

/-- The share of iterations that found work, in percent. The quotient is rounded before it is
multiplied. -/
def hitRate (s : PoolStats) : Binary64 :=
  if s.processed + s.skipped = 0 then .zero
  else
    ((Binary64.ofNat s.processed).div (.ofNat (s.processed + s.skipped))).mul (.ofNat 100)

def fieldNames : List String :=
  ["name", "concurrency", "active_workers", "workers_spawned", "worker_panics", "processed",
    "skipped", "paused", "uptime_secs"]

def toJson (s : PoolStats) : Json :=
  .object [("name", .str s.name), ("concurrency", .ofNat s.concurrency),
    ("active_workers", .ofNat s.activeWorkers), ("workers_spawned", .ofNat s.workersSpawned),
    ("worker_panics", .ofNat s.workerPanics), ("processed", .ofNat s.processed),
    ("skipped", .ofNat s.skipped), ("paused", .bool s.paused),
    ("uptime_secs", .ofNat s.uptimeSecs)]

def ofJson? (v : Json) : Option PoolStats := do
  let word := Json.natBelow? UInt64.size
  let r ← v.record? fieldNames
  return {
    name := ← r.required "name" Json.text?
    concurrency := ← r.required "concurrency" word
    activeWorkers := ← r.required "active_workers" word
    workersSpawned := ← r.required "workers_spawned" word
    workerPanics := ← r.required "worker_panics" word
    processed := ← r.required "processed" word
    skipped := ← r.required "skipped" word
    paused := ← r.required "paused" Json.boolean?
    uptimeSecs := ← r.required "uptime_secs" word }

instance : Recorded PoolStats := ⟨toJson, ofJson?⟩

end PoolStats

end JobEngine
