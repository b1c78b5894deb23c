-- SUMMARY: A pool at work on a state, its workers as tasks in virtual time.
import JobEngine.Pool.Basic

/-!
# Pools at work

A `PoolRun` is a pool with the state that its workers change. Workers are tasks in virtual time,
known by their numbers.
-/

namespace JobEngine

/-- A pool with its state. -/
structure PoolRun (ω : Type) where
  pool : Pool ω
  state : ω

namespace PoolRun

variable {ω : Type}

/-- Carry a worker on. -/
def poll : Poll Nat (PoolRun ω) := fun i now s =>
  let (turn, pool, state) := s.pool.poll i now s.state
  (turn, { pool, state })

/-- Fill every empty slot, and answer whether there was one. -/
def start (x : VirtualTime Nat) (s : PoolRun ω) : Bool × VirtualTime Nat × PoolRun ω :=
  let (started, pool) := s.pool.start
  (started, x.spawnNew id s.pool.workers.length pool.workers.length, { s with pool })

def pause (s : PoolRun ω) : PoolRun ω := { s with pool := s.pool.pause }
def resume (s : PoolRun ω) : PoolRun ω := { s with pool := s.pool.resume }

/-- Let running iterations end, for at most `timeout`, and answer whether they did. -/
def shutdown (timeout : Duration) (x : VirtualTime Nat) (s : PoolRun ω) :
    Bool × VirtualTime Nat × PoolRun ω :=
  Pool.shutdown poll pool (fun pool s => { s with pool }) timeout x s

def shutdownNow (s : PoolRun ω) : PoolRun ω := { s with pool := s.pool.shutdownNow }

end PoolRun

end JobEngine
