-- SUMMARY: Retry strategies by name, with a default.
import JobEngine.Error.Basic
import JobEngine.Retry.Strategy

/-!
# The retry registry

A `RetryRegistry` maps names to strategies. The name of the default is one of them, which the type
records, so that looking a strategy up always gives one.
-/

namespace JobEngine

/-- Strategies by name, and the name of the default. -/
structure RetryRegistry where
  strategies : Table String RetryStrategy
  defaultName : String
  default_isSome : (strategies.get? defaultName).isSome

namespace RetryRegistry

/-- Every strategy under its own name; of two with one name the later one counts. -/
def byName (strategies : List RetryStrategy) : Table String RetryStrategy :=
  Table.ofList (strategies.map fun s => (s.name, s))

/-- The registry of some strategies. There must be at least one, and the default must be one. -/
def build (strategies : List RetryStrategy) (defaultName : String) :
    Except EngineError RetryRegistry :=
  if strategies.isEmpty then
    .error (.configuration "At least one retry strategy must be registered")
  else if h : ((byName strategies).get? defaultName).isSome then
    .ok ⟨byName strategies, defaultName, h⟩
  else
    .error (.configuration ("Default retry strategy '" ++ defaultName ++ "' is not registered"))

/-- All bundled strategies, with jitter as the default. -/
def bundled : RetryRegistry := ⟨byName RetryStrategy.bundled, "jitter", by decide⟩

/-- The strategy of a name. -/
def get? (r : RetryRegistry) (name : String) : Option RetryStrategy := r.strategies.get? name

/-- The default strategy. -/
def default (r : RetryRegistry) : RetryStrategy :=
  (r.strategies.get? r.defaultName).get r.default_isSome

/-- The strategy of a name, or the default if there is no name or no such strategy. -/
def resolve (r : RetryRegistry) (name : Option String) : RetryStrategy :=
  (name.bind r.get?).getD r.default

/-- The registered names, in order. -/
def names (r : RetryRegistry) : List String := r.strategies.keys

end RetryRegistry

end JobEngine
