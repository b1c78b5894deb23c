-- SUMMARY: An engine is built just when its settings are valid, with the strategies that they list.
import JobEngine.Engine.Basic
import JobEngine.Proofs.Config.Settings

/-!
# Building engines

The settings are checked first, and what the engine uses is derived from them afterwards, each part
on its own. With a storage at hand nothing fails that was checked: an engine is built just when the
settings are valid, and the error is otherwise the one that the check found. The workers of the
engine look their retry strategies up in the registry that the settings give.
-/

namespace JobEngine.Engine

variable {config : EngineConfig} {parts : EngineParts} {e : Engine}

theorem validate_of_build (h : build config parts = .ok e) : config.validate = .ok () := by
  obtain ⟨⟨⟩, hvalid, -⟩ := bind_eq_ok.1 h
  exact hvalid

theorem build_of_invalid {error : EngineError} (h : config.validate = .error error) :
    build config parts = .error error := by
  unfold build
  rw [h]
  rfl

/-- What was checked is derived again without an error. -/
theorem exists_build {backend : Backend} (hstorage : parts.storage = some backend)
    (h : config.validate = .ok ()) : ∃ e, build config parts = .ok e := by
  have hvalid := EngineConfig.validate_eq_ok_iff.1 h
  obtain ⟨settings, hsettings⟩ := hvalid.breaker
  obtain ⟨r, hr⟩ := hvalid.retry
  obtain ⟨period, hperiod⟩ := hvalid.retention
  unfold build
  rw [h, hstorage, hsettings, hr, hperiod]
  exact ⟨_, rfl⟩

/-- The workers of an engine execute jobs with the registry that the settings give. -/
theorem runner_of_build (h : build config parts = .ok e) :
    ∃ r, config.retryRegistry = .ok r ∧
      e.pool.runner =
        Execution.iterate { tasks := parts.tasks, retries := r, env := parts.env } := by
  obtain ⟨⟨⟩, -, h⟩ := bind_eq_ok.1 h
  cases hstorage : parts.storage with
  | none =>
    rw [hstorage] at h
    cases h
  | some backend =>
    rw [hstorage] at h
    obtain ⟨settings, -, h⟩ := bind_eq_ok.1 h
    obtain ⟨r, hr, h⟩ := bind_eq_ok.1 h
    obtain ⟨period, -, h⟩ := bind_eq_ok.1 h
    obtain rfl := Except.ok.inj h
    exact ⟨r, hr, rfl⟩

/-- With a storage, an engine is built if its settings are valid, and otherwise the error is what is
wrong with them first. The workers of an engine that was built use a registry that offers the
strategies listed in the settings and no others: the default is among them, each listed name is
answered with its strategy and every other with the default, and the names are the listed ones in
increasing order, each of them once. -/
theorem built_iff_valid (config : EngineConfig) (parts : EngineParts) {backend : Backend}
    (hstorage : parts.storage = some backend) :
    ((∃ e, build config parts = .ok e) ↔ config.validate = .ok ()) ∧
    (∀ error, build config parts = .error error ↔ config.validate = .error error) ∧
    ∀ e, build config parts = .ok e → ∃ r, config.retryRegistry = .ok r ∧ r.Offers config.retry ∧
      e.pool.runner =
        Execution.iterate { tasks := parts.tasks, retries := r, env := parts.env } := by
  refine ⟨⟨?valid, exists_build hstorage⟩, fun error => ⟨?refused, build_of_invalid⟩, ?offers⟩
  case valid =>
    rintro ⟨e, he⟩
    exact validate_of_build he
  case refused =>
    intro hrefused
    cases hvalidate : config.validate with
    | error first =>
      rw [build_of_invalid hvalidate, Except.error.injEq] at hrefused
      rw [hrefused]
    | ok =>
      obtain ⟨e, he⟩ := exists_build hstorage hvalidate
      rw [he] at hrefused
      cases hrefused
  case offers =>
    intro e he
    obtain ⟨r, hr, hrunner⟩ := runner_of_build he
    exact ⟨r, hr, EngineConfig.offers_of_retryRegistry hr, hrunner⟩

/-- Settings that list one strategy twice, and another one that is the default. -/
def repetitiveConfig : EngineConfig where
  retry := {
    defaultStrategy := "constant"
    strategies := ["squared", "constant", "squared"]
    constantDelay := .ofSecs 7 }
  logging := { level := "info" }

/-- The registry has two names, and a task that names a third strategy gets the default. -/
theorem repetitive_built : ∃ e r,
    build repetitiveConfig { storage := some {}, now := .epoch } = .ok e ∧
      r.Offers repetitiveConfig.retry ∧
      e.pool.runner = Execution.iterate { retries := r } ∧
      r.names = ["constant", "squared"] ∧
      r.resolve (some "linear") = .constant (.ofSecs 7) := by
  have hvalid : repetitiveConfig.validate = .ok () := by rfl
  obtain ⟨hbuilt, -, hoffers⟩ :=
    built_iff_valid repetitiveConfig { storage := some {}, now := .epoch } rfl
  obtain ⟨e, he⟩ := hbuilt.2 hvalid
  obtain ⟨r, hr, hregistry, hrunner⟩ := hoffers e he
  have hnames : repetitiveConfig.retryRegistry.toOption.map RetryRegistry.names =
      some ["constant", "squared"] := by rfl
  rw [hr] at hnames
  refine ⟨e, r, he, hregistry, hrunner, Option.some.inj hnames, ?_⟩
  rw [hregistry.resolve_unlisted "linear" (by decide)]
  exact hregistry.provides_default.unique
    ⟨rfl, fun _ hdelay => (RetryStrategy.constant.inj hdelay).symm⟩

end JobEngine.Engine
