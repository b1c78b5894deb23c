-- SUMMARY: Which settings are valid, and what the registry of their retry strategies holds.
import JobEngine.Config.Basic

/-!
# Settings and what they give

Settings are valid just when everything that an engine derives from them can be derived. They list
retry strategies by name, in any order and perhaps one of them twice, and name a default. The
registry that they give holds each listed name once and in order, and it answers every name: a
listed one with its strategy, any other with the default, which is listed.
-/

namespace JobEngine

/-- What came of a check that went on. -/
theorem bind_eq_ok {ε α β : Type} {x : Except ε α} {k : α → Except ε β} {b : β} :
    (x >>= k) = .ok b ↔ ∃ a, x = .ok a ∧ k a = .ok b := by
  cases x with
  | error err => exact ⟨nofun, fun ⟨_, h, _⟩ => nomatch h⟩
  | ok a => exact ⟨fun h => ⟨a, rfl, h⟩, fun ⟨_, rfl, h⟩ => h⟩

/-! ## Strategies by name -/

/-- In these settings `s` goes by `name`. The constant strategy has the delay that is set. -/
structure RetryConfig.Provides (c : RetryConfig) (name : String) (s : RetryStrategy) : Prop where
  name_eq : s.name = name
  delay_eq : ∀ delay, s = .constant delay → delay = c.constantDelay

theorem RetryConfig.provides_iff {c : RetryConfig} {name : String} {s : RetryStrategy} :
    c.Provides name s ↔ RetryStrategy.bundled? name c.constantDelay = some s := by
  constructor
  · rintro ⟨rfl, hdelay⟩
    cases s with
    | constant delay => rw [hdelay delay rfl]; rfl
    | linear => rfl
    | squared => rfl
    | jitter => rfl
  · intro h
    unfold RetryStrategy.bundled? at h
    split at h <;> cases h <;> exact ⟨rfl, by simp⟩

/-- A name stands for one strategy at most. -/
theorem RetryConfig.Provides.unique {c : RetryConfig} {name : String} {s t : RetryStrategy}
    (hs : c.Provides name s) (ht : c.Provides name t) : s = t :=
  Option.some.inj ((provides_iff.1 hs).symm.trans (provides_iff.1 ht))

namespace EngineConfig

variable {c : EngineConfig}

theorem strategy_eq_ok_iff {name : String} {s : RetryStrategy} :
    c.strategy name = .ok s ↔ c.retry.Provides name s := by
  rw [RetryConfig.provides_iff, strategy]
  split
  · rename_i t ht
    rw [ht, Except.ok.injEq, Option.some.injEq]
  · rename_i hnone
    rw [hnone]
    exact ⟨nofun, nofun⟩

/-- Names that are all known stand for strategies that go by them. -/
theorem provides_of_mapM_strategy {names : List String} {l : List RetryStrategy}
    (h : names.mapM c.strategy = .ok l) :
    l.map RetryStrategy.name = names ∧ ∀ s ∈ l, c.retry.Provides s.name s := by
  induction names generalizing l with
  | nil =>
    obtain rfl := Except.ok.inj h
    exact ⟨rfl, nofun⟩
  | cons name rest ih =>
    rw [List.mapM_cons] at h
    obtain ⟨s, hs, h⟩ := bind_eq_ok.1 h
    obtain ⟨m, hm, h⟩ := bind_eq_ok.1 h
    obtain rfl := Except.ok.inj h
    obtain ⟨hnames, hprovides⟩ := ih hm
    have hs := strategy_eq_ok_iff.1 hs
    refine ⟨by rw [List.map_cons, hs.name_eq, hnames], fun t ht => ?_⟩
    rcases List.mem_cons.1 ht with rfl | ht
    · rwa [hs.name_eq]
    · exact hprovides t ht

end EngineConfig

/-! ## Registries -/

namespace RetryRegistry

variable {c : RetryConfig} {l : List RetryStrategy} {r : RetryRegistry} {name : String}
  {s : RetryStrategy}

/-- The registry `r` offers what the settings `c` list, and nothing else. -/
structure Offers (r : RetryRegistry) (c : RetryConfig) : Prop where
  defaultName : r.defaultName = c.defaultStrategy
  /-- The look-up of the default name finds the default. -/
  default_found : r.get? r.defaultName = some r.default
  default_listed : c.defaultStrategy ∈ c.strategies
  provides_default : c.Provides c.defaultStrategy r.default
  resolve_none : r.resolve none = r.default
  resolve_listed : ∀ name ∈ c.strategies, c.Provides name (r.resolve (some name))
  resolve_unlisted : ∀ name ∉ c.strategies, r.resolve (some name) = r.default
  names_increasing : r.names.Pairwise (· < ·)
  mem_names : ∀ name, name ∈ r.names ↔ name ∈ c.strategies

theorem build_eq_ok {defaultName : String} (h : build l defaultName = .ok r) :
    r.strategies = byName l ∧ r.defaultName = defaultName := by
  unfold build at h
  split at h
  · cases h
  · split at h
    · cases h
      exact ⟨rfl, rfl⟩
    · cases h

theorem get?_defaultName (r : RetryRegistry) : r.get? r.defaultName = some r.default :=
  (Option.some_get r.default_isSome).symm

theorem get?_byName (h : (byName l).get? name = some s) : s ∈ l ∧ s.name = name := by
  rw [byName, Table.get?_ofList] at h
  obtain ⟨e, he, rfl⟩ := Option.map_eq_some_iff.1 h
  obtain ⟨t, ht, rfl⟩ := List.mem_map.1 (List.mem_reverse.1 (List.mem_of_find?_eq_some he))
  exact ⟨ht, by simpa using List.find?_some he⟩

theorem exists_get?_byName (h : name ∈ l.map RetryStrategy.name) :
    ∃ s, (byName l).get? name = some s := by
  obtain ⟨t, ht, rfl⟩ := List.mem_map.1 h
  have hfound : (((l.map fun s => (s.name, s)).reverse).find? fun e => e.1 = t.name).isSome :=
    List.find?_isSome.2 ⟨(t.name, t), List.mem_reverse.2 (List.mem_map_of_mem ht), by simp⟩
  obtain ⟨e, he⟩ := Option.isSome_iff_exists.1 hfound
  exact ⟨e.2, by rw [byName, Table.get?_ofList, he, Option.map_some]⟩

theorem mem_names_byName (h : r.strategies = byName l) :
    name ∈ r.names ↔ name ∈ l.map RetryStrategy.name := by
  rw [names, Table.mem_keys, h]
  constructor
  · rintro ⟨s, hs⟩
    obtain ⟨hmem, rfl⟩ := get?_byName hs
    exact List.mem_map_of_mem hmem
  · exact exists_get?_byName

theorem resolve_of_get? (h : r.get? name = some s) : r.resolve (some name) = s := by
  simp only [resolve, Option.bind_some, h, Option.getD_some]

theorem resolve_of_not_mem (h : name ∉ r.names) : r.resolve (some name) = r.default := by
  have hnone : r.get? name = none :=
    Option.eq_none_iff_forall_ne_some.2 fun s hs => h (Table.mem_keys.2 ⟨s, hs⟩)
  simp only [resolve, Option.bind_some, hnone, Option.getD_none]

/-- Whoever registers the strategies that the settings list, with a default among them, offers what
the settings list. -/
theorem offers_of_build (hnames : l.map RetryStrategy.name = c.strategies)
    (hl : ∀ s ∈ l, c.Provides s.name s) (h : build l c.defaultStrategy = .ok r) :
    r.Offers c := by
  obtain ⟨hstrategies, hdefault⟩ := build_eq_ok h
  have hget {name : String} {s : RetryStrategy} (hs : r.get? name = some s) :
      name ∈ c.strategies ∧ c.Provides name s := by
    rw [get?, hstrategies] at hs
    obtain ⟨hmem, rfl⟩ := get?_byName hs
    exact ⟨hnames ▸ List.mem_map_of_mem hmem, hl s hmem⟩
  have hmem (name : String) : name ∈ r.names ↔ name ∈ c.strategies := by
    rw [mem_names_byName hstrategies, hnames]
  have hfound := r.get?_defaultName
  obtain ⟨hlisted, hprovides⟩ := hget hfound
  rw [hdefault] at hlisted hprovides
  exact {
    defaultName := hdefault
    default_found := hfound
    default_listed := hlisted
    provides_default := hprovides
    resolve_none := rfl
    resolve_listed := fun name hname => by
      obtain ⟨s, hs⟩ := Table.mem_keys.1 ((hmem name).2 hname)
      rw [resolve_of_get? hs]
      exact (hget hs).2
    resolve_unlisted := fun name hname => resolve_of_not_mem (mt (hmem name).1 hname)
    names_increasing := List.pairwise_map.2 r.strategies.sorted
    mem_names := hmem }

end RetryRegistry

namespace EngineConfig

variable {c : EngineConfig}

theorem offers_of_retryRegistry {r : RetryRegistry} (h : c.retryRegistry = .ok r) :
    r.Offers c.retry := by
  obtain ⟨l, hl, hbuild⟩ := bind_eq_ok.1 h
  obtain ⟨hnames, hprovides⟩ := provides_of_mapM_strategy hl
  exact RetryRegistry.offers_of_build hnames hprovides hbuild

/-! ## Validation -/

/-- An engine can run with these settings. -/
structure Valid (c : EngineConfig) : Prop where
  breaker : ∃ settings, c.breakerSettings = .ok settings
  concurrency : 0 < c.polling.concurrency
  polling : 0 < c.polling.interval.nanos
  scheduling : 0 < c.scheduling.interval.nanos
  janitor : 0 < c.scheduling.janitorBatchSize
  retry : ∃ r, c.retryRegistry = .ok r
  retention : ∃ period, c.retentionPeriod = .ok period

theorem requirePositive_eq_ok_iff {setting : String} {n : Nat} {u : Unit} :
    requirePositive setting n = .ok u ↔ 0 < n := by
  unfold requirePositive
  split
  · rename_i hzero
    subst hzero
    exact ⟨nofun, nofun⟩
  · rename_i hne
    exact ⟨fun _ => Nat.pos_of_ne_zero hne, fun _ => rfl⟩

theorem validate_eq_ok_iff : c.validate = .ok () ↔ c.Valid := by
  simp only [validate, bind_eq_ok, requirePositive_eq_ok_iff]
  constructor
  · rintro ⟨settings, hsettings, -, hconcurrency, -, hpolling, -, hscheduling, -, hjanitor, r, hr,
      period, hperiod, -⟩
    exact ⟨⟨settings, hsettings⟩, hconcurrency, hpolling, hscheduling, hjanitor, ⟨r, hr⟩,
      ⟨period, hperiod⟩⟩
  · rintro ⟨⟨settings, hsettings⟩, hconcurrency, hpolling, hscheduling, hjanitor, ⟨r, hr⟩,
      ⟨period, hperiod⟩⟩
    exact ⟨settings, hsettings, (), hconcurrency, (), hpolling, (), hscheduling, (), hjanitor, r, hr,
      period, hperiod, rfl⟩

end EngineConfig

end JobEngine
