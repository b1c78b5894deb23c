-- SUMMARY: What a storage call behind the breaker can come to, and when it cannot fail.
import JobEngine.Engine.State

/-!
# Guarded calls

Whatever plans, outages and the breaker do, a guarded call either fails and leaves the store as it
was, or does its work on the store and answers it. While the storage serves and the breaker is
closed it cannot fail.
-/

namespace JobEngine

/-- No plan has failures left. -/
def Backend.Faultless (b : Backend) : Prop := ∀ f ∈ b.faults, f.times = 0

namespace Backend

variable {α : Type} {b : Backend}

theorem consult_of_faultless {method : StorageMethod} {l : List Fault}
    (h : ∀ f ∈ l, f.times = 0) :
    (consult method l).1 = none ∧ ∀ f ∈ (consult method l).2, f.times = 0 := by
  induction l with
  | nil => simp [consult]
  | cons f rest ih =>
    have hf : f.times = 0 := h f List.mem_cons_self
    obtain ⟨hnone, hrest⟩ := ih fun g hg => h g (List.mem_cons_of_mem _ hg)
    have hcons : ∀ g : Fault, g.times = 0 → ∀ k ∈ g :: (consult method rest).2, k.times = 0 := by
      intro g hg k hk
      rcases List.mem_cons.1 hk with rfl | hk
      · exact hg
      · exact hrest k hk
    simp only [consult]
    split
    · exact ⟨hnone, hcons f hf⟩
    · split
      · exact ⟨hnone, hcons { f with skip := f.skip - 1 } hf⟩
      · rw [if_neg (by omega)]
        exact ⟨hnone, hcons f hf⟩

/-- What a call that reaches the storage can come to. -/
theorem reach_cases (b : Backend) (op : Store → α × Store) :
    (∃ e c, b.reach op = (.error e, c) ∧ c.store = b.store ∧ c.nextId = b.nextId) ∨
      ∃ c, b.reach op = (.ok (op b.store).1, c) ∧ c.store = (op b.store).2 ∧
        c.nextId = b.nextId := by
  simp only [reach]
  split
  · exact .inr ⟨_, rfl, rfl, rfl⟩
  · exact .inl ⟨_, _, rfl, rfl, rfl⟩

theorem perform_cases (b : Backend) (method : StorageMethod) (op : Store → α × Store) :
    (∃ e c, b.perform method op = (.error e, c) ∧ c.store = b.store ∧ c.nextId = b.nextId) ∨
      ∃ c, b.perform method op = (.ok (op b.store).1, c) ∧ c.store = (op b.store).2 ∧
        c.nextId = b.nextId := by
  simp only [perform, planned]
  split
  · rename_i c h
    obtain ⟨-, rfl⟩ := Prod.mk.inj h
    exact .inl ⟨_, _, rfl, rfl, rfl⟩
  · rename_i c h
    obtain ⟨-, rfl⟩ := Prod.mk.inj h
    exact reach_cases _ op

theorem perform_of_faultless (h : b.Faultless) (ha : b.available) (method : StorageMethod)
    (op : Store → α × Store) :
    ∃ c, b.perform method op = (.ok (op b.store).1, c) ∧ c.store = (op b.store).2 ∧
      c.Faultless ∧ c.available := by
  obtain ⟨hnone, hrest⟩ := @consult_of_faultless method _ h
  simp only [perform, planned, hnone, reach, ha, if_true]
  exact ⟨_, rfl, rfl, hrest, rfl⟩

/-- A new job gets the next identifier when it is saved. -/
theorem saveNewJob_cases (b : Backend) (draft : JobId → Job) :
    (∃ e c, b.saveNewJob draft = (.error e, c) ∧ c.store = b.store) ∨
      ∃ c, b.saveNewJob draft = (.ok (draft (Uuid.ofNat b.nextId)), c) ∧
        c.store = b.store.saveJob (draft (Uuid.ofNat b.nextId)) ∧ c.nextId = b.nextId + 1 := by
  simp only [saveNewJob, planned]
  split
  · rename_i c h
    obtain ⟨-, rfl⟩ := Prod.mk.inj h
    exact .inl ⟨_, _, rfl, rfl⟩
  · rename_i c h
    obtain ⟨-, rfl⟩ := Prod.mk.inj h
    simp only [reach]
    split
    · exact .inr ⟨_, rfl, rfl, rfl⟩
    · exact .inl ⟨_, _, rfl, rfl⟩

theorem saveNewJob_of_faultless (h : b.Faultless) (ha : b.available) (draft : JobId → Job) :
    ∃ c, b.saveNewJob draft = (.ok (draft (Uuid.ofNat b.nextId)), c) ∧
      c.store = b.store.saveJob (draft (Uuid.ofNat b.nextId)) ∧ c.nextId = b.nextId + 1 ∧
      c.Faultless ∧ c.available := by
  obtain ⟨hnone, hrest⟩ := @consult_of_faultless .saveJob _ h
  simp only [saveNewJob, planned, hnone, reach, ha, if_true]
  exact ⟨_, rfl, rfl, rfl, hrest, rfl⟩

end Backend

namespace Breaker

variable {b : Breaker}

theorem state_of_kind_closed (h : b.kind = .closed) : ∃ n, b.state = .closed n := by
  cases hs : b.state with
  | closed n => exact ⟨n, rfl⟩
  | opened t => simp [kind, hs, BreakerState.kind] at h
  | halfOpen n => simp [kind, hs, BreakerState.kind] at h

theorem probe_of_closed (h : b.kind = .closed) (now : Instant) : b.probe now = b := by
  obtain ⟨n, hn⟩ := state_of_kind_closed h
  cases b
  simp_all [probe, observe, BreakerState.next]

theorem kind_recordSuccess_of_closed (h : b.kind = .closed) : b.recordSuccess.kind = .closed := by
  obtain ⟨n, hn⟩ := state_of_kind_closed h
  simp [recordSuccess, observe, kind, hn, BreakerState.next, BreakerState.kind]

end Breaker

namespace EngineState

variable {α : Type} {s : EngineState}

/-- What the storage of the engine holds. -/
abbrev store (s : EngineState) : Store := s.backend.store

/-! ## Any state of the storage and the breaker -/

/-- A guarded call is refused, or it is made and its outcome is reported. Neither moves the clock.
-/
theorem guarded_cases (s : EngineState) (call : Backend → Except EngineError α × Backend) :
    (∃ e t, s.guarded call = (.error e, t) ∧ t.backend = s.backend ∧ t.now = s.now) ∨
      ∃ t, s.guarded call = ((call s.backend).1, t) ∧ t.backend = (call s.backend).2 ∧
        t.now = s.now := by
  simp only [guarded, available]
  split
  · rename_i t h
    obtain ⟨-, rfl⟩ := Prod.mk.inj h
    right
    simp only [applied, moveBreaker]
    split <;> rename_i hc <;> rw [hc] <;> exact ⟨_, rfl, rfl, rfl⟩
  · rename_i t h
    obtain ⟨-, rfl⟩ := Prod.mk.inj h
    exact .inl ⟨_, _, rfl, rfl, rfl⟩

/-- Events are dispatched between calls, never by a call. -/
theorem guarded_events {call : Backend → Except EngineError α × Backend} {r : Except EngineError α}
    {t : EngineState} (h : s.guarded call = (r, t)) : t.events = s.events := by
  simp only [guarded, available] at h
  split at h
  · rename_i u hu
    obtain ⟨-, rfl⟩ := Prod.mk.inj hu
    simp only [applied, moveBreaker] at h
    split at h <;> obtain ⟨-, rfl⟩ := Prod.mk.inj h <;> rfl
  · rename_i u hu
    obtain ⟨-, rfl⟩ := Prod.mk.inj hu
    obtain ⟨-, rfl⟩ := Prod.mk.inj h
    rfl

/-- A guarded call is made of moves of the breaker, a change of the storage or of the breaker's
counters, and at most one error. -/
theorem guarded_preserves {P : EngineState → EngineState → Prop}
    (htrans : ∀ {s t u}, P s t → P t u → P s u) (hmove : ∀ s f, P s (s.moveBreaker f))
    (hrest : ∀ (s : EngineState) backend breaker, P s { s with backend, breaker })
    (herror : ∀ s e, P s (s.recordError e)) (s : EngineState)
    (call : Backend → Except EngineError α × Backend) : P s (s.guarded call).2 := by
  have hprobe := hmove s (·.probe s.now)
  simp only [guarded, available]
  split
  · rename_i t h
    obtain ⟨-, rfl⟩ := Prod.mk.inj h
    refine htrans hprobe ?_
    simp only [applied]
    split
    · exact htrans (hrest _ _ _) (hmove _ _)
    · exact htrans (hrest _ _ _) (htrans (herror _ _) (hmove _ (·.recordFailure s.now)))
  · rename_i t h
    obtain ⟨-, rfl⟩ := Prod.mk.inj h
    exact htrans hprobe (htrans (hrest _ _ _) (herror _ _))

theorem foldl_dispatch_preserves {P : EngineState → EngineState → Prop} (hrefl : ∀ s, P s s)
    (htrans : ∀ {s t u}, P s t → P t u → P s u) (hdispatch : ∀ s e, P s (s.dispatch e))
    (event : α → EngineEvent) (l : List α) (s : EngineState) :
    P s (l.foldl (fun s a => s.dispatch (event a)) s) := by
  induction l generalizing s with
  | nil => exact hrefl s
  | cons a rest ih => exact htrans (hdispatch s (event a)) (ih _)

/-- A guarded call of a method fails and leaves the store as it was, or does its work. -/
theorem guarded_perform (s : EngineState) (method : StorageMethod) (op : Store → α × Store) :
    (∃ e t, s.guarded (·.perform method op) = (.error e, t) ∧ t.store = s.store ∧
        t.now = s.now ∧ t.backend.nextId = s.backend.nextId) ∨
      ∃ t, s.guarded (·.perform method op) = (.ok (op s.store).1, t) ∧
        t.store = (op s.store).2 ∧ t.now = s.now ∧ t.backend.nextId = s.backend.nextId := by
  rcases s.guarded_cases (·.perform method op) with ⟨e, t, h, hb, hn⟩ | ⟨t, h, hb, hn⟩
  · exact .inl ⟨e, t, h, by rw [store, hb], hn, by rw [hb]⟩
  · rcases s.backend.perform_cases method op with ⟨e, c, hc, hs, hi⟩ | ⟨c, hc, hs, hi⟩
    · rw [hc] at h hb
      exact .inl ⟨e, t, h, by rw [store, hb, hs], hn, by rw [hb, hi]⟩
    · rw [hc] at h hb
      exact .inr ⟨t, h, by rw [store, hb, hs], hn, by rw [hb, hi]⟩

theorem guarded_saveNewJob (s : EngineState) (draft : JobId → Job) :
    (∃ e t, s.guarded (·.saveNewJob draft) = (.error e, t) ∧ t.store = s.store) ∨
      ∃ t, s.guarded (·.saveNewJob draft) = (.ok (draft (Uuid.ofNat s.backend.nextId)), t) ∧
        t.store = s.store.saveJob (draft (Uuid.ofNat s.backend.nextId)) ∧
        t.backend.nextId = s.backend.nextId + 1 := by
  rcases s.guarded_cases (·.saveNewJob draft) with ⟨e, t, h, hb, -⟩ | ⟨t, h, hb, -⟩
  · exact .inl ⟨e, t, h, by rw [store, hb]⟩
  · rcases s.backend.saveNewJob_cases draft with ⟨e, c, hc, hs⟩ | ⟨c, hc, hs, hi⟩
    · rw [hc] at h hb
      exact .inl ⟨e, t, h, by rw [store, hb, hs]⟩
    · rw [hc] at h hb
      exact .inr ⟨t, h, by rw [store, hb, hs], by rw [hb, hi]⟩

/-! ## A storage that serves -/

/-- The storage is available, no planned failure is left, and the breaker is closed. -/
structure Serving (s : EngineState) : Prop where
  available : s.backend.available
  faultless : s.backend.Faultless
  closed : s.breaker.kind = .closed

theorem guarded_of_closed (h : s.breaker.kind = .closed)
    (call : Backend → Except EngineError α × Backend) : s.guarded call = s.applied call := by
  have hmove : s.moveBreaker (·.probe s.now) = s := by
    simp [moveBreaker, Breaker.probe_of_closed h, Breaker.movedTo?]
  have hpass : s.breaker.isAvailable = true := by simp [Breaker.isAvailable, h]
  simp only [guarded, available, hmove, hpass]

/-- While the storage serves, a call of a method does its work, and the storage goes on serving. -/
theorem Serving.perform (h : s.Serving) (method : StorageMethod) (op : Store → α × Store) :
    ∃ t, s.guarded (·.perform method op) = (.ok (op s.store).1, t) ∧ t.store = (op s.store).2 ∧
      t.now = s.now ∧ t.Serving := by
  obtain ⟨c, hc, hs, hf, ha⟩ := Backend.perform_of_faultless h.faultless h.available method op
  rw [guarded_of_closed h.closed]
  simp only [applied, hc]
  exact ⟨_, rfl, hs, rfl, ⟨ha, hf, Breaker.kind_recordSuccess_of_closed h.closed⟩⟩

theorem Serving.saveNewJob (h : s.Serving) (draft : JobId → Job) :
    ∃ t, s.guarded (·.saveNewJob draft) = (.ok (draft (Uuid.ofNat s.backend.nextId)), t) ∧
      t.now = s.now ∧ t.Serving := by
  obtain ⟨c, hc, -, -, hf, ha⟩ := Backend.saveNewJob_of_faultless h.faultless h.available draft
  rw [guarded_of_closed h.closed]
  simp only [applied, hc]
  exact ⟨_, rfl, rfl, ⟨ha, hf, Breaker.kind_recordSuccess_of_closed h.closed⟩⟩

end EngineState

end JobEngine
