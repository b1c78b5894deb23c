-- SUMMARY: Runs of the cron command with surroundings that may change at every call, and what they store and tell.
import JobEngine.Proofs.Engine.Records
import JobEngine.Proofs.Store.Definitions

/-!
# Cron runs

A cron run lets the due definitions take their turns. A turn makes two storage calls: the first one
moves the definition on, the second one stores the derived job. Before each call the surroundings may
change, so each may fail or be refused for reasons of its own, and then the run ends. A run therefore
fires the first few of the definitions that can be moved on. Of the next one it may have moved the
definition on without storing the job.
-/

namespace JobEngine

namespace EngineState

variable {s t u : EngineState} {now : Instant} {c : CronDefinition} {crons : List CronDefinition}
  {r : Except EngineError Unit}

/-! ## Calls of a cron run -/

/-- What the surroundings leave alone between two calls of a run: what the storage holds, which
identifiers it gives next, and what was told. -/
structure Lull (s t : EngineState) : Prop where
  store : t.store = s.store
  nextId : t.backend.nextId = s.backend.nextId
  events : t.events = s.events

theorem Lull.refl (s : EngineState) : Lull s s := ⟨rfl, rfl, rfl⟩

theorem Lull.trans (h : Lull s t) (h' : Lull t u) : Lull s u :=
  ⟨h'.store.trans h.store, h'.nextId.trans h.nextId, h'.events.trans h.events⟩

theorem getCrons_cases {answer : Except EngineError (List CronDefinition)}
    (h : s.guarded (·.getCrons) = (answer, t)) :
    Lull s t ∧ t.now = s.now ∧ ∀ crons, answer = .ok crons → crons = s.store.cronList := by
  have hevents := guarded_events h
  rcases s.guarded_perform .getCrons (fun s => (s.cronList, s)) with
    ⟨e, u, hu, hs, hn, hi⟩ | ⟨u, hu, hs, hn, hi⟩
  · obtain ⟨rfl, rfl⟩ := Prod.mk.inj (h.symm.trans hu)
    exact ⟨⟨hs, hi, hevents⟩, hn, by simp⟩
  · obtain ⟨rfl, rfl⟩ := Prod.mk.inj (h.symm.trans hu)
    exact ⟨⟨hs, hi, hevents⟩, hn, fun crons hcrons => (Except.ok.inj hcrons).symm⟩

theorem saveCron_error {e : EngineError} (h : s.guarded (·.saveCron c) = (.error e, t)) :
    Lull s t := by
  have hevents := guarded_events h
  rcases s.guarded_perform .saveCron (fun s => ((), s.saveCron c)) with
    ⟨e', u, hu, hs, -, hi⟩ | ⟨u, hu, -⟩
  · obtain ⟨-, rfl⟩ := Prod.mk.inj (h.symm.trans hu)
    exact ⟨hs, hi, hevents⟩
  · obtain ⟨he, -⟩ := Prod.mk.inj (h.symm.trans hu)
    cases he

theorem saveCron_ok (h : s.guarded (·.saveCron c) = (.ok (), t)) :
    t.store = s.store.saveCron c ∧ t.backend.nextId = s.backend.nextId ∧ t.events = s.events := by
  have hevents := guarded_events h
  rcases s.guarded_perform .saveCron (fun s => ((), s.saveCron c)) with
    ⟨e, u, hu, -⟩ | ⟨u, hu, hs, -, hi⟩
  · obtain ⟨he, -⟩ := Prod.mk.inj (h.symm.trans hu)
    cases he
  · obtain ⟨-, rfl⟩ := Prod.mk.inj (h.symm.trans hu)
    exact ⟨hs, hi, hevents⟩

theorem saveNewJob_error {draft : JobId → Job} {e : EngineError}
    (h : s.guarded (·.saveNewJob draft) = (.error e, t)) :
    t.store = s.store ∧ t.events = s.events := by
  refine ⟨?_, guarded_events h⟩
  rcases s.guarded_saveNewJob draft with ⟨e', u, hu, hs⟩ | ⟨u, hu, -⟩
  · obtain ⟨-, rfl⟩ := Prod.mk.inj (h.symm.trans hu)
    exact hs
  · obtain ⟨he, -⟩ := Prod.mk.inj (h.symm.trans hu)
    cases he

theorem saveNewJob_ok {draft : JobId → Job} {j : Job}
    (h : s.guarded (·.saveNewJob draft) = (.ok j, t)) :
    j = draft s.nextJobId ∧ t.store = s.store.saveJob j ∧
      t.backend.nextId = s.backend.nextId + 1 ∧ t.events = s.events := by
  have hevents := guarded_events h
  rcases s.guarded_saveNewJob draft with ⟨e, u, hu, -⟩ | ⟨u, hu, hs, hi⟩
  · obtain ⟨he, -⟩ := Prod.mk.inj (h.symm.trans hu)
    cases he
  · obtain ⟨hj, rfl⟩ := Prod.mk.inj (h.symm.trans hu)
    obtain rfl := Except.ok.inj hj
    exact ⟨rfl, hs, hi, hevents⟩

/-! ## Turns -/

/-- The definitions that are left take their turns at time `now`, and before each call of a turn the
surroundings may change. -/
inductive Turns (now : Instant) :
    List CronDefinition → EngineState → Except EngineError Unit → EngineState → Prop where
  | finished {s : EngineState} : Turns now [] s (.ok ()) s
  /-- The expression gives no next run. -/
  | skipped {c : CronDefinition} {rest : List CronDefinition} {s u t : EngineState}
    {r : Except EngineError Unit} (unset : c.movedOn? now = none) (lull : Lull s u)
    (turns : Turns now rest u r t) : Turns now (c :: rest) s r t
  /-- The call that moves the definition on fails or is refused. -/
  | unmoved {c c' : CronDefinition} {rest : List CronDefinition} {s u t : EngineState}
    {e : EngineError} (moved : c.movedOn? now = some c') (lull : Lull s u)
    (move : u.guarded (·.saveCron c') = (.error e, t)) : Turns now (c :: rest) s (.error e) t
  /-- The call that stores the job fails or is refused. -/
  | lost {c c' : CronDefinition} {rest : List CronDefinition} {s u v w t : EngineState}
    {e : EngineError} (moved : c.movedOn? now = some c') (lull : Lull s u)
    (move : u.guarded (·.saveCron c') = (.ok (), v)) (pause : Lull v w)
    (derive : w.guarded (·.saveNewJob fun id => c'.toJob id now) = (.error e, t)) :
    Turns now (c :: rest) s (.error e) t
  | fired {c c' : CronDefinition} {rest : List CronDefinition} {s u v w x t : EngineState} {j : Job}
    {r : Except EngineError Unit} (moved : c.movedOn? now = some c') (lull : Lull s u)
    (move : u.guarded (·.saveCron c') = (.ok (), v)) (pause : Lull v w)
    (derive : w.guarded (·.saveNewJob fun id => c'.toJob id now) = (.ok j, x))
    (turns : Turns now rest (x.dispatch (.cronScheduled c' j)) r t) : Turns now (c :: rest) s r t

/-- A run of the cron command: the definitions are read, and the due ones take their turns. -/
inductive CronRun : EngineState → Except EngineError Unit → EngineState → Prop where
  | unread {s u t : EngineState} {e : EngineError} (lull : Lull s u)
    (read : u.guarded (·.getCrons) = (.error e, t)) : CronRun s (.error e) t
  | read {s u v t : EngineState} {crons : List CronDefinition} {r : Except EngineError Unit}
    (lull : Lull s u) (read : u.guarded (·.getCrons) = (.ok crons, v))
    (turns : Turns s.now (crons.filter (·.isDue s.now)) v r t) : CronRun s r t

theorem turns_fireCrons (now : Instant) (crons : List CronDefinition) (s : EngineState) :
    Turns now crons s (fireCrons now crons s).1 (fireCrons now crons s).2 := by
  induction crons generalizing s with
  | nil => exact .finished
  | cons c rest ih =>
    unfold fireCrons
    split
    · rename_i e unset
      have lull : Lull s (s.recordError (e.toError c.expression)) := ⟨rfl, rfl, rfl⟩
      exact .skipped (CronDefinition.movedOn?_of_error unset) lull (ih _)
    · rename_i next hnext
      have moved := CronDefinition.movedOn?_of_ok hnext
      cases move : s.guarded (·.saveCron { c with nextRunAt := some next }) with
      | mk answer v =>
        cases answer with
        | error e =>
          simp only [fireCron, move]
          exact .unmoved moved (.refl s) move
        | ok a =>
          cases derive : v.guarded
              (·.saveNewJob fun id => { c with nextRunAt := some next }.toJob id now) with
          | mk answer x =>
            cases answer with
            | error e =>
              simp only [fireCron, move, derive]
              exact .lost moved (.refl s) move (.refl v) derive
            | ok j =>
              simp only [fireCron, move, derive]
              exact .fired moved (.refl s) move (.refl v) derive (ih _)

/-- The cron command is a run whose surroundings do not change. -/
theorem cronRun_fireDueCrons (s : EngineState) : CronRun s s.fireDueCrons.1 s.fireDueCrons.2 := by
  unfold fireDueCrons
  split
  · rename_i e t read
    exact .unread (.refl s) read
  · rename_i crons t read
    obtain ⟨-, hnow, -⟩ := getCrons_cases read
    rw [hnow]
    exact .read (.refl s) read (turns_fireCrons _ _ _)

/-! ## What a run stores and tells -/

/-- From `s` to `t` the definitions `done` were fired, and `lost` was moved on without a job. -/
structure Fires (now : Instant) (done : List CronDefinition) (lost : Option CronDefinition)
    (s t : EngineState) : Prop where
  store : t.store = lost.elim (s.store.fire (Firing.ofList now s.backend.nextId done))
    (s.store.fire (Firing.ofList now s.backend.nextId done)).saveCron
  events : t.events = s.events ++
    (Firing.ofList now s.backend.nextId done).map fun f => .cronScheduled f.1 f.2

/-- The call that would have stored the job of `c` failed or was refused, and that ended the run. -/
def Unstored (now : Instant) (c : CronDefinition) (r : Except EngineError Unit) (t : EngineState) :
    Prop :=
  ∃ (e : EngineError) (w : EngineState), r = .error e ∧
    w.guarded (·.saveNewJob fun id => c.toJob id now) = (.error e, t)

/-- How a run went over the definitions `movable`: it fired `done`, may have moved `lost` on without a
job, and left `rest` alone. Only a run that was ended by a failure leaves anything. -/
structure Course (now : Instant) (movable : List CronDefinition) (s : EngineState)
    (r : Except EngineError Unit) (t : EngineState) (done : List CronDefinition)
    (lost : Option CronDefinition) (rest : List CronDefinition) : Prop where
  split : movable = done ++ (lost.toList ++ rest)
  fires : Fires now done lost s t
  unstored : ∀ c, lost = some c → Unstored now c r t
  through : r = .ok () → lost = none ∧ rest = []

theorem Lull.fires {done : List CronDefinition} {lost : Option CronDefinition} (h : Lull s u)
    (hu : Fires now done lost u t) : Fires now done lost s t := by
  obtain ⟨hstore, hevents⟩ := hu
  rw [h.store, h.nextId] at hstore
  rw [h.events, h.nextId] at hevents
  exact ⟨hstore, hevents⟩

theorem Lull.fires_none (h : Lull s t) : Fires now [] none s t :=
  ⟨h.store, h.events.trans (List.append_nil _).symm⟩

/-- A definition that was moved on without a job. -/
theorem fires_lost (hstore : t.store = s.store.saveCron c) (hevents : t.events = s.events) :
    Fires now [] (some c) s t :=
  ⟨hstore, hevents.trans (List.append_nil _).symm⟩

/-- A definition that fires before the others do. -/
theorem Fires.cons {done : List CronDefinition} {lost : Option CronDefinition} {j : Job}
    (hjob : j = c.toJob s.nextJobId now) (hstore : u.store = (s.store.saveCron c).saveJob j)
    (hnext : u.backend.nextId = s.backend.nextId + 1)
    (hevents : u.events = s.events ++ [.cronScheduled c j]) (h : Fires now done lost u t) :
    Fires now (c :: done) lost s t := by
  obtain ⟨hrest, htold⟩ := h
  have hfirst : Firing.ofList now s.backend.nextId (c :: done) =
      (c, j) :: Firing.ofList now u.backend.nextId done := by
    rw [hnext, hjob]
    rfl
  constructor
  · rw [hrest, hstore, hfirst]
    rfl
  · rw [htold, hevents, hfirst, List.append_assoc]
    rfl

/-- A run whose first call fails, or that has nothing to do. -/
theorem Lull.course {l : List CronDefinition} (h : Lull s t) (hl : r = .ok () → l = []) :
    Course now l s r t [] none l where
  split := rfl
  fires := h.fires_none
  unstored := by
    intro c hc
    cases hc
  through := fun hr => ⟨rfl, hl hr⟩

/-- The definitions that can be moved on fire up to some point. -/
theorem Turns.course (h : Turns now crons s r t) :
    ∃ done lost rest, Course now (crons.filterMap (·.movedOn? now)) s r t done lost rest := by
  induction h with
  | @finished s => exact ⟨[], none, [], (Lull.refl s).course fun _ => rfl⟩
  | @skipped c rest s u t r unset lull turns ih =>
    obtain ⟨done, lost, left, hsplit, hfires, hlost, hend⟩ := ih
    rw [List.filterMap_cons_none unset]
    exact ⟨done, lost, left, hsplit, lull.fires hfires, hlost, hend⟩
  | @unmoved c c' rest s u t e moved lull move =>
    have hsame := lull.trans (saveCron_error move)
    exact ⟨[], none, _, hsame.course (by simp)⟩
  | @lost c c' rest s u v w t e moved lull move pause derive =>
    obtain ⟨hv, -, hve⟩ := saveCron_ok move
    obtain ⟨ht, hte⟩ := saveNewJob_error derive
    have hstore : t.store = s.store.saveCron c' := by rw [ht, pause.store, hv, lull.store]
    have hevents : t.events = s.events := by rw [hte, pause.events, hve, lull.events]
    rw [List.filterMap_cons_some moved]
    refine ⟨[], some c', rest.filterMap (·.movedOn? now), rfl, fires_lost hstore hevents, ?_, by simp⟩
    intro k hk
    obtain rfl := Option.some.inj hk
    exact ⟨e, w, rfl, derive⟩
  | @fired c c' rest s u v w x t j r moved lull move pause derive turns ih =>
    obtain ⟨done, lost, left, hsplit, hfires, hlost, hend⟩ := ih
    obtain ⟨hv, hvi, hve⟩ := saveCron_ok move
    obtain ⟨hj, hx, hxi, hxe⟩ := saveNewJob_ok derive
    have hid : w.backend.nextId = s.backend.nextId := by rw [pause.nextId, hvi, lull.nextId]
    have hjob : j = c'.toJob s.nextJobId now := by rw [hj, nextJobId, hid, nextJobId]
    have hevents : (x.dispatch (.cronScheduled c' j)).events =
        s.events ++ [.cronScheduled c' j] := by
      rw [dispatch, hxe, pause.events, hve, lull.events]
    have hstore : (x.dispatch (.cronScheduled c' j)).store = (s.store.saveCron c').saveJob j := by
      rw [← lull.store, ← hv, ← pause.store]
      exact hx
    have hnext : (x.dispatch (.cronScheduled c' j)).backend.nextId = s.backend.nextId + 1 := by
      rw [← hid]
      exact hxi
    rw [List.filterMap_cons_some moved, hsplit]
    exact ⟨c' :: done, lost, left, rfl, hfires.cons hjob hstore hnext hevents, hlost, hend⟩

/-- A run reads all definitions and fires some of those that can be moved on. -/
theorem CronRun.course (h : CronRun s r t) :
    ∃ done lost rest, Course s.now (s.store.movable s.now) s r t done lost rest := by
  cases h with
  | @unread u _ e lull read =>
    have hsame := lull.trans (getCrons_cases read).1
    exact ⟨[], none, _, hsame.course (by simp)⟩
  | @read u v _ crons _ lull read turns =>
    obtain ⟨hread, -, hcrons⟩ := getCrons_cases read
    obtain rfl := hcrons crons rfl
    obtain ⟨done, lost, rest, hsplit, hfires, hlost, hend⟩ := turns.course
    rw [lull.store] at hsplit
    exact ⟨done, lost, rest, hsplit, (lull.trans hread).fires hfires, hlost, hend⟩

end EngineState

end JobEngine
