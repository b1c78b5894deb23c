-- SUMMARY: The engine's commands and iterations are runs of acts.
import JobEngine.Proofs.Interleaving.Change

/-!
# Commands as runs

A maintenance command makes its storage calls one by one, and so does a worker. Here the commands
that make several calls, and what a worker does with an outcome, are taken apart into acts, so that
what holds of all runs holds of every interleaving of their calls.
-/

namespace JobEngine.World

variable {x : World} {a : Act} {t : EngineState}

/-- Some run takes the engine of `x` to `t` and leaves the workers what they have in hand. -/
def Does (x : World) (t : EngineState) : Prop :=
  ∃ acts, Runs Possible x acts ∧ (x.afterAll acts).engine = t ∧ (x.afterAll acts).held = x.held

theorem Does.refl : x.Does x.engine := ⟨[], trivial, rfl, rfl⟩

theorem Does.cons (h : x.Possible a) (hheld : (x.after a).held = x.held)
    (hrest : (x.after a).Does t) : x.Does t := by
  obtain ⟨acts, hruns, hengine, hhands⟩ := hrest
  exact ⟨a :: acts, ⟨h, hruns⟩, hengine, hhands.trans hheld⟩

theorem Does.single (h : x.Possible a) (hheld : (x.after a).held = x.held)
    (ht : (x.after a).engine = t) : x.Does t :=
  .cons h hheld (ht ▸ .refl)

/-! ## Cron -/

theorem does_fireCrons (now : Instant) (crons : List CronDefinition) :
    x.Does (EngineState.fireCrons now crons x.engine).2 := by
  induction crons generalizing x with
  | nil => exact .refl
  | cons c rest ih =>
    simp only [EngineState.fireCrons]
    split
    · rename_i e _
      exact Does.cons (a := .other (x.engine.recordError (e.toError c.expression))) rfl rfl ih
    · rename_i next _
      have hfire : (x.after (.fire c now next)).engine = (x.engine.fireCron c now next).2 := rfl
      split
      · rename_i e s hs
        exact .single (a := .fire c now next) trivial rfl (by rw [hfire, hs])
      · rename_i s hs
        rw [hs] at hfire
        subst hfire
        exact .cons (a := .fire c now next) trivial rfl ih

/-- The cron command reads the definitions and fires them one by one. -/
theorem does_fireDueCrons : x.Does x.engine.fireDueCrons.2 := by
  simp only [EngineState.fireDueCrons, Backend.getCrons]
  rcases x.engine.guarded_perform .getCrons (fun s => (s.cronList, s)) with
    ⟨e, t, ht, hs, -⟩ | ⟨t, ht, hs, -⟩
  · rw [ht]
    exact .single (a := .other t) (congrArg Store.jobs hs) rfl rfl
  · rw [ht]
    exact .cons (a := .other t) (congrArg Store.jobs hs) rfl (does_fireCrons _ _)

/-! ## Janitor -/

theorem does_rescuePage (now : Instant) (page : List Job) (hseen : ∀ j ∈ page, j ∈ x.seen)
    (kept : Nat) : x.Does (EngineState.rescuePage now page kept x.engine).2 := by
  induction page generalizing x kept with
  | nil => exact Does.refl
  | cons j rest ih =>
    have hj : x.Possible (.examine now j) := hseen j List.mem_cons_self
    -- What is kept does not matter to the engine, so the act of one job may count from zero.
    have hfirst : (EngineState.rescuePage now [j] kept x.engine).2 =
        (x.after (.examine now j)).engine := by
      change _ = (EngineState.rescuePage now [j] 0 x.engine).2
      simp only [EngineState.rescuePage]
      split
      · split <;> rfl
      · rfl
    rw [EngineState.rescuePage_cons]
    split
    · rename_i e s hs
      rw [hs] at hfirst
      exact Does.single hj rfl hfirst.symm
    · rename_i kept' s hs
      rw [hs] at hfirst
      subst hfirst
      have hrest : ∀ k ∈ rest, k ∈ (x.after (.examine now j)).seen := fun k hk =>
        hseen k (List.mem_cons_of_mem _ hk)
      exact Does.cons hj rfl (ih hrest kept')

theorem does_rescuePages (now : Instant) (batch fuel kept : Nat) :
    x.Does (EngineState.rescuePages now batch fuel kept x.engine).2 := by
  induction fuel generalizing x kept with
  | zero => exact .refl
  | succ fuel ih =>
    have hread : (x.after (.read ⟨kept, batch⟩)).held = x.held := rfl
    simp only [EngineState.rescuePages]
    split
    · rename_i e s hs
      exact .single (a := .read ⟨kept, batch⟩) trivial hread (by simp [after, perform, hs])
    · rename_i page s hs
      refine .cons (a := .read ⟨kept, batch⟩) trivial hread ?_
      have hengine : (x.after (.read ⟨kept, batch⟩)).engine = s := by simp [after, perform, hs]
      have hseen : ∀ j ∈ page, j ∈ (x.after (.read ⟨kept, batch⟩)).seen := by
        intro j hj
        refine List.mem_append_right _ ?_
        rwa [World.page, hs]
      obtain ⟨acts, hruns, hpage, hheld⟩ := does_rescuePage now page hseen kept
      rw [hengine] at hpage
      split
      · rename_i e t ht
        exact ⟨acts, hruns, by rw [hpage, ht], hheld⟩
      · rename_i kept' t ht
        rw [ht] at hpage
        split
        · exact ⟨acts, hruns, hpage, hheld⟩
        · obtain ⟨acts', hruns', hengine', hheld'⟩ := @ih ((x.after _).afterAll acts) kept'
          rw [hpage] at hengine'
          exact ⟨acts ++ acts', runs_append.2 ⟨hruns, hruns'⟩, by rw [afterAll_append, hengine'],
            by rw [afterAll_append, hheld', hheld]⟩

/-- The janitor command reads pages and examines their jobs one by one, so `sweep` stands for a run
of `read` and `examine` that nothing interrupts. -/
theorem does_rescueStale (batch : Nat) : x.Does (EngineState.rescueStale batch x.engine).2 :=
  does_rescuePages _ _ _ _

/-! ## Workers -/

/-- A worker that settles the outcome of its attempt reports it and then stores it. -/
theorem settle_runs {w : Nat} {j : Job} (hj : x.held w = some j) (exec : Execution)
    (result : TaskResult) (elapsed : Nat) :
    ∃ acts, Runs Possible x acts ∧
      (x.afterAll acts).engine = exec.settle j result elapsed x.engine ∧
      (x.afterAll acts).held w = none := by
  let report : EngineState := { x.engine with
    metrics := x.engine.metrics.recordExecution j.handler (Execution.outcomeName result).name
      (.ofMillis elapsed) }
  have hheld : (x.after (.other report)).held w = some j := hj
  cases result with
  | ok value =>
    refine ⟨[.other report, .succeed w], ⟨rfl, trivial, trivial⟩, ?_, ?_⟩
    · simp only [afterAll, List.foldl, after, perform, hj]
      rfl
    · exact held_of_relieved rfl
  | error e =>
    refine ⟨[.other report, .fail w e (exec.strategyOf j)], ⟨rfl, trivial, trivial⟩, ?_, ?_⟩
    · simp only [afterAll, List.foldl, after, perform, hj]
      rfl
    · exact held_of_relieved rfl

end JobEngine.World
