-- SUMMARY: Whoever runs tasks in virtual time changes their state by turns of tasks and nothing else.
import JobEngine.VirtualTime

/-!
# Turns of tasks

Time jumps from alarm to alarm, and tasks are carried on in rounds, but all that ever happens to the
state of the tasks is that one of them takes a turn. So what holds after turns of any tasks at any
times holds after every wait.
-/

namespace JobEngine.VirtualTime

variable {ρ σ : Type} {poll : Poll ρ σ} {s t u : σ}

/-- Tasks take turns, each at some time. -/
def takeTurns (poll : Poll ρ σ) (s : σ) (l : List (ρ × Nat)) : σ :=
  l.foldl (fun s r => (poll r.1 r.2 s).2) s

/-- Some turns of tasks lead from `s` to `t`. -/
def ByTurns (poll : Poll ρ σ) (s t : σ) : Prop := ∃ l, t = takeTurns poll s l

theorem ByTurns.refl (s : σ) : ByTurns poll s s := ⟨[], rfl⟩

theorem ByTurns.turn (r : ρ) (now : Nat) : ByTurns poll s (poll r now s).2 := ⟨[(r, now)], rfl⟩

theorem ByTurns.trans (h : ByTurns poll s t) (h' : ByTurns poll t u) : ByTurns poll s u := by
  obtain ⟨l, rfl⟩ := h
  obtain ⟨m, rfl⟩ := h'
  exact ⟨l ++ m, List.foldl_append.symm⟩

/-- What holds between the states before and after a turn holds between those of many turns. -/
theorem ByTurns.lift {R : σ → σ → Prop} (hrefl : ∀ s, R s s)
    (htrans : ∀ {s t u}, R s t → R t u → R s u) (hturn : ∀ r now s, R s (poll r now s).2)
    (h : ByTurns poll s t) : R s t := by
  obtain ⟨l, rfl⟩ := h
  induction l generalizing s with
  | nil => exact hrefl s
  | cons r rest ih => exact htrans (hturn r.1 r.2 s) ih

theorem byTurns_turns (fuel : Nat) (r : ρ) (now : Nat) (s : σ) :
    ByTurns poll s (turns poll fuel r now s).2 := by
  induction fuel generalizing s with
  | zero => exact .refl s
  | succ fuel ih =>
    have hturn : ByTurns poll s (poll r now s).2 := .turn r now
    simp only [turns]
    split
    · rename_i t ht
      rw [ht] at hturn
      exact hturn.trans (ih t)
    · exact hturn

variable [DecidableEq ρ]

theorem byTurns_visit (fuel : Nat) (r : ρ) (x : VirtualTime ρ) (s : σ) :
    ByTurns poll s (visit poll fuel r x s).2 := by
  have hturns : ByTurns poll s (turns poll fuel r x.now s).2 := byTurns_turns fuel r x.now s
  rcases h : turns poll fuel r x.now s with ⟨alarm | _ | _, t⟩ <;>
    simpa only [visit, h] using hturns

theorem byTurns_round (fuel : Nat) (awaited : Option ρ) (tasks : List ρ) (x : VirtualTime ρ)
    (s : σ) : ByTurns poll s (round poll fuel awaited tasks x s).2 := by
  induction tasks generalizing x s with
  | nil => exact .refl s
  | cons r rest ih =>
    simp only [round]
    split
    · exact byTurns_visit fuel r x s
    · exact (byTurns_visit fuel r x s).trans (ih _ _)

theorem byTurns_proceed (turnLimit : Nat) (g : Goal ρ σ) (fuel : Nat) (x : VirtualTime ρ) (s : σ) :
    ByTurns poll s (proceed poll turnLimit g fuel x s).2 := by
  induction fuel generalizing x s with
  | zero => exact .refl s
  | succ fuel ih =>
    simp only [proceed]
    split
    · exact .refl s
    · split
      · exact .refl s
      · exact .refl s
      · split
        · exact .refl s
        · exact (byTurns_round ..).trans (ih _ _)

theorem byTurns_wait (g : Goal ρ σ) (x : VirtualTime ρ) (s : σ) :
    ByTurns poll s (wait poll g x s).2 := by
  unfold wait
  split
  · exact .refl s
  · exact (byTurns_round ..).trans (byTurns_proceed ..)

end JobEngine.VirtualTime
