-- SUMMARY: Loops that share a control begin bodies only as it admits, and rest between them.
import JobEngine.Loop.Group
import JobEngine.Proofs.Loop.Phases
import JobEngine.Proofs.Loop.Turns

/-!
# Loops that share a control

The members of a group take turns in any order, and between their turns the group may be paused,
resumed or interrupted, and others may change the state that the bodies work on. The log of such a
run has the marks of all members. The counters of the control are what the log counts; a body is
begun only while the flags and the limit admit it; and a loop that rests takes turns between bodies
and waits.
-/

namespace JobEngine

variable {ω : Type}

namespace LoopGroup

/-! ## Runs -/

/-- What may happen to a group. -/
inductive Act (ω : Type) where
  | pause
  | resume
  | interrupt
  /-- A member is carried over its next boundary. -/
  | turn (i now : Nat)
  /-- Others change the state. -/
  | around (state : ω)

/-- The group after an act. -/
def after (g : LoopGroup ω) : Act ω → LoopGroup ω
  | .pause => g.pause
  | .resume => g.resume
  | .interrupt => g.interrupt
  | .turn i now => (poll i now g).2
  | .around state => { g with state }

def afterAll (g : LoopGroup ω) (acts : List (Act ω)) : LoopGroup ω := acts.foldl after g

@[simp] theorem afterAll_cons (g : LoopGroup ω) (a : Act ω) (acts : List (Act ω)) :
    g.afterAll (a :: acts) = (g.after a).afterAll acts := rfl

/-- What the loops of a group see. -/
def shared (g : LoopGroup ω) : LoopShared ω := ⟨g.control, g.stats, g.state⟩

/-- What a member does in a turn. -/
def turnMarks (g : LoopGroup ω) (i now : Nat) : List LoopMark :=
  match g.members[i]? with
  | some (.looping loop phase) =>
    match phase.advance loop now g.shared with
    | some (next, _) => phase.marks g.control.interrupted next
    | none => []
  | some (.sleeping due _) => if due ≤ now then [.rested] else []
  | _ => []

/-- What members do in an act. -/
def marks (g : LoopGroup ω) : Act ω → List (Nat × LoopMark)
  | .turn i now => (g.turnMarks i now).map (i, ·)
  | _ => []

/-- What members do in a run, in order. -/
def log (g : LoopGroup ω) : List (Act ω) → List (Nat × LoopMark)
  | [] => []
  | a :: rest => g.marks a ++ (g.after a).log rest

/-- How many bodies were begun. -/
def bodies (log : List (Nat × LoopMark)) : Nat := (log.map (·.2)).count .begun

/-- How many waits were begun. -/
def rests (log : List (Nat × LoopMark)) : Nat := (log.map (·.2)).count .rested

/-- What member `i` did. -/
def marksOf (i : Nat) (log : List (Nat × LoopMark)) : List LoopMark :=
  (log.filter (·.1 = i)).map (·.2)

variable {g : LoopGroup ω} {a : Act ω} {acts : List (Act ω)} {i j now : Nat}
  {m m' : LoopMember ω}

/-! ## Turns -/

/-- A member goes on, with these marks, and leaves the control and the counters as they then stand. -/
inductive Moves (g : LoopGroup ω) (now : Nat) :
    LoopMember ω → List LoopMark → LoopMember ω → LoopControl → PollingStats → Prop where
  | begins {due : Nat} {loop : PollingLoop ω} :
    Moves g now (.delayed due loop) [] (.looping loop .gate) g.control g.stats
  | crosses {loop : PollingLoop ω} {phase next : LoopPhase ω} {t : LoopShared ω} {m' : LoopMember ω}
    (crossing : Crossing loop now g.shared phase next t)
    (place : next.isEnded = false ∧ m' = .looping loop next ∨ next.isEnded ∧ m' = .ended now) :
    Moves g now (.looping loop phase) (phase.marks g.control.interrupted next) m' t.control t.stats
  | sleeps {due interval : Nat} {rest : Rest} :
    Moves g now (.sleeping due interval) [.rested] (.resting rest)
      { g.control with waits := g.control.waits + 1 } g.stats
  | stays {rest : Rest} {m' : LoopMember ω} (place : m' = .ended now ∨ ∃ later, m' = .resting later) :
    Moves g now (.resting rest) [] m' g.control g.stats

/-- In a turn a member goes on, or nothing happens. -/
theorem turn_cases (g : LoopGroup ω) (i now : Nat) :
    ((poll i now g).2 = g ∧ g.turnMarks i now = []) ∨
      ∃ m m', g.members[i]? = some m ∧ (poll i now g).2.members = g.members.set i m' ∧
        Moves g now m (g.turnMarks i now) m' (poll i now g).2.control (poll i now g).2.stats := by
  unfold poll turnMarks
  cases hm : g.members[i]? with
  | none => exact .inl ⟨rfl, rfl⟩
  | some m =>
    cases m with
    | ended time => exact .inl ⟨rfl, rfl⟩
    | delayed due loop =>
      by_cases hdue : due ≤ now
      · simp only [if_pos hdue]
        exact .inr ⟨_, _, rfl, rfl, .begins⟩
      · simp only [if_neg hdue]
        exact .inl ⟨trivial, trivial⟩
    | looping loop phase =>
      simp only [shared]
      cases hadvance : phase.advance loop now ⟨g.control, g.stats, g.state⟩ with
      | none => exact .inl ⟨rfl, rfl⟩
      | some r =>
        obtain ⟨next, t⟩ := r
        have hcross : Crossing loop now g.shared phase next t := crossing_of_advance hadvance
        refine .inr ⟨_, _, rfl, rfl, .crosses hcross ?_⟩
        cases hend : next.isEnded
        · exact .inl ⟨rfl, rfl⟩
        · exact .inr ⟨rfl, rfl⟩
    | sleeping due interval =>
      by_cases hdue : due ≤ now
      · simp only [if_pos hdue]
        exact .inr ⟨_, _, rfl, rfl, .sleeps⟩
      · simp only [if_neg hdue]
        exact .inl ⟨trivial, trivial⟩
    | resting rest =>
      simp only
      cases hcheck : rest.check now g.control with
      | none => exact .inr ⟨_, _, rfl, rfl, .stays (.inl rfl)⟩
      | some later =>
        by_cases hsame : later = rest
        · simp only [if_pos hsame]
          exact .inl ⟨trivial, trivial⟩
        · simp only [if_neg hsame]
          exact .inr ⟨_, _, rfl, rfl, .stays (.inr ⟨later, rfl⟩)⟩

theorem Moves.sameRules {marks : List LoopMark} {c : LoopControl} {stats : PollingStats}
    (h : Moves g now m marks m' c stats) : g.control.SameRules c := by
  cases h with
  | crosses crossing place => exact crossing.sameRules
  | _ => exact ⟨rfl, rfl, rfl, rfl⟩

theorem Moves.counted {marks : List LoopMark} {c : LoopControl} {stats : PollingStats}
    (h : Moves g now m marks m' c stats) :
    c.iterations = g.control.iterations + marks.count .begun ∧
      c.waits = g.control.waits + marks.count .rested := by
  cases h with
  | crosses crossing place => exact ⟨crossing.counted.iterations, crossing.counted.waits⟩
  | _ => exact ⟨rfl, rfl⟩

/-- A body is begun only while the loops run and an iteration is left. -/
theorem Moves.of_begun {marks : List LoopMark} {c : LoopControl} {stats : PollingStats}
    (h : Moves g now m marks m' c stats) (hm : .begun ∈ marks) :
    g.control.interrupted = false ∧ g.control.paused = false ∧
      ∀ limit, g.control.limit = some limit → g.control.iterations < limit := by
  cases h with
  | crosses crossing place => exact crossing.of_begun hm
  | _ => simp at hm

theorem Moves.of_spent {marks : List LoopMark} {c : LoopControl} {stats : PollingStats}
    (h : Moves g now m marks m' c stats) (hm : .spent ∈ marks) :
    ∃ limit, g.control.limit = some limit ∧ limit ≤ g.control.iterations := by
  cases h with
  | crosses crossing place => exact crossing.of_spent hm
  | _ => simp at hm

theorem Moves.iterations_le {marks : List LoopMark} {c : LoopControl} {stats : PollingStats}
    {limit : Nat} (h : Moves g now m marks m' c stats) (hl : g.control.limit = some limit)
    (hle : g.control.iterations ≤ limit) : c.iterations ≤ limit := by
  cases h with
  | crosses crossing place => exact crossing.iterations_le hl hle
  | _ => exact hle

/-- A member that has ended does not go on. -/
theorem Moves.not_ended {marks : List LoopMark} {c : LoopControl} {stats : PollingStats}
    (h : Moves g now m marks m' c stats) : m.endedAt? = none := by
  cases h <;> rfl

/-! ## Acts -/

section Log

variable {l l' : List (Nat × LoopMark)}

theorem bodies_append : bodies (l ++ l') = bodies l + bodies l' := by
  rw [bodies, List.map_append, List.count_append]
  rfl

theorem rests_append : rests (l ++ l') = rests l + rests l' := by
  rw [rests, List.map_append, List.count_append]
  rfl

theorem marksOf_append : marksOf i (l ++ l') = marksOf i l ++ marksOf i l' := by
  rw [marksOf, List.filter_append, List.map_append]
  rfl

theorem map_snd_marks_turn : (g.marks (.turn i now)).map (·.2) = g.turnMarks i now := by
  simp [marks, Function.comp_def]

theorem marksOf_marks_turn : marksOf i (g.marks (.turn i now)) = g.turnMarks i now := by
  have hown : (g.marks (.turn i now)).filter (·.1 = i) = g.marks (.turn i now) :=
    List.filter_eq_self.2 (by simp [marks])
  rw [marksOf, hown, map_snd_marks_turn]

theorem marksOf_marks_turn_of_ne (h : j ≠ i) : marksOf i (g.marks (.turn j now)) = [] := by
  have hother : (g.marks (.turn j now)).filter (·.1 = i) = [] :=
    List.filter_eq_nil_iff.2 (by simp [marks, h])
  rw [marksOf, hother, List.map_nil]

end Log

/-- A member goes on in an act, or the act does not concern it. -/
theorem member_after (g : LoopGroup ω) (a : Act ω) (i : Nat) :
    ((g.after a).members[i]? = g.members[i]? ∧ marksOf i (g.marks a) = []) ∨
      ∃ now m m', g.members[i]? = some m ∧ (g.after a).members[i]? = some m' ∧
        Moves g now m (marksOf i (g.marks a)) m' (g.after a).control (g.after a).stats := by
  cases a with
  | turn j now =>
    rcases turn_cases g j now with ⟨hsame, hnone⟩ | ⟨m, m', hm, hset, hmoves⟩
    · refine .inl ⟨by rw [after, hsame], ?_⟩
      rw [marksOf, marks, hnone]
      rfl
    · by_cases hj : j = i
      · subst hj
        have hlt := (List.getElem?_eq_some_iff.1 hm).1
        refine .inr ⟨now, m, m', hm, ?_, marksOf_marks_turn ▸ hmoves⟩
        rw [after, hset, List.getElem?_set_self hlt]
      · refine .inl ⟨?_, marksOf_marks_turn_of_ne hj⟩
        rw [after, hset, List.getElem?_set_ne hj]
  | _ => exact .inl ⟨rfl, rfl⟩

theorem limit_after (g : LoopGroup ω) (a : Act ω) : (g.after a).control.limit = g.control.limit := by
  cases a with
  | turn i now =>
    rcases turn_cases g i now with ⟨hsame, -⟩ | ⟨m, m', -, -, hmoves⟩
    · rw [after, hsame]
    · exact hmoves.sameRules.limit
  | _ => rfl

/-- An interrupt is never taken back. -/
theorem interrupted_after (h : (g.after a).control.interrupted = false) :
    g.control.interrupted = false ∧ a ≠ .interrupt := by
  cases a with
  | interrupt => cases h
  | turn i now =>
    refine ⟨?_, by simp⟩
    rcases turn_cases g i now with ⟨hsame, -⟩ | ⟨m, m', -, -, hmoves⟩
    · rwa [after, hsame] at h
    · exact hmoves.sameRules.interrupted.symm.trans h
  | _ => exact ⟨h, by simp⟩

theorem counted_after (g : LoopGroup ω) (a : Act ω) :
    (g.after a).control.iterations = g.control.iterations + bodies (g.marks a) ∧
      (g.after a).control.waits = g.control.waits + rests (g.marks a) := by
  cases a with
  | turn i now =>
    rw [bodies, rests, map_snd_marks_turn]
    rcases turn_cases g i now with ⟨hsame, hnone⟩ | ⟨m, m', -, -, hmoves⟩
    · rw [after, hsame, hnone]
      exact ⟨rfl, rfl⟩
    · exact hmoves.counted
  | _ => exact ⟨rfl, rfl⟩

theorem of_begun (h : .begun ∈ g.turnMarks i now) :
    g.control.interrupted = false ∧ g.control.paused = false ∧
      ∀ limit, g.control.limit = some limit → g.control.iterations < limit := by
  rcases turn_cases g i now with ⟨-, hnone⟩ | ⟨m, m', -, -, hmoves⟩
  · rw [hnone] at h
    cases h
  · exact hmoves.of_begun h

theorem of_spent (h : .spent ∈ g.turnMarks i now) :
    ∃ limit, g.control.limit = some limit ∧ limit ≤ g.control.iterations := by
  rcases turn_cases g i now with ⟨-, hnone⟩ | ⟨m, m', -, -, hmoves⟩
  · rw [hnone] at h
    cases h
  · exact hmoves.of_spent h

theorem iterations_after_le {limit : Nat} (hl : g.control.limit = some limit)
    (h : g.control.iterations ≤ limit) (a : Act ω) : (g.after a).control.iterations ≤ limit := by
  cases a with
  | turn i now =>
    rcases turn_cases g i now with ⟨hsame, -⟩ | ⟨m, m', -, -, hmoves⟩
    · rwa [after, hsame]
    · exact hmoves.iterations_le hl h
  | _ => exact h

/-- A turn from the gate runs the body from its beginning, or leaves the state alone. -/
theorem state_of_gate {loop : PollingLoop ω} (hm : g.members[i]? = some (.looping loop .gate)) :
    (g.after (.turn i now)).state =
      if .begun ∈ g.turnMarks i now then (loop.body.poll now g.state).2 else g.state := by
  simp only [after, poll, turnMarks, hm, shared]
  cases hadvance : LoopPhase.gate.advance loop now ⟨g.control, g.stats, g.state⟩ with
  | none => rfl
  | some r => exact (crossing_of_advance hadvance).state_of_gate

/-! ## Loops that rest -/

end LoopGroup

namespace LoopMember

/-- A loop that rests after each iteration, or has ended. -/
def isPolling : LoopMember ω → Bool
  | .delayed _ loop | .looping loop _ => loop.interval.isSome
  | .ended _ => true
  | .sleeping _ _ | .resting _ => false

/-- A loop that has rested since its last body. -/
def isRested : LoopMember ω → Bool
  | .delayed _ _ => true
  | .looping _ phase => phase.isRested
  | .ended _ | .sleeping _ _ | .resting _ => false

/-- A member that has not begun. -/
def isFresh : LoopMember ω → Bool
  | .delayed _ _ | .sleeping _ _ => true
  | .looping _ _ | .resting _ | .ended _ => false

end LoopMember

namespace LoopGroup

variable {g : LoopGroup ω} {a : Act ω} {acts : List (Act ω)} {i now : Nat}
  {m m' : LoopMember ω} {marks later : List LoopMark} {c : LoopControl} {stats : PollingStats}

theorem Moves.isPolling (h : Moves g now m marks m' c stats) (hm : m.isPolling) : m'.isPolling := by
  cases h with
  | begins => exact hm
  | crosses crossing place =>
    obtain ⟨-, rfl⟩ | ⟨-, rfl⟩ := place
    · exact hm
    · rfl
  | sleeps | stays => cases hm

theorem Moves.executed (h : Moves g now m marks m' c stats) (hm : m.isPolling) :
    stats.executed = g.stats.executed + marks.count .rested := by
  cases h with
  | begins => rfl
  | crosses crossing place => exact crossing.executed hm
  | sleeps | stays => cases hm

theorem Moves.laps (h : Moves g now m marks m' c stats) (hm : m.isPolling)
    (hlater : Laps m'.isRested later) (hend : m'.endedAt?.isSome → later = []) :
    Laps m.isRested (marks ++ later) := by
  cases h with
  | begins => exact hlater
  | crosses crossing place =>
    obtain ⟨hnext, rfl⟩ | ⟨-, rfl⟩ := place
    · refine crossing.laps hm hlater fun hended => ?_
      rw [hnext] at hended
      cases hended
    · rw [hend rfl]
      exact crossing.laps hm .nil fun _ => rfl
  | sleeps | stays => cases hm

/-- Every member is a loop that rests after each iteration. -/
def Polling (g : LoopGroup ω) : Prop := ∀ m ∈ g.members, m.isPolling

theorem Polling.after (h : g.Polling) (a : Act ω) : (g.after a).Polling := by
  intro m hm
  obtain ⟨i, hi⟩ := List.mem_iff_getElem?.1 hm
  rcases member_after g a i with ⟨hsame, -⟩ | ⟨now, k, k', hk, hk', hmoves⟩
  · exact h m (List.mem_of_getElem? (hsame ▸ hi))
  · obtain rfl := Option.some.inj (hk'.symm.trans hi)
    exact hmoves.isPolling (h k (List.mem_of_getElem? hk))

theorem Polling.executed_after (h : g.Polling) (a : Act ω) :
    (g.after a).stats.executed = g.stats.executed + rests (g.marks a) := by
  cases a with
  | turn i now =>
    rw [rests, map_snd_marks_turn]
    rcases turn_cases g i now with ⟨hsame, hnone⟩ | ⟨m, m', hm, -, hmoves⟩
    · rw [LoopGroup.after, hsame, hnone]
      rfl
    · exact hmoves.executed (h m (List.mem_of_getElem? hm))
  | _ => rfl

theorem Polling.laps_log (h : g.Polling) (hm : g.members[i]? = some m) (acts : List (Act ω)) :
    Laps m.isRested (marksOf i (g.log acts)) ∧
      (m.endedAt?.isSome → marksOf i (g.log acts) = []) := by
  induction acts generalizing g m with
  | nil => exact ⟨.nil, fun _ => rfl⟩
  | cons a rest ih =>
    rw [log, marksOf_append]
    rcases member_after g a i with ⟨hsame, hnone⟩ | ⟨now, k, k', hk, hk', hmoves⟩
    · rw [hnone]
      exact ih (h.after a) (hsame.trans hm)
    · obtain rfl := Option.some.inj (hk.symm.trans hm)
      obtain ⟨hlaps, hend⟩ := ih (h.after a) hk'
      refine ⟨hmoves.laps (h k (List.mem_of_getElem? hk)) hlaps hend, fun hended => ?_⟩
      rw [hmoves.not_ended] at hended
      cases hended

theorem marksOf_log_of_none (hm : g.members[i]? = none) (acts : List (Act ω)) :
    marksOf i (g.log acts) = [] := by
  induction acts generalizing g with
  | nil => rfl
  | cons a rest ih =>
    rw [log, marksOf_append]
    rcases member_after g a i with ⟨hsame, hnone⟩ | ⟨now, k, k', hk, -⟩
    · rw [hnone]
      exact ih (hsame.trans hm)
    · cases hk.symm.trans hm

/-! ## All runs -/

theorem afterAll_turns (g : LoopGroup ω) (l : List (Nat × Nat)) :
    g.afterAll (l.map fun t => .turn t.1 t.2) = VirtualTime.takeTurns poll g l := by
  induction l generalizing g with
  | nil => rfl
  | cons t rest ih => exact ih (g.after (.turn t.1 t.2))

/-- While somebody waits, nothing but turns of the members happens to a group. -/
theorem wait_eq_afterAll (goal : Goal Nat (LoopGroup ω)) (clock : VirtualTime Nat)
    (g : LoopGroup ω) :
    ∃ l : List (Nat × Nat),
      (clock.wait poll goal g).2 = g.afterAll (l.map fun t => .turn t.1 t.2) := by
  obtain ⟨l, hl⟩ : VirtualTime.ByTurns poll g (clock.wait poll goal g).2 :=
    VirtualTime.byTurns_wait goal clock g
  exact ⟨l, hl.trans (afterAll_turns g l).symm⟩

theorem limit_afterAll (g : LoopGroup ω) (acts : List (Act ω)) :
    (g.afterAll acts).control.limit = g.control.limit := by
  induction acts generalizing g with
  | nil => rfl
  | cons a rest ih => exact (ih (g.after a)).trans (limit_after g a)

theorem interrupted_afterAll (h : (g.afterAll acts).control.interrupted = false) :
    g.control.interrupted = false ∧ Act.interrupt ∉ acts := by
  induction acts generalizing g with
  | nil => exact ⟨h, List.not_mem_nil⟩
  | cons a rest ih =>
    obtain ⟨hafter, hrest⟩ := ih h
    obtain ⟨hbefore, ha⟩ := interrupted_after hafter
    exact ⟨hbefore, List.not_mem_cons_of_ne_of_not_mem (Ne.symm ha) hrest⟩

theorem counted_afterAll (g : LoopGroup ω) (acts : List (Act ω)) :
    (g.afterAll acts).control.iterations = g.control.iterations + bodies (g.log acts) ∧
      (g.afterAll acts).control.waits = g.control.waits + rests (g.log acts) := by
  induction acts generalizing g with
  | nil => exact ⟨rfl, rfl⟩
  | cons a rest ih =>
    obtain ⟨hbodies, hrests⟩ := ih (g.after a)
    obtain ⟨hfirst, hfirst'⟩ := counted_after g a
    rw [afterAll_cons, log, bodies_append, rests_append, hbodies, hrests]
    omega

theorem Polling.executed_afterAll (h : g.Polling) (acts : List (Act ω)) :
    (g.afterAll acts).stats.executed = g.stats.executed + rests (g.log acts) := by
  induction acts generalizing g with
  | nil => rfl
  | cons a rest ih =>
    rw [afterAll_cons, log, rests_append, ih (h.after a), h.executed_after a]
    omega

theorem iterations_afterAll_le {limit : Nat} (hl : g.control.limit = some limit)
    (h : g.control.iterations ≤ limit) (acts : List (Act ω)) :
    (g.afterAll acts).control.iterations ≤ limit := by
  induction acts generalizing g with
  | nil => exact h
  | cons a rest ih => exact ih ((limit_after g a).trans hl) (iterations_after_le hl h a)

/-- A group that has not begun. -/
structure Fresh (g : LoopGroup ω) : Prop where
  iterations : g.control.iterations = 0
  waits : g.control.waits = 0
  stats : g.stats = {}
  members : ∀ m ∈ g.members, m.isFresh

theorem Fresh.laps_log (hg : g.Fresh) (hp : g.Polling) (acts : List (Act ω)) (i : Nat) :
    Laps true (marksOf i (g.log acts)) := by
  cases hm : g.members[i]? with
  | none => exact marksOf_log_of_none hm acts ▸ .nil
  | some m =>
    have hfresh := hg.members m (List.mem_of_getElem? hm)
    have hpolling := hp m (List.mem_of_getElem? hm)
    have hlaps := (hp.laps_log hm acts).1
    cases m with
    | delayed due loop => exact hlaps
    | sleeping => cases hpolling
    | _ => cases hfresh

/-- However the members of a group take turns, and however it is paused, resumed and interrupted in
between: a body is begun only while the group is neither paused nor interrupted; the iterations that
the control counts are the bodies that were begun, and no more of them than the limit says; a loop
ends for want of iterations only after all of them were begun; and if all members are loops that rest
after each iteration, each of them takes turns between bodies and waits, so that there are as many
waits as iterations that came to an end. -/
theorem loops_share_control (hg : g.Fresh) (acts : List (Act ω)) :
    let x := g.afterAll acts
    let log := g.log acts
    (∀ i now loop, x.members[i]? = some (.looping loop .gate) →
      (x.after (.turn i now)).state =
        if .begun ∈ x.turnMarks i now then (loop.body.poll now x.state).2 else x.state) ∧
    (∀ i now, .begun ∈ x.turnMarks i now →
      x.control.paused = false ∧ x.control.interrupted = false ∧ Act.interrupt ∉ acts) ∧
    x.control.iterations = bodies log ∧
    (∀ limit, g.control.limit = some limit → bodies log ≤ limit) ∧
    (∀ i now, .spent ∈ x.turnMarks i now → g.control.limit = some (bodies log)) ∧
    (g.Polling →
      (∀ i, Laps true (marksOf i log)) ∧ x.control.waits = rests log ∧
        x.control.waits = x.stats.processed + x.stats.skipped) := by
  intro x log
  obtain ⟨hiterations, hwaits⟩ := counted_afterAll g acts
  rw [hg.iterations, Nat.zero_add] at hiterations
  rw [hg.waits, Nat.zero_add] at hwaits
  have hbound : ∀ limit, g.control.limit = some limit → bodies log ≤ limit := fun limit hl =>
    hiterations ▸ iterations_afterAll_le hl (hg.iterations ▸ Nat.zero_le limit) acts
  refine ⟨fun i now loop hm => state_of_gate hm, fun i now hm => ?begun, hiterations, hbound,
    fun i now hm => ?spent, fun hp => ⟨hg.laps_log hp acts, hwaits, ?waits⟩⟩
  case begun =>
    obtain ⟨hopen, hrunning, -⟩ := of_begun hm
    exact ⟨hrunning, hopen, (interrupted_afterAll hopen).2⟩
  case spent =>
    obtain ⟨limit, hl, hfull⟩ := of_spent hm
    rw [limit_afterAll] at hl
    have hle := hbound limit hl
    rw [hiterations] at hfull
    rw [hl, Nat.le_antisymm hle hfull]
  case waits =>
    have hexecuted := hp.executed_afterAll acts
    rw [hg.stats] at hexecuted
    exact hwaits.trans (hexecuted.trans (Nat.zero_add _)).symm

/-- Two loops that find nothing to do, and one iteration for both. -/
def couple : LoopGroup Unit where
  control := { limit := some 1 }
  members := List.replicate 2 (.delayed 0 ⟨.done .skipped, some 5⟩)
  state := ()

/-- The first loop begins, and a pause holds the second one for a while. -/
def contest : List (Act Unit) :=
  [.turn 0 0, .turn 0 0, .turn 1 0, .pause, .turn 1 0, .resume]

theorem couple_shares_control :
    (couple.afterAll contest).control.iterations = bodies (couple.log contest) ∧
      bodies (couple.log contest) ≤ 1 ∧
      .spent ∈ (couple.afterAll contest).turnMarks 1 0 ∧
      some 1 = some (bodies (couple.log contest)) ∧
      (couple.afterAll contest).control.waits = 0 + 1 := by
  have hfresh : couple.Fresh := ⟨rfl, rfl, rfl, by decide⟩
  have hpolling : couple.Polling := by
    unfold Polling
    decide
  have hspent : .spent ∈ (couple.afterAll contest).turnMarks 1 0 := by decide
  obtain ⟨-, -, hiterations, hbound, hall, hrest⟩ := loops_share_control hfresh contest
  obtain ⟨-, -, hwaits⟩ := hrest hpolling
  exact ⟨hiterations, hbound 1 rfl, hspent, hall 1 0 hspent, hwaits⟩

end LoopGroup

end JobEngine
