-- SUMMARY: A tick notes when each of its commands begins and ends, one command after another.
import JobEngine.Proofs.Activity.Steps
import JobEngine.Scheduler.Tick

/-!
# Rounds of a tick

A `Journal` is a part of the state in which commands note that they begin and that they end.
`Activity.Notes` says which marks work makes in it, in which order, whatever others do to the state
while the work waits. The marks of a tick are its round: each command begins and ends before the
next one begins. Until the last command has ended, a tick has marks to make.
-/

namespace JobEngine

variable {ω α β : Type}

/-! ## Journals -/

/-- What is noted of a command. -/
inductive CommandMark where
  | begun (name : String)
  | ended (name : String)
deriving DecidableEq, Repr

/-- A journal that is kept in the state. -/
structure Journal (ω : Type) where
  read : ω → List CommandMark
  note : CommandMark → ω → ω
  read_note (mark : CommandMark) (s : ω) : read (note mark s) = read s ++ [mark]

/-- The journal stays as it is. -/
def Journal.Silent (J : Journal ω) (s t : ω) : Prop := J.read t = J.read s

/-! ## Work that keeps a journal -/

namespace Activity

variable {J : Journal ω} {work : Activity ω α} {marks : List CommandMark}

/-- The work ends with a result once it has made these marks, in this order and no others. It does
not wait after the last of them. -/
inductive Notes (J : Journal ω) : Activity ω α → List CommandMark → Prop where
  | done (result : α) : Notes J (.done result) []
  | step {change : ω → ω} {next : ω → Activity ω α} {new left : List CommandMark}
    (marks : ∀ s, J.read (change s) = J.read s ++ new) (later : ∀ s, Notes J (next s) left) :
    Notes J (.step change next) (new ++ left)
  | wait {limit : Option Nat} {ready : ω → Bool} {next : Nat → Activity ω α}
    {left : List CommandMark} (pending : left ≠ []) (later : ∀ waited, Notes J (next waited) left) :
    Notes J (.wait limit ready next) left

theorem Notes.modify {f : ω → ω} {left : List CommandMark} {mark : CommandMark}
    (hf : ∀ s, J.read (f s) = J.read s ++ [mark]) (h : Notes J work left) :
    Notes J (.modify f work) (mark :: left) := .step hf fun _ => h

/-- A step that the journal does not tell of. -/
theorem Notes.silent {change : ω → ω} {next : ω → Activity ω α}
    (hchange : ∀ s, J.Silent s (change s)) (h : ∀ s, Notes J (next s) marks) :
    Notes J (.step change next) marks :=
  .step (fun s => (hchange s).trans (List.append_nil _).symm) h

theorem Notes.bind {k : α → Activity ω β} {marks' : List CommandMark} (h : Notes J work marks)
    (hk : ∀ a, Notes J (k a) marks') : Notes J (work.bind k) (marks ++ marks') := by
  induction h with
  | done a => exact hk a
  | step marks later ih =>
    rw [List.append_assoc]
    exact .step marks ih
  | wait pending later ih =>
    exact .wait (fun hnil => pending (List.append_eq_nil_iff.1 hnil).1) ih

theorem Notes.timed (h : Notes J work marks) (elapsed : Nat) :
    Notes J (work.timed elapsed) marks := by
  induction h generalizing elapsed with
  | done a => exact .done _
  | step marks later ih => exact .step marks fun s => ih s elapsed
  | wait pending later ih => exact .wait pending fun waited => ih waited _

/-- What comes before the marks may wait and panic, if it is silent. -/
theorem Notes.after_silent {k : Ending α → Activity ω β} (h : work.Always J.Silent)
    (hk : ∀ e, Notes J (k e).caught marks) (hmarks : marks ≠ []) :
    Notes J (work.caught.bind k).caught marks := by
  induction work with
  | done a => exact hk _
  | panic p => exact hk _
  | step change next ih => exact .silent (fun s => (h s).1) fun s => ih s (h s).2
  | wait limit ready next ih => exact .wait hmarks fun waited => ih waited (h waited)

/-- Work that is carried on makes some of its marks and waits, or all of them and ends. -/
theorem Notes.poll (h : Notes J work marks) (now : Nat) (s : ω) :
    (∃ a t, work.poll now s = (.ended (.done a), t) ∧ J.read t = J.read s ++ marks) ∨
      ∃ rest t new left, work.poll now s = (.waiting rest, t) ∧ marks = new ++ left ∧ left ≠ [] ∧
        J.read t = J.read s ++ new ∧ ∀ waited, Notes J (rest.next waited) left := by
  induction h generalizing s with
  | done a => exact .inl ⟨a, s, rfl, (List.append_nil _).symm⟩
  | @step change next new left hnew later ih =>
    rcases ih s (change s) with ⟨a, t, hpoll, hread⟩ | ⟨rest, t, more, left', hpoll, rfl, hleft⟩
    · exact .inl ⟨a, t, hpoll, by rw [hread, hnew, List.append_assoc]⟩
    · refine .inr ⟨rest, t, new ++ more, left', hpoll, (List.append_assoc ..).symm, hleft.1, ?_,
        hleft.2.2⟩
      rw [hleft.2.1, hnew, List.append_assoc]
  | @wait limit ready next left pending later ih =>
    rw [Activity.poll]
    split
    · exact ih 0 s
    · exact .inr ⟨_, s, [], left, rfl, rfl, pending, (List.append_nil _).symm, later⟩

end Activity

/-! ## Commands that keep a journal -/

/-- End the same way. -/
def Ending.again : Ending α → Activity ω α
  | .done a => .done a
  | .panic p => .panic p

namespace Command

variable {J : Journal ω} {c : Command ω} {cs : List (Command ω)} {report : MetricsSink ω}

/-- The command notes that it begins and that it ends, well or not. -/
def noted (J : Journal ω) (c : Command ω) : Command ω where
  name := c.name
  run := .modify (J.note (.begun c.name)) <| c.run.caught.bind fun e =>
    .modify (J.note (.ended c.name)) e.again

/-- The marks of commands that run one after another. -/
def round (cs : List (Command ω)) : List CommandMark :=
  cs.flatMap fun c => [.begun c.name, .ended c.name]

/-- The marks of several rounds. -/
def rounds (cs : List (Command ω)) (k : Nat) : List CommandMark :=
  (List.replicate k (round cs)).flatten

theorem rounds_succ (cs : List (Command ω)) (k : Nat) :
    rounds cs (k + 1) = rounds cs k ++ round cs := by
  rw [rounds, List.replicate_succ', List.flatten_append, List.flatten_singleton, rounds]

open Activity

theorem notes_noted (h : c.run.Always J.Silent) :
    Notes J (c.noted J).run.caught [.begun c.name, .ended c.name] := by
  refine .modify (J.read_note _) (.after_silent h (fun e => ?_) (List.cons_ne_nil _ _))
  cases e <;> exact .modify (J.read_note _) (.done _)

theorem notes_runAll (hreport : ∀ f s, J.Silent s (report f s))
    (h : ∀ c ∈ cs, c.run.Always J.Silent) :
    Notes J (runAll report (cs.map (·.noted J))) (round cs) := by
  induction cs with
  | nil => exact .done _
  | cons c rest ih =>
    refine (notes_noted (h c List.mem_cons_self)).bind fun e => .silent (fun s => ?_) fun _ =>
      ih fun d hd => h d (List.mem_cons_of_mem _ hd)
    split
    · exact hreport _ s
    · rfl

/-- A tick makes the marks of one round. -/
theorem notes_tick (hreport : ∀ f s, J.Silent s (report f s))
    (h : ∀ c ∈ cs, c.run.Always J.Silent) :
    Notes J (tick report (cs.map (·.noted J))) (round cs) := by
  rw [← List.append_nil (round cs)]
  exact ((notes_runAll hreport h).timed 0).bind fun r =>
    .silent (fun s => hreport _ s) fun _ => .done _

end Command

end JobEngine
