-- SUMMARY: Callers that update one breaker side by side, what they install and what gets lost.
import JobEngine.Breaker.Basic
import JobEngine.Proofs.Breaker.History
import Mathlib.Logic.Function.Basic

/-!
# Callers on one breaker

An update of a breaker takes two steps: a caller looks at the state, and later it installs the next
one, if the state is still the very value that it looked at. Other callers may take steps in
between, so an update can get lost. The states that are installed are nevertheless those of a
breaker that sees the events of their updates one after another; and whoever loses an update loses
it to one that was installed, so failures of one caller open the breaker no later than they would
alone.
-/

namespace JobEngine

/-! ## Updates in two steps -/

/-- An update between its two steps. -/
structure PendingUpdate where
  event : BreakerEvent
  /-- The number of the value that was looked at. -/
  value : Nat
  state : BreakerState

/-- The state that the update is to install. -/
def PendingUpdate.next (u : PendingUpdate) (settings : BreakerSettings) : BreakerState :=
  u.state.next settings u.event

/-- How an update ends. -/
inductive UpdateEnd where
  /-- There is nothing to install: the next state equals the one that was looked at. -/
  | unchanged
  | installed
  /-- Another state was there than the one that was looked at. -/
  | dropped
deriving DecidableEq

/-- Count an event before the state is updated. -/
def Breaker.counted (b : Breaker) : BreakerEvent → Breaker
  | .success => { b with totalSuccesses := b.totalSuccesses + 1 }
  | .failure _ => { b with totalFailures := b.totalFailures + 1 }
  | .probe _ => b

theorem Breaker.state_counted (b : Breaker) (e : BreakerEvent) : (b.counted e).state = b.state := by
  cases e <;> rfl

theorem Breaker.settings_counted (b : Breaker) (e : BreakerEvent) :
    (b.counted e).settings = b.settings := by
  cases e <;> rfl

/-- Count an event and apply it at once. -/
def Breaker.record (b : Breaker) : BreakerEvent → Breaker
  | .success => b.recordSuccess
  | .failure time => b.recordFailure time
  | .probe now => b.probe now

theorem Breaker.record_eq (b : Breaker) (e : BreakerEvent) :
    b.record e = { b.counted e with state := b.state.next b.settings e } := by
  cases e <;> rfl

/-- A breaker that callers `ι` update, each with at most one update at a time. -/
structure SharedBreaker (ι : Type) where
  breaker : Breaker
  /-- The number of the value that the state is. Equal states may be different values. -/
  value : Nat := 0
  /-- How many values were made, whether they were installed or not. -/
  made : Nat := 1
  pending : ι → Option PendingUpdate := fun _ => none

namespace SharedBreaker

variable {ι : Type} [DecidableEq ι]

/-- A step of a caller. -/
inductive Step (ι : Type) where
  | look (caller : ι) (event : BreakerEvent)
  /-- Compare and install. -/
  | settle (caller : ι)

/-- How an update ends whose second step comes now. -/
def ending (b : SharedBreaker ι) (u : PendingUpdate) : UpdateEnd :=
  if u.next b.breaker.settings = u.state then .unchanged
  else if u.value = b.value then .installed
  else .dropped

/-- The state that the caller is told when its second step comes now. -/
def answer (b : SharedBreaker ι) (u : PendingUpdate) : BreakerState :=
  match b.ending u with
  | .unchanged => u.state
  | .installed => u.next b.breaker.settings
  | .dropped => b.breaker.state

/-- The breaker after a step. A caller that has an update under way does not look again. -/
def after (b : SharedBreaker ι) : Step ι → SharedBreaker ι
  | .look c e =>
    match b.pending c with
    | some _ => b
    | none => { b with
        breaker := b.breaker.counted e
        pending := Function.update b.pending c (some ⟨e, b.value, b.breaker.state⟩) }
  | .settle c =>
    match b.pending c with
    | none => b
    | some u =>
      let pending := Function.update b.pending c none
      match b.ending u with
      | .unchanged => { b with pending }
      | .installed => { b with
          breaker := { b.breaker with state := u.next b.breaker.settings }
          value := b.made
          made := b.made + 1
          pending }
      | .dropped => { b with made := b.made + 1, pending }

def afterAll (b : SharedBreaker ι) (steps : List (Step ι)) : SharedBreaker ι := steps.foldl after b

@[simp] theorem afterAll_cons (b : SharedBreaker ι) (s : Step ι) (steps : List (Step ι)) :
    b.afterAll (s :: steps) = (b.after s).afterAll steps := rfl

theorem afterAll_append (b : SharedBreaker ι) (l m : List (Step ι)) :
    b.afterAll (l ++ m) = (b.afterAll l).afterAll m := List.foldl_append

/-- An update that ended. -/
structure Settled (ι : Type) where
  caller : ι
  event : BreakerEvent
  ending : UpdateEnd

/-- The update that a step ends. -/
def settled? (b : SharedBreaker ι) : Step ι → Option (Settled ι)
  | .look _ _ => none
  | .settle c => (b.pending c).map fun u => ⟨c, u.event, b.ending u⟩

/-- The updates that end in a run, in order. -/
def log : SharedBreaker ι → List (Step ι) → List (Settled ι)
  | _, [] => []
  | b, s :: rest => (b.settled? s).toList ++ (b.after s).log rest

/-- The events of the updates that were installed. -/
def installed (log : List (Settled ι)) : List BreakerEvent :=
  (log.filter (·.ending = .installed)).map (·.event)

/-- How many updates of a caller ended. -/
def completed (c : ι) (log : List (Settled ι)) : Nat := log.countP (·.caller = c)

omit [DecidableEq ι] in
theorem installed_append (l m : List (Settled ι)) :
    installed (l ++ m) = installed l ++ installed m := by
  rw [installed, List.filter_append, List.map_append]
  rfl

theorem completed_append (c : ι) (l m : List (Settled ι)) :
    completed c (l ++ m) = completed c l + completed c m := List.countP_append

/-- How the update of a caller ends if its second step comes now. -/
def endingOf (b : SharedBreaker ι) (c : ι) : Option UpdateEnd := (b.pending c).map b.ending

/-! ## What a step does -/

variable {b b' : SharedBreaker ι} {s : Step ι} {ended : List (Settled ι)} {c : ι}

/-- What a step does to the breaker, and which update it ends. -/
inductive Moves (b : SharedBreaker ι) :
    Step ι → List (Settled ι) → SharedBreaker ι → Prop where
  | busy {c : ι} {e : BreakerEvent} {u : PendingUpdate} (pending : b.pending c = some u) :
    Moves b (.look c e) [] b
  | looks {c : ι} {e : BreakerEvent} (idle : b.pending c = none) :
    Moves b (.look c e) [] { b with
      breaker := b.breaker.counted e
      pending := Function.update b.pending c (some ⟨e, b.value, b.breaker.state⟩) }
  | idles {c : ι} (idle : b.pending c = none) : Moves b (.settle c) [] b
  | keeps {c : ι} {u : PendingUpdate} (pending : b.pending c = some u)
    (same : u.next b.breaker.settings = u.state) :
    Moves b (.settle c) [⟨c, u.event, .unchanged⟩]
      { b with pending := Function.update b.pending c none }
  | installs {c : ι} {u : PendingUpdate} (pending : b.pending c = some u)
    (differs : u.next b.breaker.settings ≠ u.state) (current : u.value = b.value) :
    Moves b (.settle c) [⟨c, u.event, .installed⟩] { b with
      breaker := { b.breaker with state := u.next b.breaker.settings }
      value := b.made
      made := b.made + 1
      pending := Function.update b.pending c none }
  | drops {c : ι} {u : PendingUpdate} (pending : b.pending c = some u)
    (differs : u.next b.breaker.settings ≠ u.state) (stale : u.value ≠ b.value) :
    Moves b (.settle c) [⟨c, u.event, .dropped⟩] { b with
      made := b.made + 1
      pending := Function.update b.pending c none }

theorem moves_after (b : SharedBreaker ι) (s : Step ι) :
    b.Moves s (b.settled? s).toList (b.after s) := by
  cases s with
  | look c e =>
    simp only [after]
    cases hc : b.pending c with
    | none => exact .looks hc
    | some u => exact .busy hc
  | settle c =>
    simp only [after, settled?]
    cases hc : b.pending c with
    | none => exact .idles hc
    | some u =>
      simp only [Option.map_some, Option.toList_some, ending]
      by_cases hsame : u.next b.breaker.settings = u.state
      · simp only [if_pos hsame]
        exact .keeps hc hsame
      · by_cases hvalue : u.value = b.value
        · simp only [if_neg hsame, if_pos hvalue]
          exact .installs hc hsame hvalue
        · simp only [if_neg hsame, if_neg hvalue]
          exact .drops hc hsame hvalue

theorem Moves.settings (h : b.Moves s ended b') : b'.breaker.settings = b.breaker.settings := by
  cases h with
  | looks idle => exact Breaker.settings_counted ..
  | _ => rfl

/-- An update that is under way after a step of `c` is the one that `c` left, or was so before. -/
theorem pending_of_update {x : Option PendingUpdate} {d : ι} {v : PendingUpdate}
    (h : Function.update b.pending c x d = some v) :
    d = c ∧ x = some v ∨ d ≠ c ∧ b.pending d = some v := by
  by_cases hd : d = c
  · subst hd
    rw [Function.update_self] at h
    exact .inl ⟨rfl, h⟩
  · rw [Function.update_of_ne hd] at h
    exact .inr ⟨hd, h⟩

theorem pending_of_forget {d : ι} {v : PendingUpdate}
    (h : Function.update b.pending c none d = some v) : d ≠ c ∧ b.pending d = some v := by
  rcases pending_of_update h with ⟨-, hnone⟩ | hold
  · cases hnone
  · exact hold

/-! ## Values -/

/-- The numbers of values tell them apart: who looked at the value that is still there knows the
state. The state is one that a breaker of its own may be in. -/
structure Consistent (b : SharedBreaker ι) : Prop where
  value : b.value < b.made
  seen : ∀ c u, b.pending c = some u → u.value < b.made
  state : ∀ c u, b.pending c = some u → u.value = b.value → u.state = b.breaker.state
  reached : ∃ history, b.breaker.state = .after b.breaker.settings history

omit [DecidableEq ι] in
/-- An update that is installed replaces the state that its caller looked at. -/
theorem Consistent.next_eq {u : PendingUpdate} (h : b.Consistent) (hu : b.pending c = some u)
    (hvalue : u.value = b.value) :
    u.next b.breaker.settings = b.breaker.state.next b.breaker.settings u.event := by
  rw [PendingUpdate.next, h.state c u hu hvalue]

theorem Moves.state (h : b.Consistent) (hm : b.Moves s ended b') :
    b'.breaker.state =
      (installed ended).foldl (BreakerState.next b.breaker.settings) b.breaker.state := by
  cases hm with
  | looks idle => exact Breaker.state_counted ..
  | installs pending differs current => exact h.next_eq pending current
  | _ => rfl

theorem Moves.reached (h : b.Consistent) (hm : b.Moves s ended b') :
    ∃ history, b'.breaker.state = .after b'.breaker.settings history := by
  obtain ⟨history, hstate⟩ := h.reached
  refine ⟨history ++ installed ended, ?_⟩
  rw [hm.state h, hm.settings, hstate]
  exact List.foldl_append.symm

theorem Consistent.forget (h : b.Consistent) (c : ι) :
    { b with pending := Function.update b.pending c none }.Consistent where
  value := h.value
  seen := fun d v hv => h.seen d v (pending_of_forget hv).2
  state := fun d v hv => h.state d v (pending_of_forget hv).2
  reached := h.reached

theorem Consistent.moves (h : b.Consistent) (hm : b.Moves s ended b') : b'.Consistent := by
  have hreached := hm.reached h
  cases hm with
  | busy | idles => exact h
  | looks idle =>
    refine ⟨h.value, fun d v hv => ?_, fun d v hv hvalue => ?_, hreached⟩
    · rcases pending_of_update hv with ⟨-, hnew⟩ | ⟨-, hold⟩
      · obtain rfl := Option.some.inj hnew
        exact h.value
      · exact h.seen d v hold
    · rw [Breaker.state_counted]
      rcases pending_of_update hv with ⟨-, hnew⟩ | ⟨-, hold⟩
      · obtain rfl := Option.some.inj hnew
        rfl
      · exact h.state d v hold hvalue
  | @keeps c u pending same => exact h.forget c
  | @installs c u pending differs current =>
    have hforget := h.forget c
    exact ⟨Nat.lt_succ_self _, fun d v hv => Nat.lt_succ_of_lt (hforget.seen d v hv),
      fun d v hv hvalue => absurd hvalue (Nat.ne_of_lt (hforget.seen d v hv)), hreached⟩
  | @drops c u pending differs stale =>
    have hforget := h.forget c
    exact ⟨Nat.lt_succ_of_lt h.value, fun d v hv => Nat.lt_succ_of_lt (hforget.seen d v hv),
      hforget.state, hreached⟩

theorem Consistent.after (h : b.Consistent) (s : Step ι) : (b.after s).Consistent :=
  h.moves (b.moves_after s)

theorem Consistent.afterAll (h : b.Consistent) (steps : List (Step ι)) :
    (b.afterAll steps).Consistent := by
  induction steps generalizing b with
  | nil => exact h
  | cons s rest ih => exact ih (h.after s)

/-! ## The order of the installed updates -/

theorem settings_afterAll (b : SharedBreaker ι) (steps : List (Step ι)) :
    (b.afterAll steps).breaker.settings = b.breaker.settings := by
  induction steps generalizing b with
  | nil => rfl
  | cons s rest ih => exact (ih (b.after s)).trans (b.moves_after s).settings

/-- The breaker is where one is that sees the events of the installed updates one after another. -/
theorem state_afterAll (h : b.Consistent) (steps : List (Step ι)) :
    (b.afterAll steps).breaker.state =
      (installed (b.log steps)).foldl (BreakerState.next b.breaker.settings) b.breaker.state := by
  induction steps generalizing b with
  | nil => rfl
  | cons s rest ih =>
    have hmoves := b.moves_after s
    rw [afterAll_cons, ih (h.after s), hmoves.settings, hmoves.state h, log, installed_append,
      List.foldl_append]

/-- A step leaves the value alone, or it installs the next state in its place. -/
theorem Consistent.value_after (h : b.Consistent) (s : Step ι) :
    (b.after s).value = b.value ∧ (b.after s).breaker.state = b.breaker.state ∨
      ∃ c u, s = .settle c ∧ b.pending c = some u ∧ b.endingOf c = some .installed ∧
        (b.after s).breaker.state = b.breaker.state.next b.breaker.settings u.event := by
  have hmoves := b.moves_after s
  generalize b.after s = b', (b.settled? s).toList = ended at hmoves
  cases hmoves with
  | looks idle => exact .inl ⟨rfl, Breaker.state_counted ..⟩
  | @installs c u pending differs current =>
    refine .inr ⟨c, u, rfl, pending, ?_, h.next_eq pending current⟩
    rw [endingOf, pending, Option.map_some, ending, if_neg differs, if_pos current]
  | _ => exact .inl ⟨rfl, rfl⟩

/-- The event of an update that is under way is one that its caller came with. -/
theorem looked_of_pending {u : PendingUpdate} {steps : List (Step ι)}
    (hu : (b.afterAll steps).pending c = some u) :
    b.pending c = some u ∨ .look c u.event ∈ steps := by
  induction steps generalizing b with
  | nil => exact .inl hu
  | cons s rest ih =>
    rcases ih hu with hfirst | hlater
    · have hmoves := b.moves_after s
      generalize b.after s = b', (b.settled? s).toList = ended at hfirst hmoves
      cases hmoves with
      | busy | idles => exact .inl hfirst
      | looks idle =>
        rcases pending_of_update hfirst with ⟨rfl, hnew⟩ | ⟨-, hold⟩
        · obtain rfl := Option.some.inj hnew
          exact .inr List.mem_cons_self
        · exact .inl hold
      | keeps | installs | drops => exact .inl (pending_of_forget hfirst).2
    · exact .inr (List.mem_cons_of_mem _ hlater)

/-! ## Lost updates -/

theorem pending_after {u : PendingUpdate} (hu : b.pending c = some u) (hs : s ≠ .settle c) :
    (b.after s).pending c = some u := by
  have hmoves := b.moves_after s
  generalize b.after s = b', (b.settled? s).toList = ended at hmoves
  cases hmoves with
  | busy | idles => exact hu
  | looks idle =>
    refine (Function.update_of_ne ?_ _ _).trans hu
    rintro rfl
    cases hu.symm.trans idle
  | keeps | installs | drops =>
    refine (Function.update_of_ne ?_ _ _).trans hu
    rintro rfl
    exact hs rfl

theorem pending_afterAll {u : PendingUpdate} {steps : List (Step ι)} (hu : b.pending c = some u)
    (hsteps : .settle c ∉ steps) : (b.afterAll steps).pending c = some u := by
  induction steps generalizing b with
  | nil => exact hu
  | cons s rest ih =>
    obtain ⟨hs, hrest⟩ := List.ne_and_not_mem_of_not_mem_cons hsteps
    exact ih (pending_after hu hs.symm) hrest

/-- While a caller does not settle, the value stays as it is, or another caller installs one. -/
theorem Consistent.value_or_installed (h : b.Consistent) {steps : List (Step ι)}
    (hsteps : .settle c ∉ steps) :
    (b.afterAll steps).value = b.value ∨
      ∃ l d m, steps = l ++ .settle d :: m ∧ d ≠ c ∧
        (b.afterAll l).endingOf d = some .installed := by
  induction steps generalizing b with
  | nil => exact .inl rfl
  | cons s rest ih =>
    obtain ⟨hs, hrest⟩ := List.ne_and_not_mem_of_not_mem_cons hsteps
    rcases h.value_after s with ⟨hvalue, -⟩ | ⟨d, u, rfl, -, hinstalled, -⟩
    · rcases ih (h.after s) hrest with hlater | ⟨l, d, m, rfl, hd, hinstalled⟩
      · exact .inl (hlater.trans hvalue)
      · exact .inr ⟨s :: l, d, m, rfl, hd, hinstalled⟩
    · exact .inr ⟨[], d, rest, rfl, fun hd => hs (hd ▸ rfl), hinstalled⟩

/-- An update is dropped only if another one is installed between its two steps. -/
theorem Consistent.installed_of_dropped (h : b.Consistent) {e : BreakerEvent}
    {steps : List (Step ι)} (hidle : b.pending c = none) (hsteps : .settle c ∉ steps)
    (hdropped : (b.afterAll (.look c e :: steps)).endingOf c = some .dropped) :
    ∃ l d m, steps = l ++ .settle d :: m ∧ d ≠ c ∧
      (b.afterAll (.look c e :: l)).endingOf d = some .installed := by
  have hlooked : (b.after (.look c e)).pending c = some ⟨e, b.value, b.breaker.state⟩ := by
    simp only [SharedBreaker.after, hidle]
    exact Function.update_self ..
  have hvalue : (b.after (.look c e)).value = b.value := by
    simp only [SharedBreaker.after, hidle]
  rcases (h.after (.look c e)).value_or_installed hsteps with hsame | hother
  · rw [afterAll_cons, endingOf, pending_afterAll hlooked hsteps, Option.map_some, ending, hsame,
      hvalue, if_pos rfl] at hdropped
    split at hdropped <;> cases hdropped
  · exact hother

/-! ## Thresholds -/

omit [DecidableEq ι] in
/-- The counts of the state stay below their thresholds. -/
theorem Consistent.below (h : b.Consistent) :
    (∀ n, b.breaker.state = .closed n → n.val < b.breaker.settings.failures.val) ∧
      ∀ n, b.breaker.state = .halfOpen n → n.val < b.breaker.settings.successes.val := by
  obtain ⟨history, hstate⟩ := h.reached
  have hexplained := BreakerState.explained b.breaker.settings history
  rw [← hstate] at hexplained
  refine ⟨fun n hn => ?_, fun n hn => ?_⟩ <;> rw [hn] at hexplained
  · exact hexplained.2
  · exact hexplained.2

theorem next_failure_of_opened {state : BreakerState} {e : BreakerEvent}
    {settings : BreakerSettings} (hstate : state.kind = .opened) (he : e.isFailure) : state.next settings e = state := by
  cases state with
  | opened time =>
    cases e with
    | failure at' => rfl
    | success | probe => cases he
  | closed | halfOpen => cases hstate

/-- A failure that a closed breaker counts opens it or raises its count by one. -/
theorem next_failure_of_closed {n : Count} {e : BreakerEvent} {settings : BreakerSettings}
    (hn : n.val < settings.failures.val) (he : e.isFailure) :
    ((BreakerState.closed n).next settings e).kind = .opened ∨
      (BreakerState.closed n).next settings e = .closed n.succ ∧ n.succ.val = n.val + 1 := by
  cases e with
  | failure time =>
    by_cases hreached : settings.failures ≤ n.succ
    · simp only [BreakerState.next, if_pos hreached]
      exact .inl rfl
    · refine .inr ⟨?_, Count.val_succ_of_lt hn⟩
      simp only [BreakerState.next, if_neg hreached]
  | success | probe => cases he

/-! ## Failures -/

/-- A closed breaker has counted `n` failures: as many as updates of any caller ended, and more than
that once the state that the caller looked at is replaced. -/
structure Counts (b : SharedBreaker ι) (done : ι → Nat) (n : Count) : Prop where
  closed : b.breaker.state = .closed n
  idle : ∀ c, b.pending c = none → done c ≤ n.val
  pending : ∀ c u, b.pending c = some u → ∃ m, u.state = .closed m ∧ done c ≤ m.val ∧
    (u.value = b.value ∧ m.val = n.val ∨ m.val < n.val)

/-- The breaker is open, or it has counted enough. -/
def KeepsUp (b : SharedBreaker ι) (done : ι → Nat) : Prop :=
  b.breaker.state.kind = .opened ∨ ∃ n, b.Counts done n

/-- All updates under way are about failures. -/
def OnlyFailures (b : SharedBreaker ι) : Prop := ∀ c u, b.pending c = some u → u.event.isFailure

theorem completed_self (c : ι) (e : BreakerEvent) (ending : UpdateEnd) :
    completed c [⟨c, e, ending⟩] = 1 := by
  simp [completed]

theorem completed_of_ne {d : ι} (h : d ≠ c) (e : BreakerEvent) (ending : UpdateEnd) :
    completed d [⟨c, e, ending⟩] = 0 := by
  simp [completed, h.symm]

omit [DecidableEq ι] in
theorem Counts.le {done : ι → Nat} {n : Count} (h : b.Counts done n) (c : ι) : done c ≤ n.val := by
  cases hc : b.pending c with
  | none => exact h.idle c hc
  | some u =>
    obtain ⟨m, -, hdone, hm⟩ := h.pending c u hc
    omega

theorem Counts.looks {done : ι → Nat} {n : Count} (h : b.Counts done n) (hc : b.pending c = none)
    (e : BreakerEvent) :
    { b with
      breaker := b.breaker.counted e
      pending := Function.update b.pending c (some ⟨e, b.value, b.breaker.state⟩) }.Counts
        done n where
  closed := (Breaker.state_counted ..).trans h.closed
  idle := by
    intro d hd
    by_cases hdc : d = c
    · exact h.idle d (hdc ▸ hc)
    · exact h.idle d ((Function.update_of_ne hdc _ _).symm.trans hd)
  pending := by
    intro d v hv
    rcases pending_of_update hv with ⟨rfl, hnew⟩ | ⟨-, hold⟩
    · obtain rfl := Option.some.inj hnew
      exact ⟨n, h.closed, h.idle d hc, .inl ⟨rfl, rfl⟩⟩
    · exact h.pending d v hold

/-- A caller settles an update, and the breaker has counted enough for it. -/
theorem Counts.settles {done done' : ι → Nat} {n n' : Count} (h : b.Counts done n)
    (hstate : b'.breaker.state = .closed n')
    (hpending : b'.pending = Function.update b.pending c none)
    (hn : b'.value = b.value ∧ n'.val = n.val ∨ n.val < n'.val) (hc : done' c ≤ n'.val)
    (hothers : ∀ d, d ≠ c → done' d = done d) : b'.Counts done' n' where
  closed := hstate
  idle := by
    intro d hd
    by_cases hdc : d = c
    · rwa [hdc]
    · rw [hpending, Function.update_of_ne hdc] at hd
      have hold := h.idle d hd
      rw [hothers d hdc]
      omega
  pending := by
    intro d v hv
    rw [hpending] at hv
    obtain ⟨hdc, hold⟩ := pending_of_forget hv
    obtain ⟨m, hm, hdone, hle⟩ := h.pending d v hold
    rw [hothers d hdc]
    exact ⟨m, hm, hdone, by omega⟩

/-- Failures that are counted one by one keep up with those of each caller. Who loses an update
loses it to one that was counted after it looked. -/
theorem Counts.moves {done done' : ι → Nat} {n : Count} (h : b.Counts done n) (hb : b.Consistent)
    (hfail : b.OnlyFailures) (hm : b.Moves s ended b')
    (hdone : ∀ d, done' d = done d + completed d ended) : b'.KeepsUp done' := by
  have hbelow := hb.below.1 n h.closed
  cases hm with
  | busy | idles =>
    obtain rfl : done' = done := funext hdone
    exact .inr ⟨n, h⟩
  | looks idle =>
    obtain rfl : done' = done := funext hdone
    exact .inr ⟨n, h.looks idle _⟩
  | @keeps c u pending same =>
    -- A failure changes the state of a closed breaker, so there is something to install.
    obtain ⟨m, hm, -, hle⟩ := h.pending c u pending
    have hfew : m.val < b.breaker.settings.failures.val := by omega
    rw [PendingUpdate.next, hm] at same
    rcases next_failure_of_closed hfew (hfail c u pending) with hopens | ⟨hnext, hsucc⟩
    · rw [same] at hopens
      cases hopens
    · rw [← BreakerState.closed.inj (same.symm.trans hnext)] at hsucc
      omega
  | @installs c u pending differs current =>
    obtain ⟨m, -, hle, hm⟩ := h.pending c u pending
    have hnext := hb.next_eq pending current
    rw [h.closed] at hnext
    rcases next_failure_of_closed hbelow (hfail c u pending) with hopens | ⟨hcounts, hsucc⟩
    · exact .inl (hnext ▸ hopens)
    · have hself := hdone c
      rw [completed_self] at hself
      refine .inr ⟨n.succ, h.settles (hnext.trans hcounts) rfl (.inr (by omega)) (by omega) ?_⟩
      exact fun d hd => (hdone d).trans (by rw [completed_of_ne hd, Nat.add_zero])
  | @drops c u pending differs stale =>
    obtain ⟨m, -, hle, hm⟩ := h.pending c u pending
    have hmore : m.val < n.val := hm.resolve_left fun hsame => stale hsame.1
    have hself := hdone c
    rw [completed_self] at hself
    refine .inr ⟨n, h.settles h.closed rfl (.inl ⟨rfl, rfl⟩) (by omega) ?_⟩
    exact fun d hd => (hdone d).trans (by rw [completed_of_ne hd, Nat.add_zero])

/-- Failures leave an open breaker open. -/
theorem Moves.opened (hb : b.Consistent) (hfail : b.OnlyFailures) (hm : b.Moves s ended b')
    (h : b.breaker.state.kind = .opened) : b'.breaker.state.kind = .opened := by
  cases hm with
  | looks idle => rwa [Breaker.state_counted]
  | installs pending differs current =>
    have hnext := hb.next_eq pending current
    rw [next_failure_of_opened h (hfail _ _ pending)] at hnext
    exact hnext ▸ h
  | _ => exact h

theorem OnlyFailures.after (h : b.OnlyFailures) (hs : ∀ c e, s = .look c e → e.isFailure) :
    (b.after s).OnlyFailures := by
  intro c u hu
  have hlooked : b.pending c = some u ∨ .look c u.event ∈ [s] := looked_of_pending hu
  rcases hlooked with hold | hnew
  · exact h c u hold
  · exact hs c u.event (List.mem_singleton.1 hnew).symm

theorem KeepsUp.afterAll {done done' : ι → Nat} {steps : List (Step ι)} (h : b.KeepsUp done)
    (hb : b.Consistent) (hfail : b.OnlyFailures)
    (hsteps : ∀ c e, .look c e ∈ steps → e.isFailure)
    (hdone : ∀ d, done' d = done d + completed d (b.log steps)) :
    (b.afterAll steps).KeepsUp done' := by
  induction steps generalizing b done with
  | nil =>
    obtain rfl : done' = done := funext hdone
    exact h
  | cons s rest ih =>
    have hmoves := b.moves_after s
    have hnext : (b.after s).KeepsUp fun d => done d + completed d (b.settled? s).toList := by
      rcases h with hopened | ⟨n, hn⟩
      · exact .inl (hmoves.opened hb hfail hopened)
      · exact hn.moves hb hfail hmoves fun _ => rfl
    refine ih hnext (hb.after s) (hfail.after fun c e he => hsteps c e (he ▸ List.mem_cons_self))
      (fun c e he => hsteps c e (List.mem_cons_of_mem _ he)) fun d => ?_
    rw [hdone, log, completed_append, Nat.add_assoc]

/-! ## All runs -/

/-- A breaker that nobody has used. -/
def new (name : String) (settings : BreakerSettings) : SharedBreaker ι where
  breaker := { name, settings }

omit [DecidableEq ι] in
theorem consistent_new (name : String) (settings : BreakerSettings) :
    (new name settings : SharedBreaker ι).Consistent where
  value := Nat.zero_lt_one
  seen := fun _ _ hu => nomatch hu
  state := fun _ _ hu => nomatch hu
  reached := ⟨[], rfl⟩

/-- A caller that nobody disturbs updates the breaker as one step would, and is told the state that
the breaker is in then. -/
theorem look_settle (hc : b.pending c = none) (e : BreakerEvent) :
    ((b.after (.look c e)).after (.settle c)).breaker = b.breaker.record e ∧
      ∃ u, (b.after (.look c e)).pending c = some u ∧
        (b.after (.look c e)).answer u = (b.breaker.record e).state := by
  let u : PendingUpdate := ⟨e, b.value, b.breaker.state⟩
  have hlook : b.after (.look c e) = { b with
      breaker := b.breaker.counted e
      pending := Function.update b.pending c (some u) } := by
    simp only [after, hc, u]
  have hu : (b.after (.look c e)).pending c = some u := by
    rw [hlook]
    exact Function.update_self ..
  have hnext : u.next (b.after (.look c e)).breaker.settings =
      b.breaker.state.next b.breaker.settings e := by
    rw [hlook, PendingUpdate.next, Breaker.settings_counted]
  have hvalue : u.value = (b.after (.look c e)).value := by rw [hlook]
  have hbreaker : (b.after (.look c e)).breaker = b.breaker.counted e := by rw [hlook]
  rw [Breaker.record_eq]
  generalize b.after (.look c e) = b₁ at hu hnext hvalue hbreaker
  by_cases hsame : b.breaker.state.next b.breaker.settings e = b.breaker.state
  · have hend : b₁.ending u = .unchanged := if_pos (hnext.trans hsame)
    refine ⟨?_, u, hu, ?_⟩
    · simp only [after, hu, hend, hbreaker, hsame]
      rw [← Breaker.state_counted b.breaker e]
    · simp only [answer, hend, hsame, u]
  · have hend : b₁.ending u = .installed := by
      rw [ending, hnext, if_neg hsame, if_pos hvalue]
    refine ⟨?_, u, hu, ?_⟩
    · simp only [after, hu, hend, hbreaker]
      rw [← hbreaker, hnext]
    · simp only [answer, hend, hnext]

/-- However callers take turns on a breaker: whatever is installed is the state after the one that
it replaces, by the event of some caller; an update is dropped only if another caller's was
installed between its two steps; so the state is that of a breaker which sees the installed events
one after another, and its counts stay below their thresholds; and if all events are failures, the
breaker is open once any caller has seen as many of its updates end as it takes. -/
theorem racing_updates (name : String) (settings : BreakerSettings) (steps : List (Step ι)) :
    let x : SharedBreaker ι := new name settings
    let b := x.afterAll steps
    let log := x.log steps
    (∀ s, (b.after s).value = b.value ∧ (b.after s).breaker.state = b.breaker.state ∨
      ∃ c u, s = .settle c ∧ b.pending c = some u ∧ .look c u.event ∈ steps ∧
        (b.after s).breaker.state = b.breaker.state.next settings u.event) ∧
    (∀ l c e m, steps = l ++ .look c e :: m → (x.afterAll l).pending c = none → .settle c ∉ m →
      b.endingOf c = some .dropped →
        ∃ m₁ d m₂, m = m₁ ++ .settle d :: m₂ ∧ d ≠ c ∧
          (x.afterAll (l ++ .look c e :: m₁)).endingOf d = some .installed) ∧
    b.breaker.state = .after settings (installed log) ∧
    (∀ n, b.breaker.state = .closed n → n.val < settings.failures.val) ∧
    (∀ n, b.breaker.state = .halfOpen n → n.val < settings.successes.val) ∧
    ((∀ c e, .look c e ∈ steps → e.isFailure) →
      ∀ c, settings.failures.val ≤ completed c log → b.breaker.kind = .opened) := by
  intro x b log
  have hx : x.Consistent := consistent_new name settings
  have hb : b.Consistent := hx.afterAll steps
  have hsettings : b.breaker.settings = settings := settings_afterAll x steps
  have hbelow := hb.below
  rw [hsettings] at hbelow
  refine ⟨fun s => ?installs, fun l c e m hsplit hidle hm hdropped => ?dropped,
    state_afterAll hx steps, hbelow.1, hbelow.2, fun hfail c hmany => ?opened⟩
  case installs =>
    rcases hb.value_after s with hsame | ⟨c, u, hs, hu, -, hnext⟩
    · exact .inl hsame
    · rw [hsettings] at hnext
      exact .inr ⟨c, u, hs, hu, (looked_of_pending hu).resolve_left nofun, hnext⟩
  case dropped =>
    have hafter : b = (x.afterAll l).afterAll (.look c e :: m) := by
      rw [← afterAll_append, ← hsplit]
    rw [hafter] at hdropped
    obtain ⟨m₁, d, m₂, hm, hd, hinstalled⟩ :=
      (hx.afterAll l).installed_of_dropped hidle hm hdropped
    exact ⟨m₁, d, m₂, hm, hd, by rwa [afterAll_append]⟩
  case opened =>
    have hstart : x.KeepsUp fun _ => 0 :=
      .inr ⟨0, rfl, fun _ _ => Nat.zero_le _, fun _ _ hu => nomatch hu⟩
    have hquiet : x.OnlyFailures := fun _ _ hu => nomatch hu
    have hkeeps : b.KeepsUp fun d => completed d log :=
      hstart.afterAll hx hquiet hfail fun d => (Nat.zero_add _).symm
    rcases hkeeps with hopened | ⟨n, hcounts⟩
    · exact hopened
    · have hle := hcounts.le c
      have hlt := hbelow.1 n hcounts.closed
      omega

/-- Two callers look at the same state, and the update of the one that settles last is lost. -/
example :
    let b := (new "storage" .default : SharedBreaker Bool).afterAll
      [.look false (.failure (.ofMillis 1)), .look true (.failure (.ofMillis 2)), .settle true,
        .settle false]
    b.breaker.state = .closed 1 ∧ b.breaker.totalFailures = 2 := by
  decide

end SharedBreaker

end JobEngine
