-- SUMMARY: The state of a breaker, read off the whole history of its events.
import JobEngine.Breaker.State
import JobEngine.Proofs.Time.Saturation
import Mathlib.Data.List.Induction

/-!
# The history of a breaker

A breaker keeps one number or one time, whatever happened to it. Here that datum is read off the
history of its events: how many failures came since the count last began anew, how many successes
since the probe that made it half-open, or which failure opened it. Times may come in any order.
-/

namespace JobEngine

namespace BreakerEvent

def isFailure : BreakerEvent → Bool
  | .failure _ => true
  | _ => false

def isSuccess : BreakerEvent → Bool
  | .success => true
  | _ => false

end BreakerEvent

namespace BreakerState

variable {settings : BreakerSettings} {history past recent : List BreakerEvent} {e : BreakerEvent}

/-- The state of a new breaker after a history of events, oldest first. -/
def after (settings : BreakerSettings) (history : List BreakerEvent) : BreakerState :=
  history.foldl (next settings) .initial

theorem after_concat : after settings (history ++ [e]) = (after settings history).next settings e :=
  List.foldl_append

def failureCount (l : List BreakerEvent) : Nat := l.countP BreakerEvent.isFailure
def successCount (l : List BreakerEvent) : Nat := l.countP BreakerEvent.isSuccess

@[simp] theorem failureCount_append (l m : List BreakerEvent) :
    failureCount (l ++ m) = failureCount l + failureCount m :=
  List.countP_append

@[simp] theorem successCount_append (l m : List BreakerEvent) :
    successCount (l ++ m) = successCount l + successCount m :=
  List.countP_append

/-! ## Moments of a history -/

/-- With its last event, a history brings the breaker to a state of another kind, `k`. -/
inductive Enters (settings : BreakerSettings) (k : CircuitKind) : List BreakerEvent → Prop where
  | intro {past : List BreakerEvent} {e : BreakerEvent} (before : (after settings past).kind ≠ k)
    (now : (after settings (past ++ [e])).kind = k) : Enters settings k (past ++ [e])

/-- The count of failures begins anew: at the start, with a success while the breaker is closed, and
when the breaker closes. -/
inductive CountsAnew (settings : BreakerSettings) : List BreakerEvent → Prop where
  | start : CountsAnew settings []
  | success {past : List BreakerEvent} (closed : (after settings past).kind = .closed) :
    CountsAnew settings (past ++ [.success])
  | closing {past : List BreakerEvent} (closes : Enters settings .closed past) :
    CountsAnew settings past

/-- `past` is the last moment of a history at which `P` holds, and `recent` is what came after it. -/
structure SinceLast (P : List BreakerEvent → Prop) (past recent : List BreakerEvent) : Prop where
  holds : P past
  none_since : ∀ l, l ≠ [] → l <+: recent → ¬ P (past ++ l)

theorem SinceLast.now {P : List BreakerEvent → Prop} (h : P history) : SinceLast P history [] where
  holds := h
  none_since := by
    intro l hl hprefix
    exact absurd (List.prefix_nil.1 hprefix) hl

theorem SinceLast.concat {P : List BreakerEvent → Prop} (h : SinceLast P past recent)
    (hnot : ¬ P (past ++ recent ++ [e])) : SinceLast P past (recent ++ [e]) where
  holds := h.holds
  none_since := by
    intro l hl hprefix
    rcases List.prefix_concat_iff.1 hprefix with rfl | hprefix
    · rwa [← List.append_assoc]
    · exact h.none_since l hl hprefix

theorem not_enters {k : CircuitKind} (h : (after settings history).kind = k) :
    ¬ Enters settings k (history ++ [e]) := by
  intro hk
  generalize heq : history ++ [e] = l at hk
  cases hk with
  | intro before now =>
    obtain ⟨rfl, -⟩ := List.append_inj' heq rfl
    exact before h

/-- While the breaker is closed, only a success makes the count of failures begin anew. -/
theorem not_countsAnew (h : (after settings history).kind = .closed) (he : e ≠ .success) :
    ¬ CountsAnew settings (history ++ [e]) := by
  intro hk
  generalize heq : history ++ [e] = l at hk
  cases hk with
  | start => simp at heq
  | success closed =>
    obtain ⟨-, hlast⟩ := List.append_inj' heq rfl
    exact he (List.singleton_inj.1 hlast)
  | closing closes => exact not_enters h (heq ▸ closes)

/-! ## What the states mean -/

/-- `n` failures came since the count of failures last began anew. -/
def FailedSince (settings : BreakerSettings) (history : List BreakerEvent) (n : Nat) : Prop :=
  ∃ past recent, history = past ++ recent ∧ SinceLast (CountsAnew settings) past recent ∧
    failureCount recent = n

/-- `n` successes and no failure came since the probe that last made the breaker half-open. -/
def ProbedSince (settings : BreakerSettings) (history : List BreakerEvent) (n : Nat) : Prop :=
  ∃ past now recent, history = past ++ .probe now :: recent ∧
    SinceLast (Enters settings .halfOpen) (past ++ [.probe now]) recent ∧
    failureCount recent = 0 ∧ successCount recent = n

/-- A failure opens the breaker after `past`: it is the last one in a row that a closed breaker
takes, or the first one since the breaker is half-open. -/
def Trips (settings : BreakerSettings) (past : List BreakerEvent) : Prop :=
  ((after settings past).kind = .closed ∧
      ∃ n, FailedSince settings past n ∧ n + 1 = settings.failures.val) ∨
    ((after settings past).kind = .halfOpen ∧ ∃ n, ProbedSince settings past n)

/-- The last opening was by a failure at `time`, and no probe since came after the retry timeout. -/
def OpenedAt (settings : BreakerSettings) (history : List BreakerEvent) (time : Instant) : Prop :=
  ∃ past recent, history = past ++ .failure time :: recent ∧
    SinceLast (Enters settings .opened) (past ++ [.failure time]) recent ∧ Trips settings past ∧
    ∀ now, .probe now ∈ recent → now.nanos ≤ time.nanos + settings.retryTimeout.nanos

theorem FailedSince.now (h : CountsAnew settings history) : FailedSince settings history 0 :=
  ⟨history, [], (List.append_nil _).symm, .now h, rfl⟩

theorem FailedSince.concat {n : Nat} (h : FailedSince settings history n)
    (hclosed : (after settings history).kind = .closed) (he : e ≠ .success) :
    FailedSince settings (history ++ [e]) (n + failureCount [e]) := by
  obtain ⟨past, recent, rfl, hsince, rfl⟩ := h
  refine ⟨past, recent ++ [e], List.append_assoc .., ?_, failureCount_append ..⟩
  exact hsince.concat (not_countsAnew hclosed he)

theorem ProbedSince.now {time : Instant} (hbefore : (after settings history).kind ≠ .halfOpen)
    (hnow : (after settings (history ++ [.probe time])).kind = .halfOpen) :
    ProbedSince settings (history ++ [.probe time]) 0 :=
  ⟨history, time, [], rfl, .now ⟨hbefore, hnow⟩, rfl, rfl⟩

theorem ProbedSince.concat {n : Nat} (h : ProbedSince settings history n)
    (hhalf : (after settings history).kind = .halfOpen) (he : failureCount [e] = 0) :
    ProbedSince settings (history ++ [e]) (n + successCount [e]) := by
  obtain ⟨past, now, recent, rfl, hsince, hnone, rfl⟩ := h
  refine ⟨past, now, recent ++ [e], by simp, ?_, by simp [hnone, he], successCount_append ..⟩
  apply hsince.concat
  have hnot := not_enters (e := e) hhalf
  simpa using hnot

theorem OpenedAt.now {time : Instant} (h : Trips settings history)
    (hnow : (after settings (history ++ [.failure time])).kind = .opened) :
    OpenedAt settings (history ++ [.failure time]) time := by
  have hbefore : (after settings history).kind ≠ .opened := by
    rcases h with ⟨hkind, -⟩ | ⟨hkind, -⟩ <;> simp [hkind]
  exact ⟨history, [], rfl, .now ⟨hbefore, hnow⟩, h, by simp⟩

theorem OpenedAt.concat {time : Instant} (h : OpenedAt settings history time)
    (hopened : (after settings history).kind = .opened)
    (he : ∀ now, e = .probe now → now.nanos ≤ time.nanos + settings.retryTimeout.nanos) :
    OpenedAt settings (history ++ [e]) time := by
  obtain ⟨past, recent, rfl, hsince, htrips, hprobes⟩ := h
  refine ⟨past, recent ++ [e], by simp, ?_, htrips, ?_⟩
  · apply hsince.concat
    have hnot := not_enters (e := e) hopened
    simpa using hnot
  · intro now hmem
    rcases List.mem_append.1 hmem with hold | hnew
    · exact hprobes now hold
    · exact he now (List.mem_singleton.1 hnew).symm

/-! ## Runs -/

/-- The datum of a state is the one that the history gives. -/
def Explained (settings : BreakerSettings) (history : List BreakerEvent) : BreakerState → Prop
  | .closed failures =>
    FailedSince settings history failures.val ∧ failures.val < settings.failures.val
  | .halfOpen successes =>
    ProbedSince settings history successes.val ∧ successes.val < settings.successes.val
  | .opened time => OpenedAt settings history time

theorem Explained.closed {s : BreakerState} (hs : after settings history = s)
    (hkind : s.kind = .closed) (h : Explained settings history s) (e : BreakerEvent) :
    Explained settings (history ++ [e]) (s.next settings e) := by
  have hclosed : (after settings history).kind = .closed := by rw [hs, hkind]
  cases s with
  | opened time => cases hkind
  | halfOpen n => cases hkind
  | closed n =>
    obtain ⟨hfailed, hbelow⟩ := h
    cases e with
    | success => exact ⟨.now (.success hclosed), settings.failures_pos⟩
    | probe now => exact ⟨hfailed.concat hclosed (by simp), hbelow⟩
    | failure time =>
      have hcount := Count.val_succ_of_lt hbelow
      have hnow : after settings (history ++ [.failure time]) =
          (BreakerState.closed n).next settings (.failure time) := by rw [after_concat, hs]
      simp only [next] at hnow ⊢
      split at hnow
      · rename_i hreached
        have hlast : settings.failures.val ≤ n.succ.val := hreached
        rw [if_pos hreached]
        refine OpenedAt.now (.inl ⟨hclosed, n.val, hfailed, by omega⟩) ?_
        rw [hnow]
        rfl
      · rename_i hfewer
        have hmore : ¬ settings.failures.val ≤ n.succ.val := hfewer
        rw [if_neg hfewer]
        refine ⟨?_, by omega⟩
        rw [hcount]
        exact hfailed.concat hclosed (by simp)

theorem Explained.halfOpen {s : BreakerState} (hs : after settings history = s)
    (hkind : s.kind = .halfOpen) (h : Explained settings history s) (e : BreakerEvent) :
    Explained settings (history ++ [e]) (s.next settings e) := by
  have hhalf : (after settings history).kind = .halfOpen := by rw [hs, hkind]
  cases s with
  | opened time => cases hkind
  | closed n => cases hkind
  | halfOpen n =>
    obtain ⟨hprobed, hbelow⟩ := h
    cases e with
    | failure time =>
      refine OpenedAt.now (.inr ⟨hhalf, n.val, hprobed⟩) ?_
      rw [after_concat, hs]
      rfl
    | probe now => exact ⟨hprobed.concat hhalf rfl, hbelow⟩
    | success =>
      have hcount := Count.val_succ_of_lt hbelow
      have hnow : after settings (history ++ [.success]) =
          (BreakerState.halfOpen n).next settings .success := by rw [after_concat, hs]
      simp only [next] at hnow ⊢
      split at hnow
      · rename_i hreached
        rw [if_pos hreached]
        have hcloses : Enters settings .closed (history ++ [.success]) :=
          ⟨by simp [hhalf], by rw [hnow]; rfl⟩
        exact ⟨.now (.closing hcloses), settings.failures_pos⟩
      · rename_i hfewer
        have hmore : ¬ settings.successes.val ≤ n.succ.val := hfewer
        rw [if_neg hfewer]
        refine ⟨?_, by omega⟩
        rw [hcount]
        exact hprobed.concat hhalf rfl

theorem Explained.opened {s : BreakerState} (hs : after settings history = s)
    (hkind : s.kind = .opened) (h : Explained settings history s) (e : BreakerEvent) :
    Explained settings (history ++ [e]) (s.next settings e) := by
  have hopened : (after settings history).kind = .opened := by rw [hs, hkind]
  cases s with
  | halfOpen n => cases hkind
  | closed n => cases hkind
  | opened time =>
    cases e with
    | success => exact OpenedAt.concat h hopened (by simp)
    | failure time' => exact OpenedAt.concat h hopened (by simp)
    | probe now =>
      have hnow : after settings (history ++ [.probe now]) =
          (BreakerState.opened time).next settings (.probe now) := by rw [after_concat, hs]
      simp only [next] at hnow ⊢
      split at hnow
      · rename_i hpassed
        rw [if_pos hpassed]
        exact ⟨.now (by simp [hopened]) (by rw [hnow]; rfl), settings.successes_pos⟩
      · rename_i hearly
        rw [if_neg hearly]
        rw [Instant.add_lt_iff] at hearly
        refine OpenedAt.concat h hopened fun probed heq => ?_
        obtain rfl := BreakerEvent.probe.inj heq
        omega

theorem explained (settings : BreakerSettings) (history : List BreakerEvent) :
    Explained settings history (after settings history) := by
  induction history using List.reverseRecOn with
  | nil => exact ⟨.now .start, settings.failures_pos⟩
  | append_singleton history e ih =>
    rw [after_concat]
    cases hkind : (after settings history).kind with
    | closed => exact ih.closed rfl hkind e
    | halfOpen => exact ih.halfOpen rfl hkind e
    | opened => exact ih.opened rfl hkind e

/-- What the state of a breaker says about all that happened to it. -/
theorem state_of_history (settings : BreakerSettings) (history : List BreakerEvent) :
    (∀ failures, after settings history = .closed failures →
      FailedSince settings history failures.val ∧ failures.val < settings.failures.val) ∧
    (∀ successes, after settings history = .halfOpen successes →
      ProbedSince settings history successes.val ∧ successes.val < settings.successes.val) ∧
    ∀ time, after settings history = .opened time → OpenedAt settings history time := by
  have h := explained settings history
  refine ⟨?closed, ?halfOpen, ?opened⟩
  case closed =>
    intro failures hs
    rwa [hs] at h
  case halfOpen =>
    intro successes hs
    rwa [hs] at h
  case opened =>
    intro time hs
    rwa [hs] at h

/-- The failure that opened the breaker need not be the latest one. -/
example : after .default ([900, 800, 700, 600, 500].map fun n => .failure (.ofMillis n)) =
    .opened (.ofMillis 500) := by
  decide

end BreakerState

end JobEngine
