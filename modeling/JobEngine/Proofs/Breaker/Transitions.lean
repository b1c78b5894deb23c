-- SUMMARY: The counts of a breaker's moves and its gauge tell where the breaker is.
import JobEngine.Proofs.Breaker.History
import JobEngine.Proofs.Engine.Attempts
import JobEngine.Proofs.Telemetry.Metrics

/-!
# Moves of a breaker on the metrics

Each move of a breaker to a state of another kind is counted and shown on a gauge; changes within a
state are not. A breaker moves in a circle, but for the way back from half-open to open. So whether
it is open or half-open now can be told from the counts alone, and the gauge shows where the last move
went.
-/

namespace JobEngine

/-! ## Moves within a history -/

namespace BreakerState

variable {settings : BreakerSettings} {s : BreakerState} {history l m : List BreakerEvent}

/-- Which way a breaker can move, and which event moves it. -/
theorem kind_next_cases (settings : BreakerSettings) (s : BreakerState) (e : BreakerEvent) :
    (s.next settings e).kind = s.kind ∨
      (s.kind = .closed ∧ e.isFailure = true ∧ (s.next settings e).kind = .opened) ∨
      (s.kind = .opened ∧ e.isFailure = false ∧ (s.next settings e).kind = .halfOpen) ∨
      (s.kind = .halfOpen ∧ e.isFailure = false ∧ (s.next settings e).kind = .closed) ∨
      (s.kind = .halfOpen ∧ e.isFailure = true ∧ (s.next settings e).kind = .opened) := by
  cases s <;> cases e <;> simp only [next] <;> (try split) <;> simp [kind, BreakerEvent.isFailure]

/-- A kind of move: where it begins, which event makes it, and where it ends. -/
abbrev Move := CircuitKind → BreakerEvent → CircuitKind → Bool

/-- How many events of a history, beginning from `s`, make a move of the kind `p`. -/
def moves (settings : BreakerSettings) (p : Move) : BreakerState → List BreakerEvent → Nat
  | _, [] => 0
  | s, e :: rest =>
    (p s.kind e (s.next settings e).kind).toNat + moves settings p (s.next settings e) rest

namespace Move

/-- The breaker comes to kind `k` from another one. -/
def into (k : CircuitKind) : Move := fun before _ after => before ≠ k && after = k

/-- A failure opens the breaker again while it is half-open. -/
def reopening : Move := fun before e after => before = .halfOpen && e.isFailure && after = .opened

/-- The breaker comes to another kind. -/
def any : Move := fun before _ after => before ≠ after

def never : Move := fun _ _ _ => false

end Move

theorem moves_never : moves settings .never s history = 0 := by
  induction history generalizing s with
  | nil => rfl
  | cons e rest ih => exact (Nat.zero_add _).trans ih

theorem moves_append {p : Move} :
    moves settings p s (l ++ m) =
      moves settings p s l + moves settings p (l.foldl (next settings) s) m := by
  induction l generalizing s with
  | nil => exact (Nat.zero_add _).symm
  | cons e rest ih =>
    rw [List.cons_append, moves, moves, ih, Nat.add_assoc]
    rfl

theorem moves_mono {p q : Move} (hpq : ∀ before e after, p before e after → q before e after) :
    moves settings p s history ≤ moves settings q s history := by
  induction history generalizing s with
  | nil => exact Nat.le_refl _
  | cons e rest ih =>
    have hfirst : (p s.kind e (s.next settings e).kind).toNat ≤
        (q s.kind e (s.next settings e).kind).toNat := by
      have himp := hpq s.kind e (s.next settings e).kind
      revert himp
      cases p s.kind e (s.next settings e).kind <;> cases q s.kind e (s.next settings e).kind <;> decide
    exact Nat.add_le_add hfirst ih

theorem kind_of_moves_any_eq_zero (h : moves settings .any s history = 0) :
    (history.foldl (next settings) s).kind = s.kind := by
  induction history generalizing s with
  | nil => rfl
  | cons e rest ih =>
    rw [moves, Nat.add_eq_zero_iff] at h
    have hsame : s.kind = (s.next settings e).kind := by simpa [Move.any] using h.1
    rw [List.foldl_cons, ih h.2, hsame]

/-- One if the state is of kind `k`. -/
def indicator (k : CircuitKind) (s : BreakerState) : Int := if s.kind = k then 1 else 0

/-- Kinds of moves that balance in every event balance over every history. -/
theorem moves_balance {p q r : Move} {k : CircuitKind}
    (hstep : ∀ s e, ((p s.kind e (s.next settings e).kind).toNat : Int) =
      (q s.kind e (s.next settings e).kind).toNat + (r s.kind e (s.next settings e).kind).toNat +
        (indicator k (s.next settings e) - indicator k s))
    (s : BreakerState) (history : List BreakerEvent) :
    (moves settings p s history : Int) =
      moves settings q s history + moves settings r s history +
        (indicator k (history.foldl (next settings) s) - indicator k s) := by
  induction history generalizing s with
  | nil => simp [moves]
  | cons e rest ih =>
    have hfirst := hstep s e
    have hrest := ih (s.next settings e)
    simp only [moves, List.foldl_cons, Int.natCast_add]
    omega

/-- An open breaker can only become half-open, and it is the only one that can. -/
theorem moves_into_opened (settings : BreakerSettings) (s : BreakerState)
    (history : List BreakerEvent) :
    (moves settings (.into .opened) s history : Int) = moves settings (.into .halfOpen) s history +
      (indicator .opened (history.foldl (next settings) s) - indicator .opened s) := by
  have hbalance : (moves settings (.into .opened) s history : Int) =
      moves settings (.into .halfOpen) s history + moves settings .never s history +
        (indicator .opened (history.foldl (next settings) s) - indicator .opened s) := by
    refine moves_balance (fun s e => ?_) s history
    rcases kind_next_cases settings s e with h | ⟨h, -, h'⟩ | ⟨h, -, h'⟩ | ⟨h, -, h'⟩ | ⟨h, -, h'⟩
    · rw [indicator, indicator, h]
      cases s.kind <;> rfl
    all_goals
      rw [indicator, indicator, h, h']
      rfl
  rw [moves_never] at hbalance
  exact hbalance.trans (by rw [Int.natCast_zero, Int.add_zero])

/-- A half-open breaker closes or is opened again. -/
theorem moves_into_halfOpen (settings : BreakerSettings) (s : BreakerState)
    (history : List BreakerEvent) :
    (moves settings (.into .halfOpen) s history : Int) =
      moves settings (.into .closed) s history + moves settings .reopening s history +
        (indicator .halfOpen (history.foldl (next settings) s) - indicator .halfOpen s) := by
  refine moves_balance (fun s e => ?_) s history
  -- An event that leaves the kind alone counts on neither side.
  rcases kind_next_cases settings s e with h | ⟨h, he, h'⟩ | ⟨h, he, h'⟩ | ⟨h, he, h'⟩ | ⟨h, he, h'⟩
  · rw [indicator, indicator, h]
    cases s.kind <;> simp [Move.into, Move.reopening]
  all_goals
    rw [indicator, indicator, h, h']
    simp [Move.into, Move.reopening, he]

end BreakerState

/-! ## Moves on the metrics -/

namespace EngineState

variable {α : Type} {s t u : EngineState} {history later : List BreakerEvent}

/-- The moves of the breaker to kind `k` that were counted. -/
def transitions (s : EngineState) (k : CircuitKind) : Nat :=
  s.metrics.count (.breakerTransitions k)

/-- The breaker goes through a history of events on the way from `s` to `t`, and its moves are on the
metrics. -/
structure Follows (s t : EngineState) (history : List BreakerEvent) : Prop where
  settings : t.breaker.settings = s.breaker.settings
  state : t.breaker.state = history.foldl (BreakerState.next s.breaker.settings) s.breaker.state
  transitions : ∀ k, t.transitions k =
    s.transitions k + BreakerState.moves s.breaker.settings (.into k) s.breaker.state history
  gauge : t.metrics.level? .breakerState =
    if BreakerState.moves s.breaker.settings .any s.breaker.state history = 0 then
      s.metrics.level? .breakerState
    else some (Metrics.circuitLevel t.breaker.kind)

theorem Follows.trans (h : Follows s t history) (h' : Follows t u later) :
    Follows s u (history ++ later) := by
  have hsettings := h.settings
  have hmoves (p : BreakerState.Move) : BreakerState.moves s.breaker.settings p s.breaker.state
      (history ++ later) = BreakerState.moves s.breaker.settings p s.breaker.state history +
        BreakerState.moves t.breaker.settings p t.breaker.state later := by
    rw [BreakerState.moves_append, h.state, hsettings]
  constructor
  case settings => rw [h'.settings, hsettings]
  case state => rw [h'.state, h.state, hsettings, List.foldl_append]
  case transitions =>
    intro k
    rw [h'.transitions, h.transitions, hmoves, Nat.add_assoc]
  case gauge =>
    rw [h'.gauge, hmoves]
    -- Without a later move the gauge stays where the earlier moves put it, and so does the kind.
    by_cases hlater : BreakerState.moves t.breaker.settings .any t.breaker.state later = 0
    · have hkind : u.breaker.kind = t.breaker.kind := by
        rw [Breaker.kind, h'.state]
        exact BreakerState.kind_of_moves_any_eq_zero hlater
      rw [if_pos hlater, h.gauge, hlater, Nat.add_zero, hkind]
    · rw [if_neg hlater, if_neg (by omega)]

/-- What leaves the breaker's state and its series alone. -/
theorem follows_nil (hsettings : t.breaker.settings = s.breaker.settings)
    (hstate : t.breaker.state = s.breaker.state) (hcount : ∀ k, t.transitions k = s.transitions k)
    (hlevel : t.metrics.level? .breakerState = s.metrics.level? .breakerState) :
    Follows s t [] :=
  ⟨hsettings, hstate, hcount, hlevel⟩

theorem follows_recordError (s : EngineState) (e : EngineError) : Follows s (s.recordError e) [] :=
  follows_nil rfl rfl (fun k => s.metrics.count_recordError e (.breakerTransitions k)) rfl

theorem metrics_moveBreaker (s : EngineState) (f : Breaker → Breaker) :
    (s.moveBreaker f).metrics = if s.breaker.kind = (f s.breaker).kind then s.metrics
      else s.metrics.recordTransition (f s.breaker).kind := by
  simp only [moveBreaker, Breaker.movedTo?]
  split
  · rename_i hkind
    split at hkind
    · cases hkind
    · obtain rfl := Option.some.inj hkind
      rw [if_neg (by assumption)]
  · rename_i hkind
    split at hkind
    · rw [if_pos (by assumption)]
    · cases hkind

/-- A breaker that takes an event reports where it moved to, if it moved. -/
theorem follows_moveBreaker {f : Breaker → Breaker} {e : BreakerEvent}
    (hsettings : (f s.breaker).settings = s.breaker.settings)
    (hstate : (f s.breaker).state = s.breaker.state.next s.breaker.settings e) :
    Follows s (s.moveBreaker f) [e] := by
  have hmetrics := s.metrics_moveBreaker f
  have hmoves (p : BreakerState.Move) :
      BreakerState.moves s.breaker.settings p s.breaker.state [e] =
        (p s.breaker.kind e (f s.breaker).kind).toNat := by
    rw [Breaker.kind, Breaker.kind, hstate]
    rfl
  refine ⟨hsettings, hstate, fun k => ?_, ?_⟩
  · rw [transitions, hmetrics, hmoves]
    by_cases hkind : s.breaker.kind = (f s.breaker).kind
    · rw [if_pos hkind, ← hkind]
      simp [transitions, BreakerState.Move.into]
    · rw [if_neg hkind, Metrics.count_recordTransition]
      by_cases hk : (f s.breaker).kind = k
      · subst hk
        simp [transitions, BreakerState.Move.into, hkind]
      · simp [transitions, BreakerState.Move.into, hk, Ne.symm hk]
  · rw [hmetrics, hmoves]
    by_cases hkind : s.breaker.kind = (f s.breaker).kind
    · simp [BreakerState.Move.any, hkind]
    · rw [if_neg hkind, Metrics.level?_recordTransition]
      simp only [BreakerState.Move.any, hkind, ne_eq, not_false_eq_true, decide_true, Bool.toNat_true,
        Nat.one_ne_zero, if_false]
      rfl

theorem follows_available (s : EngineState) : Follows s s.available.2 [.probe s.now] :=
  @follows_moveBreaker s (·.probe s.now) _ rfl rfl

theorem follows_recordSuccess (s : EngineState) : Follows s s.recordSuccess [.success] :=
  @follows_moveBreaker s (·.recordSuccess) _ rfl rfl

theorem follows_recordFailure (s : EngineState) : Follows s s.recordFailure [.failure s.now] :=
  @follows_moveBreaker s (·.recordFailure s.now) _ rfl rfl

/-! ## Operations on a breaker -/

/-- The same state at another time. -/
def setClock (s : EngineState) (now : Instant) : EngineState := { s with now }

end EngineState

/-- What callers do with a breaker, and what the clock shows them. A call that is made may take its
time before its outcome is recorded. -/
inductive BreakerCall : Type 1 where
  | isAvailable (now : Instant)
  | recordSuccess
  | recordFailure (now : Instant)
  | apply {α : Type} (call : Backend → Except EngineError α × Backend) (ended : Instant)
  | call {α : Type} (asked : Instant) (call : Backend → Except EngineError α × Backend)
    (ended : Instant)

/-- What a breaker takes for the outcome of a call. -/
def BreakerEvent.ofOutcome {α : Type} (ended : Instant) : Except EngineError α → BreakerEvent
  | .ok _ => .success
  | .error _ => .failure ended

namespace EngineState

variable {α : Type} {s t u : EngineState}

/-- The state after an operation. -/
def afterCall (s : EngineState) : BreakerCall → EngineState
  | .isAvailable now => (s.setClock now).available.2
  | .recordSuccess => s.recordSuccess
  | .recordFailure now => (s.setClock now).recordFailure
  | .apply call ended => ((s.setClock ended).applied call).2
  | @BreakerCall.call α asked call ended =>
    match (s.setClock asked).available with
    | (true, t) => ((t.setClock ended).applied call).2
    | (false, t) => (t.refused (α := α)).2

/-- The events that the breaker takes in an operation. -/
def observed (s : EngineState) : BreakerCall → List BreakerEvent
  | .isAvailable now => [.probe now]
  | .recordSuccess => [.success]
  | .recordFailure now => [.failure now]
  | .apply call ended => [.ofOutcome ended (call s.backend).1]
  | .call asked call ended =>
    if (s.breaker.probe asked).isAvailable then [.probe asked, .ofOutcome ended (call s.backend).1]
    else [.probe asked]

/-- A storage call of the engine takes no time. -/
theorem guarded_eq_afterCall (s : EngineState) (call : Backend → Except EngineError α × Backend) :
    (s.guarded call).2 = s.afterCall (.call s.now call s.now) := by
  simp only [guarded, afterCall]
  rcases h : s.available with ⟨_ | _, t⟩
  · rw [show s.setClock s.now = s from rfl, h]
  · obtain rfl : _ = t := congrArg Prod.snd h
    rw [show s.setClock s.now = s from rfl, h]
    rfl

theorem follows_setClock (s : EngineState) (now : Instant) : Follows s (s.setClock now) [] :=
  follows_nil rfl rfl (fun _ => rfl) rfl

theorem follows_applied (s : EngineState) (call : Backend → Except EngineError α × Backend) :
    Follows s (s.applied call).2 [.ofOutcome s.now (call s.backend).1] := by
  unfold applied
  split
  · rename_i a b hcall
    rw [hcall]
    have hbackend : Follows s { s with backend := b } [] := follows_nil rfl rfl (fun _ => rfl) rfl
    exact hbackend.trans (follows_recordSuccess _)
  · rename_i e b hcall
    rw [hcall]
    have hbackend : Follows s { s with backend := b } [] := follows_nil rfl rfl (fun _ => rfl) rfl
    exact hbackend.trans ((follows_recordError _ e).trans (follows_recordFailure _))

theorem follows_refused (s : EngineState) : Follows s (s.refused (α := α)).2 [] := by
  have hcounted : Follows s { s with breaker := s.breaker.recordRejection } [] :=
    follows_nil rfl rfl (fun _ => rfl) rfl
  exact hcounted.trans (follows_recordError _ _)

theorem follows_afterCall (s : EngineState) (c : BreakerCall) :
    Follows s (s.afterCall c) (s.observed c) := by
  cases c with
  | isAvailable now => exact (follows_setClock s now).trans (follows_available _)
  | recordSuccess => exact follows_recordSuccess s
  | recordFailure now => exact (follows_setClock s now).trans (follows_recordFailure _)
  | apply call ended => exact (follows_setClock s ended).trans (follows_applied _ call)
  | @call α asked call ended =>
    have hprobe := (follows_setClock s asked).trans (follows_available _)
    simp only [afterCall, observed]
    split
    · rename_i t hpasses
      have havailable : (s.breaker.probe asked).isAvailable = true := congrArg Prod.fst hpasses
      obtain rfl : _ = t := congrArg Prod.snd hpasses
      rw [if_pos havailable]
      exact hprobe.trans ((follows_setClock _ ended).trans (follows_applied _ call))
    · rename_i t hpasses
      have havailable : (s.breaker.probe asked).isAvailable = false := congrArg Prod.fst hpasses
      obtain rfl : _ = t := congrArg Prod.snd hpasses
      rw [if_neg (by simp [havailable])]
      exact hprobe.trans (follows_refused _)

/-- The state after operations, one after another. -/
def afterCalls (s : EngineState) : List BreakerCall → EngineState
  | [] => s
  | c :: rest => (s.afterCall c).afterCalls rest

/-- All events that the breaker takes in operations. -/
def history (s : EngineState) : List BreakerCall → List BreakerEvent
  | [] => []
  | c :: rest => s.observed c ++ (s.afterCall c).history rest

theorem follows_afterCalls (s : EngineState) (calls : List BreakerCall) :
    Follows s (s.afterCalls calls) (s.history calls) := by
  induction calls generalizing s with
  | nil => exact follows_nil rfl rfl (fun _ => rfl) rfl
  | cons c rest ih => exact (follows_afterCall s c).trans (ih _)

/-! ## What the metrics tell -/

/-- A new breaker takes its place. -/
def withNewBreaker (s : EngineState) (name : String) (settings : BreakerSettings) : EngineState :=
  { s with breaker := { name, settings } }

/-- The counts of a breaker's moves since `s`, when it was new, and its gauge tell where it is at
`t`, after a history. -/
structure TellsState (s t : EngineState) (history : List BreakerEvent) : Prop where
  state : t.breaker.state = BreakerState.after s.breaker.settings history
  opened : ((t.transitions .opened : Int) - s.transitions .opened) -
      (t.transitions .halfOpen - s.transitions .halfOpen) =
    if t.breaker.kind = .opened then 1 else 0
  halfOpen : ((t.transitions .halfOpen : Int) - s.transitions .halfOpen) -
      (t.transitions .closed - s.transitions .closed) -
      BreakerState.moves s.breaker.settings .reopening .initial history =
    if t.breaker.kind = .halfOpen then 1 else 0
  gauge : (∃ k, t.transitions k ≠ s.transitions k) →
    t.metrics.level? .breakerState = some (match t.breaker.kind with
      | .closed => 0
      | .halfOpen => 1
      | .opened => 2)

/-- Whatever was done with a breaker since it was new, in whatever order and with whatever times and
outcomes, its metrics tell its state. -/
theorem transitions_tell_state (s : EngineState) (name : String) (settings : BreakerSettings)
    (calls : List BreakerCall) :
    TellsState (s.withNewBreaker name settings) ((s.withNewBreaker name settings).afterCalls calls)
      ((s.withNewBreaker name settings).history calls) := by
  generalize hnew : s.withNewBreaker name settings = new
  have hinitial : new.breaker.state = .initial := by rw [← hnew]; rfl
  have hfollows := follows_afterCalls new calls
  generalize new.afterCalls calls = t at hfollows ⊢
  generalize new.history calls = history at hfollows ⊢
  have hstate := hfollows.state
  have hcount := hfollows.transitions
  rw [hinitial] at hstate hcount
  have hmoves (k : CircuitKind) : (t.transitions k : Int) - new.transitions k =
      BreakerState.moves new.breaker.settings (.into k) .initial history := by
    have hk := hcount k
    omega
  refine ⟨hstate, ?_, ?_, ?_⟩
  · change _ = BreakerState.indicator .opened t.breaker.state
    rw [hmoves, hmoves, BreakerState.moves_into_opened, hstate]
    change _ + (_ - 0) - _ = _
    omega
  · change _ = BreakerState.indicator .halfOpen t.breaker.state
    rw [hmoves, hmoves, BreakerState.moves_into_halfOpen, hstate]
    change _ + _ + (_ - 0) - _ - _ = _
    omega
  · rintro ⟨k, hk⟩
    have hany : BreakerState.moves new.breaker.settings (.into k) .initial history ≤
        BreakerState.moves new.breaker.settings .any .initial history :=
      BreakerState.moves_mono fun before e after => by
        simp only [BreakerState.Move.into, BreakerState.Move.any]
        grind
    have hgauge := hfollows.gauge
    rw [hinitial, if_neg (by have := hcount k; omega)] at hgauge
    rw [hgauge]
    cases t.breaker.kind <;> rfl

/-- The breaker opens, is half-open, opens again, is half-open again and closes. -/
example :
    let s := EngineState.withNewBreaker { now := .epoch, breaker := touchy } "storage" touchy.settings
    let t := s.afterCalls [.recordFailure .epoch, .recordFailure .epoch,
      .isAvailable (.ofMillis 1001),
      .apply (·.saveMessage ⟨Uuid.ofNat 1, .info, "note", none, .epoch⟩) .epoch, .recordFailure .epoch,
      .call (.ofMillis 1000) (·.getCrons) (.ofMillis 1000),
      .call (.ofMillis 1001) (·.getCrons) (.ofMillis 1002), .recordSuccess]
    ([.opened, .halfOpen, .closed].map t.transitions, t.breaker.totalRejected,
      t.metrics.level? .breakerState) = ([2, 2, 1], 1, some 0) := by
  decide

end EngineState

end JobEngine
