-- SUMMARY: A breaker shields a storage that fails, and lets calls through again once it has recovered.
import JobEngine.Proofs.Engine.Attempts
import JobEngine.Proofs.Breaker.History

/-!
# Outages

Attempts to make storage calls follow each other on one breaker, each at some time. While the storage
fails, a closed breaker lets as many of them through as it takes failures, and an open one lets one
through each time its retry timeout has passed, which opens it anew. Once the storage answers again,
the first attempt after the retry timeout is let through, and so is every later one; each of them
brings the breaker one success nearer to closing.
-/

namespace JobEngine

/-! ## Attempts -/

/-- An attempt to make a storage call. -/
structure Attempt where
  /-- The engine at that moment; its clock shows the time of the attempt. -/
  before : EngineState
  {answer : Type}
  call : Backend → Except EngineError answer × Backend

namespace Attempt

variable {a : Attempt}

def time (a : Attempt) : Instant := a.before.now

/-- What the attempt comes to, and the engine after it. -/
def result (a : Attempt) : Except EngineError a.answer := (a.before.guarded a.call).1
def after (a : Attempt) : EngineState := (a.before.guarded a.call).2

/-- The storage fails the call if it receives it. -/
def Fails (a : Attempt) : Prop := ∃ e, (a.call a.before.backend).1 = .error e

/-- The storage answers the call if it receives it. -/
def Succeeds (a : Attempt) : Prop := ∃ answer, (a.call a.before.backend).1 = .ok answer

instance (a : Attempt) : Decidable a.Fails :=
  match h : (a.call a.before.backend).1 with
  | .error e => .isTrue ⟨e, h⟩
  | .ok _ => .isFalse fun ⟨_, he⟩ => nomatch h.symm.trans he

instance (a : Attempt) : Decidable a.Succeeds :=
  match h : (a.call a.before.backend).1 with
  | .ok answer => .isTrue ⟨answer, h⟩
  | .error _ => .isFalse fun ⟨_, he⟩ => nomatch h.symm.trans he

/-- The storage received the call, and the attempt comes to what the call came to. -/
structure Reaches (a : Attempt) : Prop where
  result : a.result = (a.call a.before.backend).1
  backend : a.after.backend = (a.call a.before.backend).2
  counted : a.after.breaker.totalRejected = a.before.breaker.totalRejected

/-- The call was rejected, and the storage did not see it. -/
structure Refused (a : Attempt) : Prop where
  result : ∃ e, a.result = .error e ∧ e.code = .circuitOpen
  backend : a.after.backend = a.before.backend
  counted : a.after.breaker.totalRejected = a.before.breaker.totalRejected + 1

theorem refused_of_shut (h : a.before.breaker.Shut a.time) :
    a.Refused ∧ a.after.breaker = a.before.breaker.recordRejection := by
  obtain ⟨t, ht, hbackend, hbreaker⟩ := EngineState.guarded_of_shut h a.call
  have hafter : a.after = t := congrArg Prod.snd ht
  rw [← hafter] at hbackend hbreaker
  refine ⟨⟨⟨_, congrArg Prod.fst ht, rfl⟩, hbackend, ?_⟩, hbreaker⟩
  rw [hbreaker]
  rfl

theorem reaches_of_not_shut (h : ¬ a.before.breaker.Shut a.time) :
    a.Reaches ∧ a.after.breaker =
      (a.before.breaker.probe a.time).recordOutcome a.time (a.call a.before.backend).1 := by
  obtain ⟨t, ht, hbackend, hbreaker⟩ := EngineState.guarded_of_not_shut h a.call
  have hafter : a.after = t := congrArg Prod.snd ht
  rw [← hafter] at hbackend hbreaker
  refine ⟨⟨congrArg Prod.fst ht, hbackend, ?_⟩, hbreaker⟩
  rw [hbreaker]
  simp

/-- An attempt reaches the storage or is refused, and never both. -/
theorem not_shut_of_reaches (h : a.Reaches) : ¬ a.before.breaker.Shut a.time := by
  intro hshut
  obtain ⟨hrefused, -⟩ := refused_of_shut hshut
  have hcounted := hrefused.counted
  rw [h.counted] at hcounted
  omega

theorem settings_after (a : Attempt) : a.after.breaker.settings = a.before.breaker.settings := by
  by_cases h : a.before.breaker.Shut a.time
  · rw [(refused_of_shut h).2]
    rfl
  · rw [(reaches_of_not_shut h).2]
    simp

end Attempt

/-- Attempts follow each other on a breaker and take it from `b` to `c`. Between two of them anything
but the breaker may change. -/
inductive Attempts : Breaker → List Attempt → Breaker → Prop where
  | nil {b : Breaker} : Attempts b [] b
  | cons {a : Attempt} {rest : List Attempt} {c : Breaker}
    (later : Attempts a.after.breaker rest c) : Attempts a.before.breaker (a :: rest) c

namespace Attempts

variable {b c : Breaker} {l m : List Attempt} {a : Attempt}

theorem head (h : Attempts b (a :: l) c) :
    b = a.before.breaker ∧ Attempts a.after.breaker l c := by
  cases h with
  | cons later => exact ⟨rfl, later⟩

theorem split (h : Attempts b (l ++ m) c) : ∃ d, Attempts b l d ∧ Attempts d m c := by
  induction l generalizing b with
  | nil => exact ⟨b, .nil, h⟩
  | cons a rest ih =>
    obtain ⟨rfl, later⟩ := h.head
    obtain ⟨d, hrest, hm⟩ := ih later
    exact ⟨d, .cons hrest, hm⟩

theorem upTo (h : Attempts b (l ++ a :: m) c) : Attempts b (l ++ [a]) a.after.breaker := by
  induction l generalizing b with
  | nil =>
    obtain ⟨rfl, -⟩ := h.head
    exact .cons .nil
  | cons d rest ih =>
    obtain ⟨rfl, later⟩ := h.head
    exact .cons (ih later)

theorem settings_eq (h : Attempts b l c) : c.settings = b.settings := by
  induction h with
  | nil => rfl
  | @cons a rest c later ih => exact ih.trans a.settings_after

end Attempts

/-! ## A storage that fails -/

section Outage

variable {b c : Breaker} {l : List Attempt} {a : Attempt} {n : Count} {time : Instant}

/-- A failure that reaches a closed breaker is counted, and the last one that it takes opens it. -/
theorem Attempt.Fails.closed (hfails : a.Fails) (hstate : a.before.breaker.state = .closed n)
    (hbelow : n.val < a.before.breaker.settings.failures.val) :
    a.Reaches ∧
      (a.before.breaker.settings.failures.val = n.val + 1 → a.after.breaker.state = .opened a.time) ∧
      (n.val + 1 < a.before.breaker.settings.failures.val →
        a.after.breaker.state = .closed n.succ ∧ n.succ.val = n.val + 1) := by
  have hkind : a.before.breaker.kind ≠ .opened := by
    simp [Breaker.kind, hstate, BreakerState.kind]
  obtain ⟨e, herror⟩ := hfails
  obtain ⟨hreaches, hafter⟩ := a.reaches_of_not_shut (Breaker.not_shut_of_kind hkind)
  have hcount := Count.val_succ_of_lt hbelow
  rw [Breaker.probe_of_not_opened hkind, herror] at hafter
  have hnext : a.after.breaker.state =
      a.before.breaker.state.next a.before.breaker.settings (.failure a.time) := by
    rw [hafter]
    rfl
  rw [hstate] at hnext
  simp only [BreakerState.next] at hnext
  refine ⟨hreaches, ?opens, ?counts⟩
  case opens =>
    intro hlast
    have hreached : a.before.breaker.settings.failures ≤ n.succ := by
      change _ ≤ n.succ.val
      omega
    rwa [if_pos hreached] at hnext
  case counts =>
    intro hmore
    have hnot : ¬ a.before.breaker.settings.failures ≤ n.succ := by
      change ¬ _ ≤ n.succ.val
      omega
    rw [if_neg hnot] at hnext
    exact ⟨hnext, hcount⟩

/-- A failure that reaches an open breaker comes after the retry timeout and opens it anew. -/
theorem Attempt.Fails.opened (hfails : a.Fails) (hstate : a.before.breaker.state = .opened time) :
    (a.Refused ∧ ¬ a.Reaches ∧ a.after.breaker.state = .opened time) ∨
      (a.Reaches ∧ time.nanos + a.before.breaker.settings.retryTimeout.nanos < a.time.nanos ∧
        a.after.breaker.state = .opened a.time) := by
  by_cases hshut : a.before.breaker.Shut a.time
  · obtain ⟨hrefused, hafter⟩ := a.refused_of_shut hshut
    refine .inl ⟨hrefused, fun h => a.not_shut_of_reaches h hshut, ?_⟩
    rw [hafter]
    exact hstate
  · obtain ⟨e, herror⟩ := hfails
    obtain ⟨hreaches, hafter⟩ := a.reaches_of_not_shut hshut
    refine .inr ⟨hreaches, Breaker.lt_of_not_shut hshut hstate, ?_⟩
    have hhalf := Breaker.state_probe_of_not_shut hshut hstate
    rw [hafter, herror]
    simp only [Breaker.recordOutcome, Breaker.recordFailure, Breaker.observe, hhalf,
      BreakerState.next]

/-- The storage fails while the breaker is closed: the breaker lets everything through that it does not
take for its last failure. -/
theorem Attempts.closed_outage (h : Attempts b l c) (hfails : ∀ a ∈ l, a.Fails)
    (hstate : b.state = .closed n) (hbelow : n.val + l.length < b.settings.failures.val) :
    (∀ a ∈ l, a.Reaches) ∧ ∃ m, c.state = .closed m ∧ m.val = n.val + l.length := by
  induction h generalizing n with
  | nil => exact ⟨by simp, n, hstate, rfl⟩
  | @cons a rest c later ih =>
    rw [List.length_cons] at hbelow
    obtain ⟨hreaches, -, hcounts⟩ :=
      (hfails a List.mem_cons_self).closed hstate (by omega)
    obtain ⟨hnext, hcount⟩ := hcounts (by omega)
    have hrest : ∀ a ∈ rest, a.Fails := fun k hk => hfails k (List.mem_cons_of_mem _ hk)
    obtain ⟨hall, m, hm, hlength⟩ := ih hrest hnext (by rw [a.settings_after]; omega)
    refine ⟨List.forall_mem_cons.2 ⟨hreaches, hall⟩, m, hm, ?_⟩
    rw [hlength, hcount, List.length_cons]
    omega

/-- Of the attempts that reach the storage, each comes more than the timeout after the ones before. -/
def Sparse (timeout : Duration) (l : List Attempt) : Prop :=
  l.Pairwise fun a d =>
    a.Reaches → d.Reaches → (a.time.nanos + timeout.nanos : Int) < d.time.nanos

/-- The storage fails while the breaker is open: each attempt that reaches the storage comes later than
the failure before it and the retry timeout, and all others are refused. -/
theorem Attempts.open_outage (h : Attempts b l c) (hfails : ∀ a ∈ l, a.Fails)
    (hstate : b.state = .opened time) :
    (∀ a ∈ l, a.Reaches ∨ a.Refused) ∧ Sparse b.settings.retryTimeout l ∧
      (∀ a ∈ l, a.Reaches → time.nanos + b.settings.retryTimeout.nanos < a.time.nanos) ∧
      ∃ last, c.state = .opened last ∧ (last = time ∨ ∃ a ∈ l, a.Reaches ∧ a.time = last) := by
  induction h generalizing time with
  | nil => exact ⟨by simp, .nil, by simp, time, hstate, .inl rfl⟩
  | @cons a rest c later ih =>
    have hrest : ∀ a ∈ rest, a.Fails := fun k hk => hfails k (List.mem_cons_of_mem _ hk)
    simp only [List.forall_mem_cons, Sparse, List.pairwise_cons]
    rcases (hfails a List.mem_cons_self).opened hstate with
      ⟨hrefused, hnot, hnext⟩ | ⟨hreaches, hgap, hnext⟩
    · obtain ⟨hall, hsparse, hlater, last, hlast, hwhen⟩ := ih hrest hnext
      rw [a.settings_after] at hsparse hlater
      refine ⟨⟨.inr hrefused, hall⟩, ⟨fun d _ h => absurd h hnot, hsparse⟩,
        ⟨fun h => absurd h hnot, hlater⟩, last, hlast, ?_⟩
      rcases hwhen with rfl | ⟨d, hd, hreach⟩
      · exact .inl rfl
      · exact .inr ⟨d, List.mem_cons_of_mem _ hd, hreach⟩
    · obtain ⟨hall, hsparse, hlater, last, hlast, hwhen⟩ := ih hrest hnext
      rw [a.settings_after] at hsparse hlater
      refine ⟨⟨.inl hreaches, hall⟩, ⟨fun d hd _ => hlater d hd, hsparse⟩,
        ⟨fun _ => hgap, fun d hd hreach => ?_⟩, last, hlast, .inr ?_⟩
      · have hafter := hlater d hd hreach
        omega
      · rcases hwhen with rfl | ⟨d, hd, hreach⟩
        · exact ⟨a, List.mem_cons_self, hreaches, rfl⟩
        · exact ⟨d, List.mem_cons_of_mem _ hd, hreach⟩

/-- A storage that fails from the start of a closed breaker on: what reaches it, and what the breaker
is left with. -/
theorem Attempts.outage (h : Attempts b l c) (hfails : ∀ a ∈ l, a.Fails)
    (hstate : b.state = .closed 0) :
    (∀ a ∈ l.take b.settings.failures.val, a.Reaches) ∧
      Sparse b.settings.retryTimeout (l.drop (b.settings.failures.val - 1)) ∧
      (∀ a ∈ l, a.Reaches ∨ a.Refused) ∧
      ((∃ m, c.state = .closed m) ∨ ∃ a ∈ l, a.Reaches ∧ c.state = .opened a.time) := by
  have hpos := b.settings.failures_pos
  have hzero : (0 : Count).val = 0 := rfl
  rcases Nat.lt_or_ge l.length b.settings.failures.val with hshort | hlong
  · -- The outage ends before the breaker opens.
    obtain ⟨hall, m, hm, -⟩ := h.closed_outage hfails hstate (by omega)
    refine ⟨fun a ha => hall a (List.mem_of_mem_take ha), ?_, fun a ha => .inl (hall a ha),
      .inl ⟨m, hm⟩⟩
    rw [List.drop_eq_nil_of_le (by omega)]
    exact .nil
  · -- The outage has a failure that opens the breaker.
    obtain ⟨first, a, rest, rfl, hlength⟩ :
        ∃ first a rest, l = first ++ a :: rest ∧ first.length + 1 = b.settings.failures.val := by
      have hlt : b.settings.failures.val - 1 < l.length := by omega
      refine ⟨l.take (b.settings.failures.val - 1), l[b.settings.failures.val - 1],
        l.drop (b.settings.failures.val - 1 + 1), ?_, ?_⟩
      · rw [← List.drop_eq_getElem_cons hlt, List.take_append_drop]
      · rw [List.length_take]
        omega
    obtain ⟨hfirst, hmore⟩ := List.forall_mem_append.1 hfails
    obtain ⟨ha, hrest⟩ := List.forall_mem_cons.1 hmore
    obtain ⟨d, hmade, hleft⟩ := h.split
    obtain ⟨rfl, hlater⟩ := hleft.head
    have hsettings := hmade.settings_eq
    obtain ⟨hall, m, hm, hcount⟩ := hmade.closed_outage hfirst hstate (by omega)
    obtain ⟨hreaches, hopens, -⟩ := ha.closed hm (by rw [hsettings]; omega)
    have hopened := hopens (by rw [hsettings]; omega)
    obtain ⟨hothers, hsparse, hgap, last, hlast, hwhen⟩ := hlater.open_outage hrest hopened
    rw [a.settings_after, hsettings] at hsparse hgap
    refine ⟨?reached, ?sparse, ?told, ?left⟩
    case reached =>
      have htake : (first ++ a :: rest).take b.settings.failures.val = first ++ [a] := by
        rw [List.append_cons, List.take_left' (by simpa using hlength)]
      rw [htake]
      exact List.forall_mem_append.2 ⟨hall, List.forall_mem_singleton.2 hreaches⟩
    case sparse =>
      rw [List.drop_left' (by omega)]
      exact List.pairwise_cons.2 ⟨fun k hk _ => hgap k hk, hsparse⟩
    case told =>
      intro k hk
      rcases List.mem_append.1 hk with hk | hk
      · exact .inl (hall k hk)
      · rcases List.mem_cons.1 hk with rfl | hk
        · exact .inl hreaches
        · exact hothers k hk
    case left =>
      rcases hwhen with rfl | ⟨k, hk, hreach, rfl⟩
      · exact .inr ⟨a, by simp, hreaches, hlast⟩
      · exact .inr ⟨k, by simp [hk], hreach, hlast⟩

end Outage

/-! ## A storage that has recovered -/

/-- The breaker lets calls through, and `k` of them have succeeded since it does: a closed breaker has
forgotten the failures before them, and a half-open one counts them. -/
def Mended (settings : BreakerSettings) (k : Nat) : BreakerState → Prop
  | .closed failures => k = 0 ∨ failures = 0
  | .halfOpen successes => k ≤ successes.val ∧ successes.val < settings.successes.val
  | .opened _ => False

section Recovery

variable {settings : BreakerSettings} {state : BreakerState} {b c : Breaker} {l : List Attempt}
  {a : Attempt} {j k : Nat} {time : Instant}

theorem Mended.mono (h : Mended settings k state) (hle : j ≤ k) : Mended settings j state := by
  cases state with
  | closed failures =>
    rcases h with rfl | hzero
    · exact .inl (Nat.le_zero.1 hle)
    · exact .inr hzero
  | halfOpen successes => exact ⟨Nat.le_trans hle h.1, h.2⟩
  | opened time => exact h

/-- Enough successes close the breaker. -/
theorem Mended.closed (h : Mended settings k state) (henough : settings.successes.val ≤ k) :
    state = .closed 0 := by
  have hpos := settings.successes_pos
  cases state with
  | closed failures =>
    rcases h with rfl | rfl
    · omega
    · rfl
  | halfOpen successes =>
    obtain ⟨hcounted, hfewer⟩ := h
    omega
  | opened time => exact absurd h id

theorem Mended.kind_ne (h : Mended settings k state) : state.kind ≠ .opened := by
  cases state with
  | opened time => exact absurd h id
  | closed failures => simp [BreakerState.kind]
  | halfOpen successes => simp [BreakerState.kind]

theorem Mended.probe {now : Instant} (h : Mended b.settings k b.state) :
    Mended b.settings k (b.probe now).state := by
  rwa [Breaker.probe_of_not_opened h.kind_ne]

theorem Mended.success (h : Mended settings k state) :
    Mended settings (k + 1) (state.next settings .success) := by
  cases state with
  | closed failures => exact .inr rfl
  | opened time => exact absurd h id
  | halfOpen successes =>
    obtain ⟨hcounted, hfewer⟩ := h
    have hcount := Count.val_succ_of_lt hfewer
    by_cases hreached : settings.successes ≤ successes.succ
    · simp only [BreakerState.next, if_pos hreached]
      exact .inr rfl
    · have hmore : ¬ settings.successes.val ≤ successes.succ.val := hreached
      simp only [BreakerState.next, if_neg hreached]
      exact ⟨by omega, by omega⟩

/-- The breaker is mended, or it is open and an attempt at `time` will be let through. -/
def Breaker.Ready (b : Breaker) (time : Instant) : Prop :=
  Mended b.settings 0 b.state ∨
    ∃ failed, b.state = .opened failed ∧ failed.nanos + b.settings.retryTimeout.nanos < time.nanos

theorem Breaker.Ready.not_shut (h : b.Ready time) : ¬ b.Shut time := by
  rcases h with hmended | ⟨failed, hopened, hlater⟩
  · exact not_shut_of_kind hmended.kind_ne
  · exact not_shut_of_lt hopened hlater

/-- The probe at that time has the breaker let calls through. -/
theorem Breaker.Ready.probe (h : b.Ready time) : Mended b.settings 0 (b.probe time).state := by
  have hshut := h.not_shut
  rcases h with hmended | ⟨failed, hopened, -⟩
  · exact hmended.probe
  · rw [state_probe_of_not_shut hshut hopened]
    exact ⟨Nat.le_refl _, b.settings.successes_pos⟩

/-- A call that succeeds counts for the breaker as its probe left it. -/
theorem Attempt.Succeeds.mended (h : a.Succeeds) (hshut : ¬ a.before.breaker.Shut a.time)
    (hprobe : Mended a.before.breaker.settings k (a.before.breaker.probe a.time).state) :
    a.Reaches ∧ Mended a.after.breaker.settings (k + 1) a.after.breaker.state := by
  obtain ⟨answer, hanswer⟩ := h
  obtain ⟨hreaches, hafter⟩ := a.reaches_of_not_shut hshut
  rw [hafter, hanswer]
  exact ⟨hreaches, hprobe.success⟩

/-- A mended breaker lets every call through that succeeds. -/
theorem Attempts.mended (h : Attempts b l c) (hsucceed : ∀ a ∈ l, a.Succeeds)
    (hmended : Mended b.settings k b.state) :
    (∀ a ∈ l, a.Reaches) ∧ Mended c.settings (k + l.length) c.state := by
  induction h generalizing k with
  | nil => exact ⟨by simp, hmended⟩
  | @cons a rest c later ih =>
    obtain ⟨hnow, hrest⟩ := List.forall_mem_cons.1 hsucceed
    obtain ⟨hreaches, hnext⟩ :=
      hnow.mended (Breaker.not_shut_of_kind hmended.kind_ne) hmended.probe
    obtain ⟨hall, hlast⟩ := ih hrest hnext
    refine ⟨List.forall_mem_cons.2 ⟨hreaches, hall⟩, ?_⟩
    rwa [List.length_cons, Nat.add_comm rest.length 1, ← Nat.add_assoc]

/-- A breaker that will let an attempt through does so also after others that succeed or are refused.
-/
theorem Attempts.ready (h : Attempts b l c) (hsucceed : ∀ a ∈ l, a.Succeeds)
    (hready : b.Ready time) : c.Ready time := by
  induction h with
  | nil => exact hready
  | @cons a rest c later ih =>
    obtain ⟨hnow, hrest⟩ := List.forall_mem_cons.1 hsucceed
    apply ih hrest
    by_cases hshut : a.before.breaker.Shut a.time
    · obtain ⟨-, hafter⟩ := a.refused_of_shut hshut
      rw [hafter]
      exact hready
    · have hnow' : a.before.breaker.Ready a.time := by
        rcases hready with hmended | ⟨failed, hopened, -⟩
        · exact .inl hmended
        · exact .inr ⟨failed, hopened, Breaker.lt_of_not_shut hshut hopened⟩
      obtain ⟨-, hnext⟩ := hnow.mended hshut hnow'.probe
      exact .inl (hnext.mono (Nat.zero_le _))

/-- The first attempt that is let through mends the breaker, and enough of them close it. -/
theorem Attempts.recovery (h : Attempts b (a :: l) c) (hsucceed : ∀ d ∈ a :: l, d.Succeeds)
    (hready : b.Ready a.time) :
    (∀ d ∈ a :: l, d.Reaches) ∧ Mended c.settings (l.length + 1) c.state := by
  obtain ⟨rfl, hrest⟩ := h.head
  obtain ⟨hnow, hothers⟩ := List.forall_mem_cons.1 hsucceed
  obtain ⟨hreaches, hnext⟩ := hnow.mended hready.not_shut hready.probe
  obtain ⟨hall, hlast⟩ := hrest.mended hothers hnext
  refine ⟨List.forall_mem_cons.2 ⟨hreaches, hall⟩, ?_⟩
  rwa [Nat.add_comm l.length 1, ← Nat.zero_add 1]

theorem Attempts.recovered {made left : List Attempt} {d : Attempt}
    (h : Attempts b (made ++ d :: left) c) (hsucceed : ∀ k ∈ made ++ d :: left, k.Succeeds)
    (hready : ∀ first ∈ (made ++ d :: left).head?, b.Ready first.time)
    (henough : b.settings.successes.val ≤ made.length + 1) : d.after.breaker.state = .closed 0 := by
  have hpart := h.upTo
  have hsettings := hpart.settings_eq
  have hmade : ∀ k ∈ made ++ [d], k.Succeeds := by
    intro k hk
    apply hsucceed k
    grind
  cases made with
  | nil =>
    obtain ⟨-, hmended⟩ := hpart.recovery hmade (hready d rfl)
    apply hmended.closed
    rwa [hsettings]
  | cons first rest =>
    obtain ⟨-, hmended⟩ := hpart.recovery hmade (hready first rfl)
    apply hmended.closed
    rw [hsettings]
    simpa using henough

end Recovery

/-- A breaker shields a storage that fails, and closes again after it has recovered. The attempts may
come at any times, in any order. -/
theorem outage_shielded_then_mended {b c : Breaker} {outage recovery : List Attempt}
    (h : Attempts b (outage ++ recovery) c) (hstart : b.state = .closed 0)
    (hfails : ∀ a ∈ outage, a.Fails) (hsucceeds : ∀ a ∈ recovery, a.Succeeds) :
    (∀ a ∈ outage.take b.settings.failures.val, a.Reaches) ∧
    Sparse b.settings.retryTimeout (outage.drop (b.settings.failures.val - 1)) ∧
    (∀ a ∈ outage, a.Reaches ∨ a.Refused) ∧
    ∀ before first rest, recovery = before ++ first :: rest →
      (∀ a ∈ outage, a.Reaches →
        a.time.nanos + b.settings.retryTimeout.nanos < first.time.nanos) →
      (∀ a ∈ first :: rest, a.Reaches) ∧
      ∀ made a left, first :: rest = made ++ a :: left →
        b.settings.successes.val ≤ made.length + 1 → a.after.breaker.state = .closed 0 := by
  obtain ⟨d, houtage, hrecovery⟩ := h.split
  obtain ⟨hfirst, hsparse, htold, hleft⟩ := houtage.outage hfails hstart
  refine ⟨hfirst, hsparse, htold, ?_⟩
  rintro before first rest rfl hlater
  obtain ⟨e, hbefore, hfrom⟩ := hrecovery.split
  obtain ⟨hearly, hlate⟩ := List.forall_mem_append.1 hsucceeds
  have hsettings := houtage.settings_eq
  have hready : d.Ready first.time := by
    rcases hleft with ⟨m, hclosed⟩ | ⟨a, ha, hreaches, hopened⟩
    · exact .inl (hclosed ▸ .inl rfl)
    · exact .inr ⟨a.time, hopened, hsettings ▸ hlater a ha hreaches⟩
  have hthen := hbefore.ready hearly hready
  refine ⟨(hfrom.recovery hlate hthen).1, ?_⟩
  intro made a left hmade henough
  rw [← hsettings, ← hbefore.settings_eq] at henough
  rw [hmade] at hfrom hlate
  exact hfrom.recovered hlate (by simpa [← hmade] using hthen) henough

/-! ## A brief outage -/

/-- An attempt to list the cron definitions: when it is made, and whether the storage is switched on.
-/
def listing (b : Breaker) (x : Int × Bool) : Attempt where
  before := { now := .ofMillis x.1, backend := { available := x.2 }, breaker := b }
  call := Backend.getCrons

/-- Such attempts, each made on the breaker that the one before left. -/
def listings (b : Breaker) : List (Int × Bool) → List Attempt
  | [] => []
  | x :: rest => listing b x :: listings (listing b x).after.breaker rest

theorem attempts_listings (b : Breaker) (l : List (Int × Bool)) :
    ∃ c, Attempts b (listings b l) c := by
  induction l generalizing b with
  | nil => exact ⟨b, .nil⟩
  | cons x rest ih =>
    obtain ⟨c, hrest⟩ := ih _
    exact ⟨c, .cons (a := listing b x) hrest⟩

/-- The storage is switched off for the first four attempts. The third one comes too early, and the
fourth one is a probe that fails; the fifth one comes too early again. -/
def troubles : List Attempt :=
  listings touchy [(0, false), (100, false), (500, false), (1200, false), (1900, true), (2300, true),
    (2400, true)]

theorem troubles_mended :
    (∀ a ∈ troubles.take 2, a.Reaches) ∧ Sparse (.ofSecs 1) ((troubles.take 4).drop 1) ∧
    (∀ a ∈ troubles.take 4, a.Reaches ∨ a.Refused) ∧ (∀ a ∈ troubles.drop 5, a.Reaches) ∧
    ∀ a ∈ troubles.getLast?, a.after.breaker.state = .closed 0 := by
  obtain ⟨c, hattempts⟩ : ∃ c, Attempts touchy troubles c := attempts_listings touchy _
  have hfails : ∀ a ∈ troubles.take 4, a.Fails := by decide +kernel
  have hsucceeds : ∀ a ∈ troubles.drop 4, a.Succeeds := by decide +kernel
  rw [← List.take_append_drop 4 troubles] at hattempts
  obtain ⟨hfirst, hsparse, htold, hrecovery⟩ :=
    outage_shielded_then_mended hattempts rfl hfails hsucceeds
  have hlength : troubles.length = 7 := by decide +kernel
  have hlater : ∀ a ∈ troubles.take 4,
      (a.time.nanos + touchy.settings.retryTimeout.nanos : Int) < (Instant.ofMillis 2300).nanos := by
    decide +kernel
  obtain ⟨hall, hclosed⟩ :=
    hrecovery [troubles[4]] troubles[5] [troubles[6]] rfl fun a ha _ => hlater a ha
  refine ⟨hfirst, hsparse, htold, hall, ?_⟩
  rintro a ⟨⟩
  exact hclosed [troubles[5]] troubles[6] [] rfl (Nat.le_refl 2)

end JobEngine
