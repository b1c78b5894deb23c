-- SUMMARY: 32-bit counts that stop at their largest value.
import JobEngine.Json.Record

/-!
# Counts

Retries, budgets, queue weights and breaker thresholds are numbers of 32 bits. Counting up from the
largest one stays there.
-/

namespace JobEngine

/-- A number below 4294967296. -/
structure Count where
  val : Nat
  lt_limit : val < UInt32.size
deriving DecidableEq

namespace Count

instance : LE Count := ⟨fun a b => a.val ≤ b.val⟩
instance : LT Count := ⟨fun a b => a.val < b.val⟩
instance : DecidableLE Count := fun a b => inferInstanceAs (Decidable (a.val ≤ b.val))
instance : DecidableLT Count := fun a b => inferInstanceAs (Decidable (a.val < b.val))

theorem ext_val {a b : Count} (h : a.val = b.val) : a = b := by
  cases a; cases b; cases h; rfl

/-- The largest count. -/
def max : Count := ⟨UInt32.size - 1, by decide⟩

/-- A number as a count, at most the largest one. -/
def ofNat (n : Nat) : Count :=
  ⟨min n (UInt32.size - 1), Nat.lt_of_le_of_lt (Nat.min_le_right _ _) (by decide)⟩

instance (n : Nat) : OfNat Count n := ⟨ofNat n⟩
instance : Inhabited Count := ⟨0⟩

/-- One more, unless the count is the largest. -/
def succ (n : Count) : Count := ofNat (n.val + 1)

theorem val_succ (n : Count) : n.succ.val = min (n.val + 1) (UInt32.size - 1) := rfl

/-- A count below another one does not stop at the largest value. -/
theorem val_succ_of_lt {n m : Count} (h : n.val < m.val) : n.succ.val = n.val + 1 :=
  Nat.min_eq_left (Nat.le_sub_one_of_lt (Nat.lt_of_le_of_lt h m.lt_limit))

def toJson (n : Count) : Json := .int n.val

def ofJson? (v : Json) : Option Count :=
  match v with
  | .int n => if h : 0 ≤ n ∧ n.toNat < UInt32.size then some ⟨n.toNat, h.2⟩ else none
  | _ => none

instance : Recorded Count := ⟨toJson, ofJson?⟩

end Count

end JobEngine
