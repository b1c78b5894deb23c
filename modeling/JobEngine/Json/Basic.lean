-- SUMMARY: JSON values, their equality, and objects in key order.
import JobEngine.Binary64.Basic

/-!
# JSON values

The dynamic data of this library: job payloads, error contexts and configuration documents. A number
is an integer or a double, as it was written. The fields of an object are kept in key order without
repetition by everything here that builds objects, so values that mean the same are equal.
-/

namespace JobEngine

/-- A JSON value. -/
inductive Json where
  | null
  | bool (b : Bool)
  | int (n : Int)
  | float (x : Binary64)
  | str (s : String)
  | arr (items : List Json)
  | obj (fields : List (String × Json))
deriving Inhabited, Repr

namespace Json

/-! ## Equality -/

mutual
/-- Whether two values are the same. -/
def same : Json → Json → Bool
  | .null, .null => true
  | .bool a, .bool b => a == b
  | .int a, .int b => a == b
  | .float a, .float b => a == b
  | .str a, .str b => a == b
  | .arr a, .arr b => sameItems a b
  | .obj a, .obj b => sameFields a b
  | _, _ => false
/-- `same` for the items of arrays. -/
def sameItems : List Json → List Json → Bool
  | [], [] => true
  | a :: as, b :: bs => same a b && sameItems as bs
  | _, _ => false
/-- `same` for the fields of objects. -/
def sameFields : List (String × Json) → List (String × Json) → Bool
  | [], [] => true
  | (k, a) :: as, (l, b) :: bs => k == l && same a b && sameFields as bs
  | _, _ => false
end

mutual
theorem same_iff : ∀ a b : Json, same a b = true ↔ a = b
  | .null, b => by cases b <;> simp [same]
  | .bool a, b => by cases b <;> simp [same]
  | .int a, b => by cases b <;> simp [same]
  | .float a, b => by cases b <;> simp [same]
  | .str a, b => by cases b <;> simp [same]
  | .arr a, b => by
    cases b with
    | arr b => simp [same, sameItems_iff a b]
    | _ => simp [same]
  | .obj a, b => by
    cases b with
    | obj b => simp [same, sameFields_iff a b]
    | _ => simp [same]
theorem sameItems_iff : ∀ a b : List Json, sameItems a b = true ↔ a = b
  | [], b => by cases b <;> simp [sameItems]
  | a :: as, b => by
    cases b with
    | nil => simp [sameItems]
    | cons b bs => simp [sameItems, same_iff a b, sameItems_iff as bs]
theorem sameFields_iff : ∀ a b : List (String × Json), sameFields a b = true ↔ a = b
  | [], b => by cases b <;> simp [sameFields]
  | (k, a) :: as, b => by
    cases b with
    | nil => simp [sameFields]
    | cons b bs =>
      obtain ⟨l, b⟩ := b
      simp [sameFields, same_iff a b, sameFields_iff as bs, and_assoc]
end

instance : DecidableEq Json := fun a b => decidable_of_iff _ (same_iff a b)

/-! ## Objects -/

/-- Put a field into a field list in key order, replacing the value that stands there. -/
def setField (k : String) (v : Json) : List (String × Json) → List (String × Json)
  | [] => [(k, v)]
  | e :: rest =>
    if k < e.1 then (k, v) :: e :: rest
    else if e.1 < k then e :: setField k v rest
    else (k, v) :: rest

/-- The object of a list of fields; of two fields of one name the later one counts. -/
def object (fields : List (String × Json)) : Json :=
  .obj (fields.foldl (fun acc e => setField e.1 e.2 acc) [])

/-- The field of a name in an object. -/
def get? (name : String) : Json → Option Json
  | .obj fields => (fields.find? (fun e => e.1 = name)).map (·.2)
  | _ => none

/-- `null` for an absent value. -/
def ofOption {α : Type} (f : α → Json) : Option α → Json
  | none => .null
  | some a => f a

def ofNat (n : Nat) : Json := .int n

/-- A double; what is no finite number has no JSON form and becomes `null`. -/
def ofFloat (x : Binary64) : Json := if x.isFinite then .float x else .null

end Json

end JobEngine
