-- SUMMARY: Typed reading of JSON: integers in range, enumerations, and records with defaults.
import JobEngine.Json.Basic

/-!
# Typed reading of JSON

The readers of this file turn a JSON value into a typed one or refuse it. A record is written as an
object, whose unknown fields are ignored, or as an array that lists its fields in order. A field is
required, optional (absent or null means none) or has a default that stands in when it is absent.
-/

namespace JobEngine

namespace Json

/-! ## Scalars -/

def text? : Json → Option String
  | .str s => some s
  | _ => none

def boolean? : Json → Option Bool
  | .bool b => some b
  | _ => none

/-- An integer from 0 up to, but not including, `bound`; a double is no integer. -/
def natBelow? (bound : Nat) : Json → Option Nat
  | .int n => if 0 ≤ n ∧ n.toNat < bound then some n.toNat else none
  | _ => none

/-- A double; an integer is rounded to one. -/
def float? : Json → Option Binary64
  | .float x => some x
  | .int n => some (Binary64.ofInt n)
  | _ => none

/-- The name of an enumeration value: a string, or an object that maps the name to null. -/
def name? : Json → Option String
  | .str s => some s
  | .obj [(s, .null)] => some s
  | _ => none

/-- The list of the items of an array, each read by `read`. -/
def items? {α : Type} (read : Json → Option α) : Json → Option (List α)
  | .arr items => items.mapM read
  | _ => none

/-- The fields of an object, each read by `read`. -/
def entries? {α : Type} (read : Json → Option α) : Json → Option (List (String × α))
  | .obj fields => fields.mapM fun e => (read e.2).map (e.1, ·)
  | _ => none

/-! ## Records -/

/-- The fields of a record as it was written. -/
structure Record where
  fields : List (String × Json)
  /-- Whether the fields stood in order in an array; then only defaults may be left out. -/
  positional : Bool

/-- The record with the given field names, in order, that a value writes. -/
def record? (names : List String) : Json → Option Record
  | .obj fields => some ⟨fields, false⟩
  | .arr items => if items.length ≤ names.length then some ⟨names.zip items, true⟩ else none
  | _ => none

namespace Record

def find? (r : Record) (name : String) : Option Json :=
  (r.fields.find? (fun e => e.1 = name)).map (·.2)

/-- A field that must be present. -/
def required {α : Type} (r : Record) (name : String) (read : Json → Option α) : Option α :=
  (r.find? name).bind read

/-- A field that may be absent or null. -/
def optional {α : Type} (r : Record) (name : String) (read : Json → Option α) :
    Option (Option α) :=
  match r.find? name with
  | none => if r.positional then none else some none
  | some .null => some none
  | some v => (read v).map some

/-- A field that has a default. -/
def withDefault {α : Type} (r : Record) (name : String) (default : α) (read : Json → Option α) :
    Option α :=
  match r.find? name with
  | none => some default
  | some v => read v

end Record

end Json

/-- The types whose values are written as JSON values and read from them again. -/
class Recorded (α : Type) where
  toJson : α → Json
  ofJson? : Json → Option α

end JobEngine
