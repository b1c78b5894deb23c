-- SUMMARY: Two ways of reading scalars and records: exactly as written, and with conversions.
import JobEngine.Binary64.Numeral
import JobEngine.Binary64.Shortest
import JobEngine.Json.Record

/-!
# Strict and lenient reading

The same settings arrive as typed data and as texts of people and of environment variables. A
`Json.Reading` says how each kind of scalar is read. `Reading.strict` takes a value only for what it
is. `Reading.lenient` converts between texts, numbers and truth values as far as the value still
says what is meant: `"8"`, `8.0` and `8` are one number, and `yes` is true.
-/

namespace JobEngine.Json

/-- How values become typed ones. -/
structure Reading where
  text? : Json → Option String
  boolean? : Json → Option Bool
  /-- An integer from 0 up to, but not including, a bound. -/
  natBelow? : Nat → Json → Option Nat
  float? : Json → Option Binary64
  /-- One of some names, all in lower case. -/
  choice? : List String → Json → Option String
  record? : List String → Json → Option Record

namespace Reading

/-- A value is read as what it is. -/
def strict : Reading where
  text? := Json.text?
  boolean? := Json.boolean?
  natBelow? := Json.natBelow?
  float? := Json.float?
  choice? names v := v.name?.filter (· ∈ names)
  record? := Json.record?

/-! ## Conversions -/

/-- The truth value that a word stands for. -/
def truthOf? (s : String) : Option Bool :=
  match s.toLower with
  | "true" | "on" | "yes" => some true
  | "false" | "off" | "no" => some false
  | _ => none

def lenientText? : Json → Option String
  | .str s => some s
  | .bool b => some (if b then "true" else "false")
  | .int n => some (toString n)
  | .float x => some x.plainText
  | _ => none

def lenientBoolean? : Json → Option Bool
  | .bool b => some b
  | .int n => some (n ≠ 0)
  | .float x => some (!x.isZero)
  | .str "1" => some true
  | .str "0" => some false
  | .str s => truthOf? s
  | _ => none

/-- A double as a number of 64 bits: rounded, a half going up, and cut off at both ends. -/
def clampedNat (x : Binary64) : Nat :=
  if x.isNaN || x.isNegative then 0
  else if x.isInfinite then UInt64.size - 1
  else min x.roundToInt.toNat (UInt64.size - 1)

def lenientNat? : Json → Option Nat
  | .int n => if 0 ≤ n then some n.toNat else none
  | .bool b => some b.toNat
  | .float x => some (clampedNat x)
  | .str s => ((truthOf? s).map Bool.toNat).or (naturalOf? s.toList)
  | _ => none

def lenientFloat? : Json → Option Binary64
  | .float x => some x
  | .int n => some (.ofInt n)
  | .bool b => some (.ofNat b.toNat)
  | .str s => ((truthOf? s).map fun b => .ofNat b.toNat).or (Binary64.ofText? s)
  | _ => none

/-- A name in any case, or an object whose only key is one. -/
def lenientChoice? (names : List String) : Json → Option String
  | .str s | .obj [(s, _)] => names.find? (· = s.toLower)
  | _ => none

/-- An object, or an array that lists the fields in order and may go on after the last one. -/
def lenientRecord? (names : List String) : Json → Option Record
  | .arr items => some ⟨names.zip items, true⟩
  | v => v.record? names

/-- A value is converted to what is wanted. -/
def lenient : Reading where
  text? := lenientText?
  boolean? := lenientBoolean?
  natBelow? bound v := (lenientNat? v).filter (· < bound)
  float? := lenientFloat?
  choice? := lenientChoice?
  record? := lenientRecord?

end Reading

end JobEngine.Json
