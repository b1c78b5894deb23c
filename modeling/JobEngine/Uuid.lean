-- SUMMARY: 128-bit identifiers, their order and their texts.
import JobEngine.Json.Record
import JobEngine.Text.Hex

/-!
# Identifiers

Jobs, queues and cron definitions are identified by UUIDs, which are compared as 128-bit numbers. A
UUID is printed in lower case with hyphens; it is read in any case, with hyphens, without them, in
braces or behind `urn:uuid:`.
-/

namespace JobEngine

/-- One more than the largest number of 128 bits. -/
def Uuid.bound : Nat := UInt64.size * UInt64.size

/-- A 128-bit identifier. -/
structure Uuid where
  value : Nat
  lt_bound : value < Uuid.bound
deriving DecidableEq

namespace Uuid

instance : LE Uuid := ⟨fun a b => a.value ≤ b.value⟩
instance : LT Uuid := ⟨fun a b => a.value < b.value⟩
instance : DecidableLE Uuid := fun a b => inferInstanceAs (Decidable (a.value ≤ b.value))
instance : DecidableLT Uuid := fun a b => inferInstanceAs (Decidable (a.value < b.value))

theorem ext_value {a b : Uuid} (h : a.value = b.value) : a = b := by
  cases a; cases b; cases h; rfl

instance : Std.IsLinearOrder Uuid where
  le_refl a := Nat.le_refl a.value
  le_trans _ _ _ h g := Nat.le_trans h g
  le_antisymm _ _ h g := ext_value (Nat.le_antisymm h g)
  le_total a b := Nat.le_total a.value b.value

instance : Std.LawfulOrderLT Uuid where
  lt_iff _ _ := Nat.lt_iff_le_and_not_ge

/-- The identifier of a number, counted modulo the number of identifiers. -/
def ofNat (n : Nat) : Uuid := ⟨n % bound, Nat.mod_lt _ (by decide)⟩

instance : Inhabited Uuid := ⟨ofNat 0⟩

theorem ofNat_ne {m n : Nat} (h : m < n) (hn : n < m + bound) : ofNat m ≠ ofNat n := by
  intro he
  have hmod : n % bound = m % bound := congrArg value he.symm
  have hzero : (n - m) % bound = 0 := Nat.sub_mod_eq_zero_of_mod_eq hmod
  rw [Nat.mod_eq_of_lt (by omega)] at hzero
  omega

/-- The `width` lowest hexadecimal digits of `n`, most significant first. -/
def hexDigits : Nat → Nat → List Char
  | 0, _ => []
  | width + 1, n => hexDigits width (n / 16) ++ [Nat.digitChar (n % 16)]

/-- The five groups of 8, 4, 4, 4 and 12 digits, joined by hyphens. -/
def hyphenated : List Char → List Char
  | ds =>
    ds.take 8 ++ '-' :: (ds.drop 8).take 4 ++ '-' :: (ds.drop 12).take 4 ++
      '-' :: (ds.drop 16).take 4 ++ '-' :: ds.drop 20

/-- The text of an identifier: lower case, with hyphens. -/
def toText (u : Uuid) : String := String.ofList (hyphenated (hexDigits 32 u.value))

/-- The identifier of 32 hexadecimal digits. -/
def ofDigits? (ds : List Char) : Option Uuid :=
  if ds.length = 32 then
    (ds.foldlM (fun n c => (hexValue? c).map (n * 16 + ·)) 0).map ofNat
  else none

/-- The identifier of five groups of digits that are joined by hyphens. -/
def ofHyphenated? (cs : List Char) : Option Uuid :=
  if cs.length = 36 ∧ cs[8]? = some '-' ∧ cs[13]? = some '-' ∧ cs[18]? = some '-' ∧
      cs[23]? = some '-' then
    ofDigits? (cs.take 8 ++ (cs.drop 9).take 4 ++ (cs.drop 14).take 4 ++ (cs.drop 19).take 4 ++
      cs.drop 24)
  else none

/-- Read an identifier in any of its four written forms. -/
def parse? (s : String) : Option Uuid :=
  let cs := s.toList
  match s.utf8ByteSize with
  | 32 => ofDigits? cs
  | 36 => ofHyphenated? cs
  | 38 =>
    if cs.head? = some '\x7b' ∧ cs.getLast? = some '\x7d' then ofHyphenated? (cs.drop 1).dropLast
    else none
  | 45 => if "urn:uuid:".toList.isPrefixOf cs then ofHyphenated? (cs.drop 9) else none
  | _ => none

def ofJson? (v : Json) : Option Uuid := v.text?.bind parse?
def toJson (u : Uuid) : Json := .str u.toText

instance : Recorded Uuid := ⟨toJson, ofJson?⟩

end Uuid

/-- Identifies a job. -/
abbrev JobId := Uuid
/-- Identifies a queue. -/
abbrev QueueId := Uuid
/-- Identifies a cron definition. -/
abbrev CronId := Uuid

end JobEngine
