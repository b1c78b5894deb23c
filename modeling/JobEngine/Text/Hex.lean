-- SUMMARY: Hexadecimal digits, and numbers in bases up to sixteen.
import JobEngine.Text.Digits

/-!
# Hexadecimal digits

The value of a digit in either case, and numbers in any base up to sixteen. The writing direction is
`Nat.digitChar`, which gives lower case.
-/

namespace JobEngine

/-- The value of a hexadecimal digit. -/
def hexValue? (c : Char) : Option Nat :=
  if '0' ≤ c && c ≤ '9' then some (c.toNat - 48)
  else if 'a' ≤ c && c ≤ 'f' then some (c.toNat - 87)
  else if 'A' ≤ c && c ≤ 'F' then some (c.toNat - 55)
  else none

/-- The number of a nonempty list of digits in a base up to sixteen. -/
def numberInBase? (base : Nat) (ds : List Char) : Option Nat :=
  if ds.isEmpty then none
  else
    ds.foldlM (fun n c => ((hexValue? c).filter (· < base)).map (n * base + ·)) 0

/-- The integer of 64 bits with the given digits in a base up to sixteen. -/
def wordInBase? (base : Nat) (ds : List Char) : Option Int :=
  ((numberInBase? base ds).filter (· < wordLimit)).map Int.ofNat

end JobEngine

