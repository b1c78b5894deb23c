-- SUMMARY: Strings in double quotes with backslash escapes, as documents of settings write them.
import JobEngine.Text.Hex

/-!
# Escaped strings

`readEscaped` reads a string in double quotes. A backslash begins an escape: one letter for a
control character, a quote or a backslash, or `u` and `U` with the four or eight hexadecimal digits
of a character. Control characters other than the tab must be escaped.
-/

namespace JobEngine

/-- The character with a number, unless it is none. -/
def charOf? (n : Nat) : Option Char :=
  let c := Char.ofNat n
  if c.toNat = n then some c else none

/-- The character behind a backslash, for the escapes of one letter. -/
def letterEscape? : Char → Option Char
  | 'b' => some '\x08'
  | 't' => some '\t'
  | 'n' => some '\n'
  | 'f' => some '\x0c'
  | 'r' => some '\r'
  | '"' => some '"'
  | '\\' => some '\\'
  | _ => none

/-- The rest of a string after its opening quote, and what follows its closing quote. -/
def readEscaped : List Char → Option (List Char × List Char)
  | '"' :: rest => some ([], rest)
  | '\\' :: 'u' :: a :: b :: c :: d :: rest => do
    let ch ← charOf? (← numberInBase? 16 [a, b, c, d])
    let (cs, rest) ← readEscaped rest
    return (ch :: cs, rest)
  | '\\' :: 'U' :: a :: b :: c :: d :: e :: f :: g :: h :: rest => do
    let ch ← charOf? (← numberInBase? 16 [a, b, c, d, e, f, g, h])
    let (cs, rest) ← readEscaped rest
    return (ch :: cs, rest)
  | '\\' :: c :: rest => do
    let ch ← letterEscape? c
    let (cs, rest) ← readEscaped rest
    return (ch :: cs, rest)
  | c :: rest =>
    if c = '\\' ∨ (c.toNat < 32 ∧ c ≠ '\t') then none
    else (readEscaped rest).map fun r => (c :: r.1, r.2)
  | [] => none

end JobEngine
