-- SUMMARY: Reading doubles from decimal texts.
import JobEngine.Binary64.Basic
import JobEngine.Text.Digits

/-!
# Decimal texts of doubles

`Binary64.ofText?` reads a whole text as a decimal number: a sign, digits with at most one point
among or around them, and an exponent, of which only the digits must be there. The names `inf`,
`infinity` and `nan` are numbers too, in any case. The result is the double nearest to what the text
says.
-/

namespace JobEngine.Binary64

/-- Cut an exponent off: the exponent and `true`, or `0` and `false` if it is malformed. -/
def exponentOf : List Char → Option Int
  | [] => some 0
  | e :: rest => if e = 'e' ∨ e = 'E' then integerOf? rest else none

/-- The double nearest to `± digits · 10 ^ power`. A power far beyond the range of doubles is not
computed with: its number is infinite or zero at once. -/
def ofScaled (negative : Bool) (digits : Nat) (power : Int) : Binary64 :=
  let magnitude := (Nat.toDigits 10 digits).length + power
  if digits = 0 || magnitude < -400 then ofDecimal negative 0 0
  else if 400 < magnitude then (if negative then infinity.neg else infinity)
  else ofDecimal negative digits power

/-- A decimal number without sign. -/
def ofUnsigned? (negative : Bool) (cs : List Char) : Option Binary64 :=
  let (whole, rest) := takeDigits cs
  let (fraction, rest) := match rest with
    | '.' :: r => takeDigits r
    | _ => ([], rest)
  if whole.isEmpty && fraction.isEmpty then none
  else (exponentOf rest).map fun e =>
    ofScaled negative (digitsValue (whole ++ fraction)) (e - fraction.length)

/-- The double of a whole text. -/
def ofText? (s : String) : Option Binary64 :=
  let (negative, body) := match s.toList with
    | '-' :: rest => (true, rest)
    | '+' :: rest => (false, rest)
    | cs => (false, cs)
  let signed (x : Binary64) : Binary64 := if negative then x.neg else x
  match (String.ofList body).toLower with
  | "inf" | "infinity" => some (signed infinity)
  | "nan" => some (signed nan)
  | _ => ofUnsigned? negative body

end JobEngine.Binary64
