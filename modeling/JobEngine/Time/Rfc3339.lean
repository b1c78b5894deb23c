-- SUMMARY: Instants as RFC 3339 texts, written in UTC and read with any offset.
import JobEngine.Text.Blank
import JobEngine.Time.Calendar

/-!
# RFC 3339 texts

An instant is written in UTC with as many fraction digits (0, 3, 6 or 9) as it needs. Reading is
more liberal: a blank may replace the `T`, blanks may stand between the parts, and an offset may be
`Z`, `UTC` or hours and minutes behind a sign.
-/

namespace JobEngine

namespace Instant

/-! ## Writing -/

/-- A year: four digits, or a sign and at least four outside of 0 to 9999. -/
def yearText (year : Int) : String :=
  if 0 ≤ year ∧ year ≤ 9999 then padded 4 year.toNat
  else (if year < 0 then "-" else "+") ++ padded 4 year.natAbs

/-- A fraction of a second: nothing, or a point and 3, 6 or 9 digits. -/
def fractionText (nanos : Nat) : String :=
  if nanos = 0 then ""
  else if nanos % 1000000 = 0 then "." ++ padded 3 (nanos / 1000000)
  else if nanos % 1000 = 0 then "." ++ padded 6 (nanos / 1000)
  else "." ++ padded 9 nanos

/-- Date and time of day of an instant, with `between` in the middle. -/
def civilText (t : Instant) (between : String) : String :=
  let c := t.civil
  yearText c.date.year ++ "-" ++ padded 2 c.date.month ++ "-" ++ padded 2 c.date.day ++ between ++
    padded 2 c.hour ++ ":" ++ padded 2 c.minute ++ ":" ++ padded 2 c.second

/-- The text of an instant with the letter `Z` for its offset. -/
def zuluText (t : Instant) : String := t.civilText "T" ++ fractionText t.subsecNanos ++ "Z"

/-- The text of an instant with a numeric offset. -/
def offsetText (t : Instant) : String := t.civilText "T" ++ fractionText t.subsecNanos ++ "+00:00"

/-! ## Reading -/

def skipBlanks (cs : List Char) : List Char := cs.dropWhile isBlank

/-- Between one and `width` digits, after blanks. -/
def readNumber? (width : Nat) (cs : List Char) : Option (Nat × List Char) :=
  let body := skipBlanks cs
  let ds := (body.take width).takeWhile isDigit
  if ds.isEmpty then none else some (digitsValue ds, body.drop ds.length)

/-- A year: up to four digits, or any number of them behind a sign. -/
def readYear? (cs : List Char) : Option (Int × List Char) :=
  match skipBlanks cs with
  | '-' :: r =>
    let (ds, rest) := takeDigits r
    if ds.isEmpty then none else some (-(digitsValue ds : Int), rest)
  | '+' :: r =>
    let (ds, rest) := takeDigits r
    if ds.isEmpty then none else some ((digitsValue ds : Int), rest)
  | r => (readNumber? 4 r).map fun x => (x.1, x.2)

/-- A given character, after blanks. -/
def readChar? (c : Char) (cs : List Char) : Option (List Char) :=
  match skipBlanks cs with
  | d :: r => if c = d then some r else none
  | [] => none

/-- An optional fraction in nanoseconds; digits beyond the ninth are dropped. -/
def readFraction? (cs : List Char) : Option (Nat × List Char) :=
  match cs with
  | '.' :: r =>
    let (ds, rest) := takeDigits r
    if ds.isEmpty then none
    else some (digitsValue (ds.take 9) * tenTo (9 - (ds.take 9).length), rest)
  | r => some (0, r)

/-- An offset in seconds. -/
def readOffset? (cs : List Char) : Option (Int × List Char) :=
  let signed (negative : Bool) (r : List Char) : Option (Int × List Char) :=
    match r with
    | h₁ :: h₂ :: r =>
      if isDigit h₁ ∧ isDigit h₂ then
        match r.dropWhile (fun c => c = ':' || isBlank c) with
        | m₁ :: m₂ :: r =>
          if isDigit m₁ ∧ isDigit m₂ ∧ m₁ ≤ '5' then
            let n : Int := digitsValue [h₁, h₂] * 3600 + digitsValue [m₁, m₂] * 60
            some (if negative then -n else n, r)
          else none
        | _ => none
      else none
    | _ => none
  match cs with
  | 'Z' :: r | 'z' :: r => some (0, r)
  | '+' :: r => signed false r
  | '-' :: r | '−' :: r => signed true r
  | a :: b :: c :: r =>
    if a.toUpper = 'U' ∧ b.toUpper = 'T' ∧ c.toUpper = 'C' then some (0, r) else none
  | _ => none

/-- Read an instant. -/
def parse? (s : String) : Option Instant := do
  let (year, r) ← readYear? s.toList
  let r ← readChar? '-' r
  let (month, r) ← readNumber? 2 r
  let r ← readChar? '-' r
  let (day, r) ← readNumber? 2 r
  let r ← match r with
    | 'T' :: r | 't' :: r | ' ' :: r => some r
    | _ => none
  let (hour, r) ← readNumber? 2 r
  let r ← readChar? ':' r
  let (minute, r) ← readNumber? 2 r
  let r ← readChar? ':' r
  let (second, r) ← readNumber? 2 r
  let (nanos, r) ← readFraction? r
  let (offset, r) ← readOffset? (skipBlanks r)
  let date : Date := ⟨year, month, day⟩
  if (skipBlanks r).isEmpty ∧ date.isValid ∧ hour < 24 ∧ minute < 60 ∧ second ≤ 60 ∧
      offset.natAbs < 86400 then
    let localNanos := Civil.toNanos ⟨date, hour, minute, second, nanos⟩
    -- The date must lie in the calendar both here and in UTC.
    let _ ← ofNanos? (date.dayNumber * 86400 * 1000000000)
    ofNanos? (localNanos - offset * 1000000000)
  else none

end Instant

end JobEngine
