-- SUMMARY: Durations as people write them: "1h 30m", "2.5s", "30 days".
import JobEngine.Text.Blank
import JobEngine.Time.Duration

/-!
# Durations in words

A duration text is a sequence of numbers with units, whose values add up: `1h 30m`, `1.5s`,
`30 days`. Writing uses years, months and days of fixed length (365.25, 30.44 and 1 days) and then
the clock's units. Reading checks all arithmetic in 64 bits and refuses a fraction that is not a
whole number of the smallest part its unit is counted in. A refusal names its cause and, for a wrong
character, its byte offset.
-/

namespace JobEngine

/-- Why a text is no duration. -/
inductive DurationTextError where
  | empty
  | numberExpected (offset : Nat)
  | invalidCharacter (offset : Nat)
  | unitNeeded (number : Nat)
  | unknownUnit (unit : String)
  | tooLarge
deriving DecidableEq, Repr

/-- The wording of each cause. -/
def DurationTextError.message : DurationTextError → String
  | .empty => "value was empty"
  | .numberExpected offset => "expected number at " ++ toString offset
  | .invalidCharacter offset => "invalid character at " ++ toString offset
  | .unitNeeded number =>
    "time unit needed, for example " ++ toString number ++ "sec or " ++ toString number ++ "ms"
  | .unknownUnit unit =>
    "unknown time unit \"" ++ unit ++
      "\", supported units: ns, us/µs, ms, sec, min, hours, days, " ++
      "weeks, months, years (and few variations)"
  | .tooLarge =>
    "number is too large or cannot be represented without a lack of precision " ++
      "(values below 1ns are not supported)"

namespace Duration

/-! ## Units -/

/-- A unit of time, measured in nanoseconds below the second and in seconds from there on. -/
inductive TimeUnit where
  | ofNanos (nanos : Nat)
  | ofSecs (secs : Nat)
deriving DecidableEq, Repr

def secondsPerMonth : Nat := 2630016
def secondsPerYear : Nat := 31557600

/-- The unit of a name. -/
def unit? : String → Option TimeUnit
  | "nanos" | "nsec" | "ns" => some (.ofNanos 1)
  | "usec" | "us" | "µs" => some (.ofNanos 1000)
  | "millis" | "msec" | "ms" => some (.ofNanos 1000000)
  | "seconds" | "second" | "secs" | "sec" | "s" => some (.ofSecs 1)
  | "minutes" | "minute" | "min" | "mins" | "m" => some (.ofSecs 60)
  | "hours" | "hour" | "hr" | "hrs" | "h" => some (.ofSecs 3600)
  | "days" | "day" | "d" => some (.ofSecs 86400)
  | "weeks" | "week" | "wk" | "wks" | "w" => some (.ofSecs 604800)
  | "months" | "month" | "M" => some (.ofSecs secondsPerMonth)
  | "years" | "year" | "yr" | "yrs" | "y" => some (.ofSecs secondsPerYear)
  | _ => none

/-- A decimal fraction `numerator / denominator`. -/
structure Fraction where
  numerator : Nat
  denominator : Nat

/-- A number that fits 64 bits. -/
def word? (n : Nat) : Option Nat := if n < UInt64.size then some n else none

/-- Add seconds and nanoseconds to a running total. -/
def addParts? (total : Duration) (secs nanos : Nat) : Option Duration := do
  let nanos ← word? (total.subsecNanos + nanos)
  let secs ← word? (secs + nanos / 1000000000)
  ofNanos? ((total.secs + secs) * 1000000000 + nanos % 1000000000)

/-- Add `number` units. -/
def addWhole? (total : Duration) (number : Nat) : TimeUnit → Option Duration
  | .ofNanos n => do total.addParts? 0 (← word? (number * n))
  | .ofSecs s => do total.addParts? (← word? (number * s)) 0

/-- `a / b` if it is a whole number. -/
def exactQuotient? (a b : Nat) : Option Nat := if a % b = 0 then some (a / b) else none

/-- Add a fraction of a unit. Up to minutes it must be a whole number of nanoseconds, from hours on
a whole number of seconds, and a nanosecond has no fractions. -/
def addFraction? (total : Duration) (f : Fraction) : TimeUnit → Option Duration
  | .ofNanos 1 => none
  | .ofNanos n => do
    total.addParts? 0 (← exactQuotient? (← word? (f.numerator * n)) f.denominator)
  | .ofSecs s => do
    if s ≤ 60 then
      total.addParts? 0 (← exactQuotient? (← word? (f.numerator * (s * 1000000000))) f.denominator)
    else total.addParts? (← exactQuotient? (← word? (f.numerator * s)) f.denominator) 0

/-! ## Reading -/

/-- The characters of a text with their byte offsets, and the offset of its end. -/
structure Located where
  chars : List (Nat × Char)
  last : Nat

def locate (s : String) : Located :=
  let step (acc : List (Nat × Char) × Nat) (c : Char) := ((acc.2, c) :: acc.1, acc.2 + c.utf8Size)
  let (chars, last) := s.toList.foldl step ([], 0)
  ⟨chars.reverse, last⟩

/-- The offset of the next character. -/
def Located.offset (t : Located) : Nat :=
  match t.chars with
  | [] => t.last
  | (o, _) :: _ => o

/-- The letters that unit names are made of. -/
def isUnitChar (c : Char) : Bool := ('a' ≤ c && c ≤ 'z') || ('A' ≤ c && c ≤ 'Z') || c = 'µ'

/-- The digits of a fraction, blanks between them being skipped; `mark` is the offset that a wrong
character is reported at. -/
def readFraction (last : Nat) : Nat → Fraction → List (Nat × Char) →
    Except DurationTextError (Fraction × List (Nat × Char))
  | mark, f, [] => if f.denominator = 1 then .error (.invalidCharacter mark) else .ok (f, [])
  | mark, f, (o, c) :: rest =>
    let next := Located.offset ⟨rest, last⟩
    if isDigit c then
      let n := f.numerator * 10 + digitValue c
      let d := f.denominator * 10
      if n < UInt64.size ∧ d < UInt64.size then readFraction last next ⟨n, d⟩ rest
      else .error .tooLarge
    else if isBlank c then readFraction last next f rest
    else if isUnitChar c then
      if f.denominator = 1 then .error (.invalidCharacter mark) else .ok (f, (o, c) :: rest)
    else .error (.invalidCharacter mark)

/-- The rest of a number up to its unit: its value, its fraction, and what follows. -/
def readNumber (last : Nat) : Nat → List (Nat × Char) →
    Except DurationTextError (Nat × Option Fraction × List (Nat × Char))
  | n, [] => .ok (n, none, [])
  | n, (o, c) :: rest =>
    if isDigit c then
      let n := n * 10 + digitValue c
      if n < UInt64.size then readNumber last n rest else .error .tooLarge
    else if isBlank c then readNumber last n rest
    else if isUnitChar c then .ok (n, none, (o, c) :: rest)
    else if c = '.' then
      (readFraction last o ⟨0, 1⟩ rest).map fun r => (n, some r.1, r.2)
    else .error (.invalidCharacter o)

/-- Add a number with the unit of the given name. -/
def addNamed (total : Duration) (n : Nat) (f : Option Fraction) (name : String) :
    Except DurationTextError Duration :=
  match unit? name with
  | none => .error (if name.isEmpty then .unitNeeded n else .unknownUnit name)
  | some u =>
    let sum := (total.addWhole? n u).bind fun d => match f with
      | none => some d
      | some f => d.addFraction? f u
    match sum with
    | none => .error .tooLarge
    | some d => .ok d

/-- Read numbers with units until the text ends. `first` says that nothing was read yet. -/
def readItems (last : Nat) : Nat → Bool → Duration → List (Nat × Char) →
    Except DurationTextError Duration
  | 0, _, _, _ => .error .tooLarge
  | fuel + 1, first, total, cs =>
    match cs.dropWhile (fun e => isBlank e.2) with
    | [] => if first then .error .empty else .ok total
    | (o, c) :: rest =>
      if isDigit c then do
        let (n, f, rest) ← readNumber last (digitValue c) rest
        let name := rest.takeWhile (fun e => isUnitChar e.2)
        let after := rest.dropWhile (fun e => isUnitChar e.2)
        match after with
        | (o', c') :: _ =>
          if ¬ isDigit c' ∧ ¬ isBlank c' then throw (.invalidCharacter o')
        | [] => pure ()
        let total ← addNamed total n f (String.ofList (name.map (·.2)))
        readItems last fuel false total after
      else .error (.numberExpected o)

/-- Read a duration text. -/
def parse (s : String) : Except DurationTextError Duration :=
  if s = "0" then .ok zero
  else
    let t := locate s
    readItems t.last (t.chars.length + 1) true zero t.chars

/-! ## Writing -/

/-- A count with a unit whose name takes an `s` from two on; nothing for zero. -/
def pluralPart (n : Nat) (name : String) : List String :=
  if n = 0 then [] else [toString n ++ name ++ (if n > 1 then "s" else "")]

/-- A count with a unit; nothing for zero. -/
def plainPart (n : Nat) (name : String) : List String :=
  if n = 0 then [] else [toString n ++ name]

/-- The parts of a duration's text, largest unit first. -/
def textParts (d : Duration) : List String :=
  let s := d.secs
  let ofYear := s % secondsPerYear
  let ofMonth := ofYear % secondsPerMonth
  let ofDay := ofMonth % 86400
  let n := d.subsecNanos
  pluralPart (s / secondsPerYear) "year" ++ pluralPart (ofYear / secondsPerMonth) "month" ++
    pluralPart (ofMonth / 86400) "day" ++ plainPart (ofDay / 3600) "h" ++
    plainPart (ofDay % 3600 / 60) "m" ++ plainPart (ofDay % 60) "s" ++
    plainPart (n / 1000000) "ms" ++ plainPart (n / 1000 % 1000) "us" ++ plainPart (n % 1000) "ns"

/-- The text of a duration: its non-zero parts joined by blanks, or `0s`. -/
def toText (d : Duration) : String := if d.isZero then "0s" else " ".intercalate d.textParts

end Duration

end JobEngine
