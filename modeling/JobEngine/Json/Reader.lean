-- SUMMARY: Reading JSON texts, with the number arithmetic and the nesting limit of the format.
import JobEngine.Json.Basic
import JobEngine.Text.Digits
import JobEngine.Text.Hex

/-!
# Reading JSON

`Json.parse?` reads one value that fills a whole text. A number without point and exponent stays an
integer while it fits 64 bits. Any other number becomes a double in two rounded steps: its leading
digits, as many as fit 64 bits, are rounded, and the result is scaled by one power of ten, itself a
rounded double. Arrays and objects nest at most 127 deep.
-/

namespace JobEngine.Json

/-! ## Strings -/

/-- The number of four hexadecimal digits. -/
def hex4? (a b c d : Char) : Option Nat := do
  return (((← hexValue? a) * 16 + (← hexValue? b)) * 16 + (← hexValue? c)) * 16 + (← hexValue? d)

/-- The character behind a backslash other than `u`. -/
def simpleEscape? : Char → Option Char
  | '"' => some '"'
  | '\\' => some '\\'
  | '/' => some '/'
  | 'b' => some '\x08'
  | 'f' => some '\x0c'
  | 'n' => some '\n'
  | 'r' => some '\r'
  | 't' => some '\t'
  | _ => none

/-- The rest of a string after its opening quote: its characters and what follows the closing quote.
Control characters and halves of surrogate pairs are refused. -/
def readString : List Char → Option (List Char × List Char)
  | [] => none
  | '"' :: rest => some ([], rest)
  | '\\' :: 'u' :: a :: b :: c :: d :: rest =>
    match hex4? a b c d with
    | none => none
    | some n =>
      if 0xd800 ≤ n ∧ n < 0xdc00 then
        match rest with
        | '\\' :: 'u' :: e :: f :: g :: h :: rest' =>
          match hex4? e f g h with
          | none => none
          | some m =>
            if 0xdc00 ≤ m ∧ m < 0xe000 then
              let ch := Char.ofNat (0x10000 + (n - 0xd800) * 0x400 + (m - 0xdc00))
              (readString rest').map fun r => (ch :: r.1, r.2)
            else none
        | _ => none
      else if 0xdc00 ≤ n ∧ n < 0xe000 then none
      else (readString rest).map fun r => (Char.ofNat n :: r.1, r.2)
  | '\\' :: e :: rest =>
    match simpleEscape? e with
    | none => none
    | some ch => (readString rest).map fun r => (ch :: r.1, r.2)
  | c :: rest =>
    if c = '\\' ∨ c.toNat < 32 then none else (readString rest).map fun r => (c :: r.1, r.2)

/-! ## Numbers -/

/-- The leading digits of a number and the power of ten that scales them. -/
structure Leading where
  significand : Nat
  power : Int
  full : Bool

/-- Whether one more digit still fits 64 bits. -/
def Leading.fits (l : Leading) (d : Nat) : Bool := l.significand * 10 + d < UInt64.size

/-- Take one more digit before the point; one that does not fit only counts. -/
def Leading.whole (l : Leading) (c : Char) : Leading :=
  if l.full ∨ ¬ l.fits (digitValue c) then { l with power := l.power + 1, full := true }
  else { l with significand := l.significand * 10 + digitValue c }

/-- Take one more digit after the point; from the first one that does not fit on they are dropped.
-/
def Leading.fractional (l : Leading) (c : Char) : Leading :=
  if l.full ∨ ¬ l.fits (digitValue c) then { l with full := true }
  else { l with significand := l.significand * 10 + digitValue c, power := l.power - 1 }

/-- Scale a double by a power of ten in steps of at most `10 ^ 308`; `none` if it overflows. -/
def scaleByPower (fuel : Nat) (x : Binary64) (power : Int) : Option Binary64 :=
  let double (n : Nat) := Binary64.ofNat (tenTo n)
  if power.natAbs ≤ 308 then
    if 0 ≤ power then
      let y := x.mul (double power.natAbs)
      if y.isInfinite then none else some y
    else some (x.div (double power.natAbs))
  else if x.isZero then some x
  else if 0 ≤ power then none
  else
    match fuel with
    | 0 => some Binary64.zero
    | fuel + 1 => scaleByPower fuel (x.div (double 308)) (power + 308)

/-- The double of leading digits and a power of ten. -/
def Leading.toFloat? (l : Leading) (negative : Bool) (power : Int) : Option Json :=
  (scaleByPower 8 (Binary64.ofNat l.significand) power).map fun x =>
    .float (if negative then x.neg else x)

/-- An exponent after its letter, or `none` if it has no digit. -/
def readExponent (cs : List Char) : Option (Int × List Char) :=
  let (negative, body) := match cs with
    | '+' :: r => (false, r)
    | '-' :: r => (true, r)
    | r => (false, r)
  let (ds, rest) := takeDigits body
  if ds.isEmpty then none
  else
    let n := digitsValue ds
    some (if negative then -(n : Int) else n, rest)

/-- A value of the number grammar after its sign. -/
def readUnsigned (negative : Bool) (cs : List Char) : Option (Json × List Char) :=
  let (ds, rest) := takeDigits cs
  match ds with
  | [] => none
  | d :: more =>
    if d = '0' ∧ more ≠ [] then none
    else
      let whole := ds.foldl Leading.whole ⟨0, 0, false⟩
      let withFraction : Option (Leading × Bool × List Char) :=
        match rest with
        | '.' :: r =>
          let (fs, r) := takeDigits r
          if fs.isEmpty then none
          else some (fs.foldl Leading.fractional { whole with full := false }, true, r)
        | r => some (whole, false, r)
      match withFraction with
      | none => none
      | some (l, isFraction, r) =>
        match r with
        | c :: r' =>
          if c = 'e' ∨ c = 'E' then
            match readExponent r' with
            | none => none
            | some (e, r'') =>
              let v :=
                if 2147483648 ≤ e.natAbs then
                  -- Far beyond every double: zero, or out of range.
                  if 0 < e ∧ l.significand ≠ 0 then none
                  else some (.float (if negative then Binary64.zero.neg else Binary64.zero))
                else l.toFloat? negative (l.power + e)
              v.map (·, r'')
          else finish l isFraction r
        | [] => finish l isFraction r
where
  /-- A number without exponent: an integer if it has no point and fits. -/
  finish (l : Leading) (isFraction : Bool) (r : List Char) : Option (Json × List Char) :=
    if isFraction ∨ l.full then (l.toFloat? negative l.power).map (·, r)
    else if !negative then some (.int l.significand, r)
    else if l.significand = 0 then some (.float Binary64.zero.neg, r)
    else if l.significand ≤ wordLimit then some (.int (-l.significand), r)
    else some (.float (Binary64.ofNat l.significand).neg, r)

/-! ## Values -/

/-- The four characters that separate tokens. -/
def isSpace (c : Char) : Bool := c = ' ' || c = '\n' || c = '\t' || c = '\r'

def skipSpace (cs : List Char) : List Char := cs.dropWhile isSpace

/-- Drop a word from the front. -/
def afterWord? : List Char → List Char → Option (List Char)
  | [], cs => some cs
  | w :: ws, c :: cs => if w = c then afterWord? ws cs else none
  | _ :: _, [] => none

mutual
/-- A value at the front, inside at most `depth` more brackets. -/
def readValue (fuel depth : Nat) (cs : List Char) : Option (Json × List Char) :=
  match fuel with
  | 0 => none
  | fuel + 1 =>
    match skipSpace cs with
    | '"' :: r => (readString r).map fun s => (.str (String.ofList s.1), s.2)
    | '[' :: r =>
      if depth ≤ 1 then none
      else match skipSpace r with
        | ']' :: r => some (.arr [], r)
        | r => (readItems fuel (depth - 1) r).map fun x => (.arr x.1, x.2)
    | '\x7b' :: r =>
      if depth ≤ 1 then none
      else match skipSpace r with
        | '\x7d' :: r => some (.obj [], r)
        | r => (readFields fuel (depth - 1) r).map fun x => (object x.1, x.2)
    | 't' :: r => (afterWord? "rue".toList r).map (.bool true, ·)
    | 'f' :: r => (afterWord? "alse".toList r).map (.bool false, ·)
    | 'n' :: r => (afterWord? "ull".toList r).map (.null, ·)
    | '-' :: r => readUnsigned true r
    | r => readUnsigned false r
/-- One or more items up to the closing bracket. -/
def readItems (fuel depth : Nat) (cs : List Char) : Option (List Json × List Char) :=
  match fuel with
  | 0 => none
  | fuel + 1 =>
    match readValue fuel depth cs with
    | none => none
    | some (v, r) =>
      match skipSpace r with
      | ',' :: r => (readItems fuel depth r).map fun x => (v :: x.1, x.2)
      | ']' :: r => some ([v], r)
      | _ => none
/-- One or more fields up to the closing brace. -/
def readFields (fuel depth : Nat) (cs : List Char) : Option (List (String × Json) × List Char) :=
  match fuel with
  | 0 => none
  | fuel + 1 =>
    match skipSpace cs with
    | '"' :: r =>
      match readString r with
      | none => none
      | some (k, r) =>
        match skipSpace r with
        | ':' :: r =>
          match readValue fuel depth r with
          | none => none
          | some (v, r) =>
            match skipSpace r with
            | ',' :: r => (readFields fuel depth r).map fun x => ((String.ofList k, v) :: x.1, x.2)
            | '\x7d' :: r => some ([(String.ofList k, v)], r)
            | _ => none
        | _ => none
    | _ => none
end

/-- The value that a whole text stands for. -/
def parse? (s : String) : Option Json :=
  let cs := s.toList
  match readValue (2 * cs.length + 2) 128 cs with
  | some (v, r) => if (skipSpace r).isEmpty then some v else none
  | none => none

end JobEngine.Json
