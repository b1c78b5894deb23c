-- SUMMARY: The fewest decimal digits that read back as a given double, and the texts made of them.
import JobEngine.Binary64.Basic

/-!
# Shortest decimal texts

`Binary64.shortest` gives the decimal number `digits · 10 ^ power` with the fewest digits among
those that round to a given double, and of these the one nearest to it. Two layouts are built from
it: a positional one, and one that falls back to an exponent for very large and very small numbers.
-/

namespace JobEngine.Binary64

/-! ## Digits -/

/-- A decimal number `digits · 10 ^ power`. -/
structure Decimal where
  digits : Nat
  power : Int
deriving DecidableEq, Repr

/-- The value `num / den` of a double with the half-gaps below and above it, over one denominator,
and whether the ends of the interval still round to it. -/
structure RoundingInterval where
  num : Nat
  below : Nat
  above : Nat
  den : Nat
  closed : Bool

/-- The interval of rational numbers that round to a finite positive double. The gap below a power
of two is half as wide as the gap above it. -/
def roundingInterval (x : Binary64) : RoundingInterval :=
  let m := x.significand
  let narrow := m = leadingBit ∧ 1 < x.biasedExponent
  -- In quarters of the last place.
  let quarters := 4 * m
  let below := if narrow then 1 else 2
  let e := x.exponent
  if 0 ≤ e then
    let s := 1 <<< e.toNat
    ⟨quarters * s, below * s, 2 * s, 4, m % 2 = 0⟩
  else ⟨quarters, below, 2, 4 <<< (-e).toNat, m % 2 = 0⟩

/-- Whether `c / den` lies in the interval, for `c` over the interval's denominator. -/
def RoundingInterval.admits (i : RoundingInterval) (c : Nat) : Bool :=
  if i.closed then i.num ≤ c + i.below && c ≤ i.num + i.above
  else i.num < c + i.below && c < i.num + i.above

/-- The multiple of `10 ^ power` in the interval that is nearest to the value, if there is one: the
two neighbours of the value on that grid are tried, an exact tie going to the even digits. -/
def RoundingInterval.onGrid? (i : RoundingInterval) (power : Int) : Option Nat :=
  -- Scale so that one grid step is a whole number.
  let step := if 0 ≤ power then i.den * tenTo power.toNat else i.den
  let up := if 0 ≤ power then 1 else tenTo (-power).toNat
  let scaled : RoundingInterval :=
    { i with num := i.num * up, below := i.below * up, above := i.above * up }
  let lower := scaled.num / step
  let rest := scaled.num % step
  let lowerOk := lower ≠ 0 && scaled.admits (lower * step)
  let upperOk := scaled.admits ((lower + 1) * step)
  if lowerOk && upperOk then
    if 2 * rest < step then some lower
    else if step < 2 * rest then some (lower + 1)
    else if lower % 2 = 0 then some lower else some (lower + 1)
  else if lowerOk then some lower
  else if upperOk then some (lower + 1)
  else none

/-- Try the grids from `power` downwards; the first one with a hit has the fewest digits. -/
def RoundingInterval.coarsest (i : RoundingInterval) : Nat → Int → Decimal
  | 0, power => ⟨0, power⟩
  | fuel + 1, power =>
    match i.onGrid? power with
    | some c => ⟨c, power⟩
    | none => i.coarsest fuel (power - 1)

/-- Move trailing zeros of the digits into the power. -/
def Decimal.trim : Nat → Decimal → Decimal
  | 0, d => d
  | fuel + 1, d =>
    if d.digits ≠ 0 ∧ d.digits % 10 = 0 then Decimal.trim fuel ⟨d.digits / 10, d.power + 1⟩ else d

/-- The decimal with the fewest digits that rounds to the magnitude of a finite double. -/
def shortest (x : Binary64) : Decimal :=
  if x.significand = 0 then ⟨0, 0⟩
  else
    let i := x.roundingInterval
    -- One more than the decimal exponent of the value, found from its binary exponent.
    let binary : Int := Nat.log2 x.significand + x.exponent
    let top : Int := (binary + 1) * 30103 / 100000 + 1
    -- At most 17 digits are needed, after at most two grids that are too coarse.
    Decimal.trim 20 (i.coarsest 24 top)

/-! ## Layouts -/

/-- The digits of a natural number, most significant first. -/
def digitChars (n : Nat) : List Char := Nat.toDigits 10 n

/-- The digits with the point in its place and no exponent; a whole number has neither a point nor
a fraction. -/
def Decimal.positional (d : Decimal) : String :=
  let ds := digitChars d.digits
  if d.digits = 0 then "0"
  else if 0 ≤ d.power then String.ofList (ds ++ List.replicate d.power.toNat '0')
  else
    let places := (-d.power).toNat
    if places < ds.length then
      String.ofList (ds.take (ds.length - places) ++ '.' :: ds.drop (ds.length - places))
    else String.ofList ('0' :: '.' :: List.replicate (places - ds.length) '0' ++ ds)

/-- The name of a number that has no digits. -/
def nonFiniteText (x : Binary64) : String :=
  if x.isNaN then "NaN" else if x.isNegative then "-inf" else "inf"

/-- Positional text: `1.5`, `1`, `-0`, `100000000000000000000`. -/
def plainText (x : Binary64) : String :=
  if !x.isFinite then x.nonFiniteText
  else (if x.isNegative then "-" else "") ++ x.shortest.positional

/-- Text for a data format: a whole number keeps `.0`, and numbers from `10 ^ 16` upwards or below
`10 ^ -5` have an exponent, as in `1.5`, `1.0`, `1e16`, `1.25e-7`. -/
def exponentText (x : Binary64) : String :=
  let d := x.shortest
  let ds := digitChars d.digits
  -- The power of ten of the point seen from the left of the digits.
  let point : Int := ds.length + d.power
  let body :=
    if d.digits = 0 then "0.0"
    else if 0 ≤ d.power ∧ point ≤ 16 then d.positional ++ ".0"
    else if -5 < point ∧ point ≤ 16 then d.positional
    else
      let mantissa := match ds with
        | [] => []
        | [c] => [c]
        | c :: rest => c :: '.' :: rest
      String.ofList mantissa ++ "e" ++ toString (point - 1)
  (if x.isNegative then "-" else "") ++ body

end JobEngine.Binary64
