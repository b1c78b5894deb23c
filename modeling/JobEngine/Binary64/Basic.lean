-- SUMMARY: Double-precision numbers as bit patterns, with exact rounding of rational numbers.
import JobEngine.Text.Digits

/-!
# Double-precision numbers

A `Binary64` is the bit pattern of an IEEE 754 double. A finite one stands for
`± significand · 2 ^ exponent`, with an integer significand below `2 ^ 53`. Every operation here is
computed on exact rational numbers and rounded once, to the nearest double and on a tie to the one
with the even significand, so nothing depends on machine arithmetic.
-/

namespace JobEngine

/-- A double-precision number, given by its bits. -/
structure Binary64 where
  bits : UInt64
deriving DecidableEq, Inhabited, Repr

/-- A non-negative rational number with a sign, not necessarily in lowest terms. -/
structure SignedRatio where
  negative : Bool
  num : Nat
  den : Nat

namespace Binary64

/-! ## Reading the bits -/

/-- The highest bit, which is the sign. -/
def signBit : Nat := 0x8000000000000000

/-- The bit above the fraction bits, which a significand has unless it is subnormal. -/
def leadingBit : Nat := 0x10000000000000

def isNegative (x : Binary64) : Bool := signBit ≤ x.bits.toNat

/-- The eleven exponent bits. -/
def biasedExponent (x : Binary64) : Nat := x.bits.toNat / leadingBit % 2048

/-- The fifty-two fraction bits. -/
def fraction (x : Binary64) : Nat := x.bits.toNat % leadingBit

def isFinite (x : Binary64) : Bool := x.biasedExponent ≠ 2047
def isNaN (x : Binary64) : Bool := x.biasedExponent = 2047 ∧ x.fraction ≠ 0
def isInfinite (x : Binary64) : Bool := x.biasedExponent = 2047 ∧ x.fraction = 0

/-- The integer significand of a finite number. -/
def significand (x : Binary64) : Nat :=
  if x.biasedExponent = 0 then x.fraction else x.fraction + leadingBit

/-- The power of two that scales the significand. -/
def exponent (x : Binary64) : Int := (max x.biasedExponent 1 : Nat) - 1075

def isZero (x : Binary64) : Bool := x.isFinite && x.significand == 0

/-- The value of a finite number. -/
def toRatio (x : Binary64) : SignedRatio :=
  if 0 ≤ x.exponent then ⟨x.isNegative, x.significand <<< x.exponent.toNat, 1⟩
  else ⟨x.isNegative, x.significand, 1 <<< (-x.exponent).toNat⟩

/-! ## Rounding -/

/-- Divide and round to the nearest integer, a tie going to the even one. -/
def divRoundEven (num den : Nat) : Nat :=
  let q := num / den
  let r := num % den
  if 2 * r < den then q
  else if den < 2 * r then q + 1
  else if q % 2 = 0 then q else q + 1

/-- The bits of the magnitude nearest to `num / den`; an overflow gives infinity. -/
def magnitudeBits (num den : Nat) : Nat :=
  if num = 0 then 0
  else
    -- The scale at which the quotient has 53 bits, or the smallest scale there is.
    let rough : Int := (Nat.log2 num : Int) - Nat.log2 den - 52
    let fits (e : Int) : Bool :=
      if 0 ≤ e then num < (2 * leadingBit * den) <<< e.toNat
      else num <<< (-e).toNat < 2 * leadingBit * den
    let tight := if fits (rough - 1) then rough - 1 else if fits rough then rough else rough + 1
    let e := max tight (-1074)
    let q := if 0 ≤ e then divRoundEven num (den <<< e.toNat)
      else divRoundEven (num <<< (-e).toNat) den
    -- A subnormal has exponent bits 0; the carry of a significand into the exponent is right as is.
    let bits := if q < leadingBit then q else (e + 1075).toNat * leadingBit + (q - leadingBit)
    min bits (2047 * leadingBit)

/-- The double nearest to a rational number. -/
def ofRatio (r : SignedRatio) : Binary64 :=
  let magnitude := magnitudeBits r.num r.den
  ⟨UInt64.ofNat (if r.negative then signBit + magnitude else magnitude)⟩

def ofNat (n : Nat) : Binary64 := ofRatio ⟨false, n, 1⟩
def ofInt (n : Int) : Binary64 := ofRatio ⟨n < 0, n.natAbs, 1⟩

/-- The double nearest to `± digits · 10 ^ power`. -/
def ofDecimal (negative : Bool) (digits : Nat) (power : Int) : Binary64 :=
  if 0 ≤ power then ofRatio ⟨negative, digits * tenTo power.toNat, 1⟩
  else ofRatio ⟨negative, digits, tenTo (-power).toNat⟩

def infinity : Binary64 := ⟨0x7ff0000000000000⟩
def nan : Binary64 := ⟨0x7ff8000000000000⟩
def zero : Binary64 := ⟨0⟩

def neg (x : Binary64) : Binary64 := ⟨x.bits ^^^ 0x8000000000000000⟩

/-! ## Arithmetic on finite numbers -/

/-- The product, rounded once. -/
def mul (x y : Binary64) : Binary64 :=
  let a := x.toRatio
  let b := y.toRatio
  ofRatio ⟨a.negative != b.negative, a.num * b.num, a.den * b.den⟩

/-- The quotient by a number other than zero, rounded once. -/
def div (x y : Binary64) : Binary64 :=
  let a := x.toRatio
  let b := y.toRatio
  ofRatio ⟨a.negative != b.negative, a.num * b.den, a.den * b.num⟩

/-- The sum, rounded once. -/
def add (x y : Binary64) : Binary64 :=
  let a := x.toRatio
  let b := y.toRatio
  let part (r : SignedRatio) (scale : Nat) : Int :=
    if r.negative then -(r.num * scale : Nat) else (r.num * scale : Nat)
  let s := part a b.den + part b a.den
  if s = 0 then (if a.negative && b.negative then neg zero else zero)
  else ofRatio ⟨s < 0, s.natAbs, a.den * b.den⟩

/-- A key that orders all numbers but NaN as their values; both zeros have one key. -/
def orderKey (x : Binary64) : Int :=
  let magnitude : Nat := x.bits.toNat % signBit
  if x.isNegative then -magnitude else magnitude

/-- The numeric order; NaN is comparable to nothing. -/
def le (x y : Binary64) : Bool := !x.isNaN && !y.isNaN && x.orderKey ≤ y.orderKey

/-- The nearest integer of a finite number, a half going away from zero. -/
def roundToInt (x : Binary64) : Int :=
  let r := x.toRatio
  let q : Nat := (2 * r.num + r.den) / (2 * r.den)
  if r.negative then -q else q

end Binary64

end JobEngine
