/-
  Finite double-precision numbers, in exact arithmetic.

  A `Double` is a sign, a significand below `2 ^ 53` and an exponent; it denotes
  `± significand * 2 ^ exponent / 2 ^ 1074`.  The range condition makes the form
  unique, so that two doubles that denote the same number are the same, zero
  apart, which has two signs.

  * `Double.ofRatio?` rounds a fraction to the nearest double, a tie going to
    the even significand; there is none when the result is too large;
  * `Double.mul?` and `Double.div?` are the rounded product and quotient;
  * `Double.toBits` is the interchange encoding;
  * `Double.numericallyEqual` compares numbers, so that the two zeros are equal.
-/
import DataBinding.Number.Power

namespace DataBinding

/-- A finite double: `± significand * 2 ^ exponent / 2 ^ 1074`. -/
structure Double where
  /-- Whether the sign is minus. -/
  negative : Bool
  /-- The significand, an integer. -/
  significand : Nat
  /-- The exponent of two, counted from that of the least positive double. -/
  exponent : Nat
  /-- The significand has 53 bits, fewer only with the least exponent. -/
  inRange : significand < 0x20000000000000 ∧ (exponent = 0 ∨ 0x10000000000000 ≤ significand) ∧ exponent ≤ 2045
  deriving DecidableEq

namespace Double

open Number (twoTo)

/-- Positive or negative zero. -/
def zero (negative : Bool) : Double where
  negative := negative
  significand := 0
  exponent := 0
  inRange := by decide

/-- The nearest integer to `num / den`; a tie goes to the even one. -/
def roundRatio (num den : Nat) : Nat :=
  let q := num / den
  let r := num % den
  if den < 2 * r ∨ (2 * r = den ∧ q % 2 = 1) then q + 1 else q

/-- The double with a significand and exponent, if they are in range. -/
def ofParts? (negative : Bool) (significand exponent : Nat) : Option Double :=
  if h : significand < 0x20000000000000 ∧ (exponent = 0 ∨ 0x10000000000000 ≤ significand) ∧ exponent ≤ 2045 then
    some ⟨negative, significand, exponent, h⟩
  else none

/-- The double nearest to `± num / den`, a tie going to the even significand;
    none if it would be too large. -/
def ofRatio? (negative : Bool) (num den : Nat) : Option Double :=
  let scaled := num * twoTo 1074
  let whole := scaled / den
  let exponent := if whole < 0x20000000000000 then 0 else whole.log2 - 52
  let significand := roundRatio scaled (den * twoTo exponent)
  if significand = 0x20000000000000 then ofParts? negative 0x10000000000000 (exponent + 1)
  else ofParts? negative significand exponent

/-- The double nearest to an integer. -/
def ofInt? (n : Int) : Option Double :=
  ofRatio? (decide (n < 0)) n.natAbs 1

/-- The magnitude, in units of the least positive double. -/
def units (x : Double) : Nat :=
  x.significand * twoTo x.exponent

/-- The double with the opposite sign. -/
def neg (x : Double) : Double :=
  { x with negative := !x.negative }

/-- The rounded product; none if it would be too large. -/
def mul? (x y : Double) : Option Double :=
  ofRatio? (x.negative != y.negative) (x.units * y.units) (twoTo 2148)

/-- The rounded quotient by a double other than zero; none if it would be too
    large. -/
def div? (x y : Double) : Option Double :=
  ofRatio? (x.negative != y.negative) x.units y.units

/-- The 64 bits of the interchange encoding. -/
def toBits (x : Double) : Nat :=
  (if x.negative then 0x8000000000000000 else 0) + x.exponent * 0x10000000000000 + x.significand

/-- Whether two doubles denote the same number. -/
def numericallyEqual (x y : Double) : Bool :=
  x.units = y.units && (x.negative == y.negative || x.units == 0)

/-- Whether a double is an integer. -/
def isIntegral (x : Double) : Bool :=
  x.units % twoTo 1074 = 0

/-- The magnitude without its fraction. -/
def wholePart (x : Double) : Nat :=
  x.units / twoTo 1074

end Double

end DataBinding
