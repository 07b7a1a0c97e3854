/-
  The shortest decimal that reads back to the same double.

  Around a positive double lies the interval of the numbers that round to it;
  its ends belong to it when the significand is even.  `Decimal.shortest?`
  looks for a decimal of one digit in that interval, then of two, and so on:
  it tries the two neighbours of the double on the grid of decimals with that
  many digits, and takes the nearer if both are inside, the even one of a tie.
-/
import DataBinding.Number.Double

namespace DataBinding

/-- A decimal: `digits * 10 ^ exponent`. -/
structure Decimal where
  /-- The digits, as one integer. -/
  digits : Nat
  /-- The power of ten. -/
  exponent : Int
  deriving DecidableEq, Repr

namespace Decimal

/-- A decimal without trailing zeros; `fuel` bounds the number dropped. -/
def stripZeros : Nat → Nat → Int → Decimal
  | 0, digits, exponent => ⟨digits, exponent⟩
  | fuel + 1, digits, exponent =>
    if digits % 10 = 0 then stripZeros fuel (digits / 10) (exponent + 1) else ⟨digits, exponent⟩

/-- The number of decimal digits. -/
def length (n : Nat) : Nat :=
  (Nat.toDigits 10 n).length

end Decimal

namespace Double

open Number (twoTo tenTo)

/-- The magnitude, in quarters of the least positive double. -/
def quarters (x : Double) : Nat :=
  4 * x.units

/-- The distance from a double up to the end of the interval that rounds to it,
    in quarters of the least positive double. -/
def gapAbove (x : Double) : Nat :=
  2 * twoTo x.exponent

/-- The distance down to the other end: half as much below a power of two. -/
def gapBelow (x : Double) : Nat :=
  if x.significand = 0x10000000000000 ∧ 0 < x.exponent then twoTo x.exponent else 2 * twoTo x.exponent

/-- Whether `num / den`, in quarters of the least positive double, rounds to
    the magnitude of `x`. -/
def roundsHere (x : Double) (num den : Nat) : Bool :=
  let low := (x.quarters - x.gapBelow) * den
  let high := (x.quarters + x.gapAbove) * den
  if x.significand % 2 = 0 then low ≤ num && num ≤ high else low < num && num < high

/-- The least `k` with the magnitude below `10 ^ k`, for a double other than
    zero. -/
def magnitude (x : Double) : Int :=
  let whole := x.wholePart
  if whole = 0 then
    match (List.range 330).find? (fun j => twoTo 1074 ≤ x.units * tenTo (j + 1)) with
    | some j => -(j : Int)
    | none => -330
  else Decimal.length whole

/-- The neighbour of `x` with `n` digits that rounds to it, if there is one. -/
def onGrid? (x : Double) (n : Nat) : Option Decimal :=
  let step : Int := x.magnitude - n
  -- one step of the grid is `up / down` quarters
  let up := tenTo step.toNat * (4 * twoTo 1074)
  let down := tenTo (-step).toNat
  let value := x.quarters * down
  let below := value / up
  let above := below + 1
  let lowOk := x.roundsHere (below * up) down
  let highOk := x.roundsHere (above * up) down
  let lowDistance := value - below * up
  let highDistance := above * up - value
  if lowOk && highOk then
    if lowDistance < highDistance || (lowDistance == highDistance && below % 2 == 0) then
      some ⟨below, step⟩
    else some ⟨above, step⟩
  else if lowOk then some ⟨below, step⟩
  else if highOk then some ⟨above, step⟩
  else none

/-- The shortest decimal of the magnitude, without trailing zeros; none for
    zero. -/
def shortest? (x : Double) : Option Decimal :=
  if x.significand = 0 then none
  else
    ((List.range 17).findSome? fun n => x.onGrid? (n + 1)).map fun d =>
      Decimal.stripZeros 400 d.digits d.exponent

end Double

end DataBinding
