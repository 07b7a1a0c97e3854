/-
  Numbers: integers of 64 bits, signed or unsigned, and finite doubles.

  * `Number.toInt64?` is the integer, if it fits 64 signed bits, and
    `Number.toDouble` the nearest double;
  * `Number.equal` compares two integers of one range exactly and anything else
    as doubles;
  * `Number.same` is the finer equality of plain data, which tells integers
    from doubles.
-/
import DataBinding.Number.Double

namespace DataBinding

/-- An integer of 64 bits, signed or unsigned, or a finite double. -/
inductive Number where
  /-- An integer from the least signed to the greatest unsigned one. -/
  | int (n : Int) (inRange : -0x8000000000000000 ≤ n ∧ n < 0x10000000000000000)
  /-- A finite double. -/
  | float (x : Double)
  deriving DecidableEq

namespace Number

/-- The number of an integer, if it is in range. -/
def ofInt? (n : Int) : Option Number :=
  if h : -0x8000000000000000 ≤ n ∧ n < 0x10000000000000000 then some (.int n h) else none

/-- The integer that 64 signed bits hold, counting modulo `2 ^ 64`. -/
def wrap64 (n : Int) : Int :=
  (n + 0x8000000000000000) % 0x10000000000000000 - 0x8000000000000000

theorem wrap64_inRange (n : Int) : -0x8000000000000000 ≤ wrap64 n ∧ wrap64 n < 0x10000000000000000 := by
  unfold wrap64; omega

/-- The number of an integer counted modulo `2 ^ 64`. -/
def ofWrapped (n : Int) : Number :=
  .int (wrap64 n) (wrap64_inRange n)

/-- The integer, if it fits 64 signed bits. -/
def toInt64? : Number → Option Int
  | .int n _ => if n < 0x8000000000000000 then some n else none
  | .float _ => none

/-- The integer, if it fits 64 unsigned bits. -/
def toUInt64? : Number → Option Int
  | .int n _ => if 0 ≤ n then some n else none
  | .float _ => none

/-- The nearest double. -/
def toDouble : Number → Double
  | .int n _ => (Double.ofInt? n).getD (Double.zero false)
  | .float x => x

/-- Equality of numbers: two integers of one range exactly, anything else as
    doubles. -/
def equal (a b : Number) : Bool :=
  match a.toInt64?, b.toInt64? with
  | some m, some n => m == n
  | _, _ =>
    match a.toUInt64?, b.toUInt64? with
    | some m, some n => m == n
    | _, _ => a.toDouble.numericallyEqual b.toDouble

/-- Equality of plain data: an integer differs from every double. -/
def same : Number → Number → Bool
  | .int m _, .int n _ => m == n
  | .float x, .float y => x.numericallyEqual y
  | _, _ => false

end Number

end DataBinding
