/-
  The text of a number.

  * `Number.text` writes a double with the fewest digits that read back: with a
    decimal point while the decimal exponent is in the range of `layout`, else
    with an exponent;
  * `Number.display` is the same, except that an integral double below `10 ^ 21`
    is written as its exact integer.
-/
import DataBinding.Number.Basic
import DataBinding.Number.Shortest

namespace DataBinding

/-- How a decimal is laid out. -/
structure Layout where
  /-- The least decimal exponent written with a decimal point. -/
  least : Int
  /-- The greatest one. -/
  greatest : Int
  deriving Repr

namespace Layout

/-- The decimal digits of a natural number. -/
def digitsOf (n : Nat) : List Char :=
  Nat.toDigits 10 n

/-- A decimal with its point and without an exponent. -/
def positional (digits : List Char) (exponent : Int) : List Char :=
  let point : Int := digits.length + exponent
  if 0 ≤ exponent then digits ++ List.replicate exponent.toNat '0' ++ ['.', '0']
  else if 0 < point then digits.take point.toNat ++ '.' :: digits.drop point.toNat
  else '0' :: '.' :: List.replicate (-point).toNat '0' ++ digits

/-- A decimal with one digit before the point, and an exponent with its sign. -/
def scientific (digits : List Char) (exponent : Int) : List Char :=
  let fraction := digits.drop 1
  let sign := if exponent < 0 then '-' else '+'
  digits.take 1 ++ (if fraction.isEmpty then [] else '.' :: fraction)
    ++ 'e' :: sign :: digitsOf exponent.natAbs

/-- A decimal as text. -/
def write (layout : Layout) (d : Decimal) : List Char :=
  let digits := digitsOf d.digits
  let exponent : Int := digits.length - 1 + d.exponent
  if layout.least ≤ exponent ∧ exponent ≤ layout.greatest then positional digits d.exponent
  else scientific digits exponent

end Layout

namespace Number

/-- Doubles have a decimal point from `0.00001` to below `10 ^ 16`. -/
def layout : Layout := ⟨-5, 15⟩

/-- The text of a double, with the fewest digits that read back. -/
def doubleText (x : Double) : String :=
  let magnitude :=
    match x.shortest? with
    | some d => layout.write d
    | none => ['0', '.', '0']
  String.ofList (if x.negative then '-' :: magnitude else magnitude)

/-- The text of a number. -/
def text : Number → String
  | .int n _ => toString n
  | .float x => doubleText x

/-- The text shown for a number: an integral double below `10 ^ 21` has no
    fraction. -/
def display : Number → String
  | .int n _ => toString n
  | .float x =>
    if x.isIntegral && x.wholePart < tenTo 21 then
      (if x.negative then "-" else "") ++ toString x.wholePart
    else doubleText x

end Number

end DataBinding
