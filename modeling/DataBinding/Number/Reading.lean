/-
  Numbers from decimal digits.

  * `Double.ofDecimal` rounds a decimal once, to the nearest double; one that is
    too large is infinite;
  * `Double.read?` reads the text of a decimal, or of an infinity or no number;
  * `Double.scaled?` is the quicker way of plain data: as many digits as fit 64
    bits, multiplied or divided by a power of ten in double arithmetic.
-/
import DataBinding.Number.Basic

namespace DataBinding

/-- What the text of a double denotes: a finite double, or no finite number. -/
inductive Double.Rounded where
  /-- A finite double. -/
  | finite (x : Double)
  /-- An infinity, or no number at all. -/
  | notFinite
  deriving DecidableEq

namespace Double

/-- The value of decimal digits. -/
def digitsValue (digits : List Char) : Nat :=
  digits.foldl (fun n c => 10 * n + (c.toNat - '0'.toNat)) 0

/-- The double nearest to `± digits * 10 ^ exponent`. -/
def ofDecimal (negative : Bool) (digits : Nat) (exponent : Int) : Rounded :=
  let length : Int := (Nat.toDigits 10 digits).length
  if digits = 0 ∨ exponent + length < -400 then .finite (zero negative)
  else if 400 < exponent + length then .notFinite
  else
    match ofRatio? negative (digits * Number.tenTo exponent.toNat) (Number.tenTo (-exponent).toNat) with
    | some x => .finite x
    | none => .notFinite

/-- An exponent: an optional sign and digits, to the end. -/
def readExponent? (cs : List Char) : Option Int :=
  let (negative, digits) :=
    match cs with
    | '-' :: rest => (true, rest)
    | '+' :: rest => (false, rest)
    | rest => (false, rest)
  if digits.isEmpty || !digits.all Char.isDigit then none
  else
    let n : Int := digitsValue digits
    some (if negative then -n else n)

/-- An unsigned decimal: digits, optionally a point among them, optionally an
    exponent. -/
def readUnsigned? (negative : Bool) (cs : List Char) : Option Rounded :=
  let whole := cs.takeWhile Char.isDigit
  let rest := cs.dropWhile Char.isDigit
  let (fraction, tail) :=
    match rest with
    | '.' :: rest => (rest.takeWhile Char.isDigit, rest.dropWhile Char.isDigit)
    | rest => ([], rest)
  if whole.isEmpty && fraction.isEmpty then none
  else
    let digits := digitsValue (whole ++ fraction)
    let least : Int := -(fraction.length : Int)
    match tail with
    | [] => some (ofDecimal negative digits least)
    | c :: tail =>
      if c = 'e' ∨ c = 'E' then
        (readExponent? tail).map fun e => ofDecimal negative digits (e + least)
      else none

/-- The double that a text denotes, in decimal or as the name of an infinity or
    of no number; none if it denotes neither. -/
def read? (s : String) : Option Rounded :=
  let (negative, cs) :=
    match s.toList with
    | '-' :: rest => (true, rest)
    | '+' :: rest => (false, rest)
    | rest => (false, rest)
  let name := String.ofList (cs.map fun c => if 'A' ≤ c ∧ c ≤ 'Z' then Char.ofNat (c.toNat + 32) else c)
  if name = "inf" ∨ name = "infinity" ∨ name = "nan" then some .notFinite
  else readUnsigned? negative cs

/-- The double nearest to a power of ten, up to `10 ^ 308`. -/
def powerOfTen (k : Nat) : Double :=
  (ofRatio? false (Number.tenTo k) 1).getD (zero false)

/-- Divide by a power of ten, in steps of at most `10 ^ 308`; `fuel` bounds the
    steps. -/
def scaleDown : Nat → Double → Nat → Double
  | 0, x, _ => x
  | fuel + 1, x, k =>
    if k ≤ 308 then (x.div? (powerOfTen k)).getD (zero x.negative)
    else if x.significand = 0 then x
    else scaleDown fuel ((x.div? (powerOfTen 308)).getD (zero x.negative)) (k - 308)

/-- `± digits * 10 ^ exponent`, by rounded products or quotients with powers of
    ten; none if it is too large. -/
def scaled? (negative : Bool) (digits : Nat) (exponent : Int) : Option Double := do
  let x ← ofRatio? false digits 1
  let y ←
    if exponent < 0 then some (scaleDown 4 x exponent.natAbs)
    else if exponent ≤ 308 then x.mul? (powerOfTen exponent.toNat)
    else if digits = 0 then some x
    else none
  some (if negative then y.neg else y)

end Double

end DataBinding
