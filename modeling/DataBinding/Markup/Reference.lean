/-
  Character references.

  `reference?` reads the reference that follows an ampersand: a number, or the
  longest known name.  Some names may be written without their semicolon, but
  not in an attribute value before a letter, a digit or an equals sign.
-/
import DataBinding.Markup.ReferenceNames
import DataBinding.Json.Reader

namespace DataBinding.Markup

/-- The character that stands for a code point that is none. -/
def replacement : Char := Char.ofNat 0xFFFD

/-- The characters meant by the numbers from 128 to 159, where these are not
    control characters; 0 marks the ones that are. -/
def legacyCodePoints : List Nat :=
  [0x20AC, 0, 0x201A, 0x0192, 0x201E, 0x2026, 0x2020, 0x2021, 0x02C6, 0x2030, 0x0160, 0x2039,
    0x0152, 0, 0x017D, 0, 0, 0x2018, 0x2019, 0x201C, 0x201D, 0x2022, 0x2013, 0x2014, 0x02DC,
    0x2122, 0x0161, 0x203A, 0x0153, 0, 0x017E, 0x0178]

/-- The character of a number. -/
def charOfNumber (n : Nat) : Char :=
  if n = 0 ∨ 0x10FFFF < n ∨ (0xD800 ≤ n ∧ n ≤ 0xDFFF) then replacement
  else if 0x80 ≤ n ∧ n ≤ 0x9F then
    match legacyCodePoints[n - 0x80]? with
    | some 0 => Char.ofNat n
    | some m => Char.ofNat m
    | none => Char.ofNat n
  else Char.ofNat n

/-- One entry of the list of names. -/
def NamedReference.ofEntry (entry : List Char) : NamedReference where
  name := entry.takeWhile Char.isAlphanum
  bare := entry.contains '*'
  expansion :=
    (Text.splitChars '+' ((entry.dropWhile (· ≠ ':')).drop 1)).map fun cs =>
      charOfNumber (hexValue cs)

/-- The named characters. -/
def namedReferences : List NamedReference :=
  markupReferences ++
    (Text.runsOutside Text.isBlank [] referenceNames.toList).map NamedReference.ofEntry

/-- The rest after an optional semicolon. -/
def dropSemicolon : List Char → List Char
  | ';' :: rest => rest
  | rest => rest

/-- A numeric reference in base 10, after its number sign. -/
def decimalReference? (cs : List Char) : Option (Char × List Char) :=
  let digits := cs.takeWhile Char.isDigit
  if digits.isEmpty then none
  else some (charOfNumber (Double.digitsValue digits), dropSemicolon (cs.dropWhile Char.isDigit))

/-- Whether a character is a hexadecimal digit. -/
def isHexDigit (c : Char) : Bool :=
  (Json.hexDigit? c).isSome

/-- A numeric reference in base 16, after its letter. -/
def hexReference? (cs : List Char) : Option (Char × List Char) :=
  let digits := cs.takeWhile isHexDigit
  if digits.isEmpty then none
  else
    let n := digits.foldl (fun n c => 16 * n + (Json.hexDigit? c).getD 0) 0
    some (charOfNumber n, dropSemicolon (cs.dropWhile isHexDigit))

/-- The longest name without semicolon that begins a run of letters and
    digits: `n` bounds its length. -/
def bareName? (run : List Char) : Nat → Option NamedReference
  | 0 => none
  | n + 1 =>
    match namedReferences.find? fun r => r.bare && r.name == run.take (n + 1) with
    | some r => some r
    | none => bareName? run n

/-- A named reference. -/
def namedReference? (inAttribute : Bool) (cs : List Char) : Option (List Char × List Char) :=
  let run := cs.takeWhile Char.isAlphanum
  let rest := cs.dropWhile Char.isAlphanum
  let exact :=
    match rest with
    | ';' :: rest => (namedReferences.find? (·.name == run)).map fun r => (r.expansion, rest)
    | _ => none
  match exact with
  | some found => some found
  | none =>
    match bareName? run run.length with
    | none => none
    | some r =>
      let after := cs.drop r.name.length
      let blocked := inAttribute && after.head?.any fun c => c = '=' || c.isAlphanum
      if blocked then none else some (r.expansion, after)

/-- The reference that follows an ampersand: its characters and the rest. -/
def reference? (inAttribute : Bool) : List Char → Option (List Char × List Char)
  | '#' :: 'x' :: rest => (hexReference? rest).map fun r => ([r.1], r.2)
  | '#' :: 'X' :: rest => (hexReference? rest).map fun r => ([r.1], r.2)
  | '#' :: rest => (decimalReference? rest).map fun r => ([r.1], r.2)
  | cs => namedReference? inAttribute cs

end DataBinding.Markup
