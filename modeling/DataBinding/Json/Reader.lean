/-
  Reading plain data from text.

  A `Cursor` is the rest of a text with its place.  `Json.readValue` reads one value
  and returns the cursor after it; `Json.read?` reads a whole text.

  Members keep the order of their first occurrence, and a repeated key takes the
  last value.  Values nest at most `maxDepth` deep.  The `lenient` reading, for a
  value that is dropped, checks the form alone: neither the range of a number
  nor the pairing of surrogates nor the depth.
-/
import DataBinding.Json.Basic
import DataBinding.Json.Error
import DataBinding.Number.Reading

namespace DataBinding.Json

/-- The rest of a text, and the place where it begins. -/
structure Cursor where
  /-- The characters to come. -/
  rest : List Char
  /-- The line, from 1. -/
  line : Nat
  /-- The bytes read of this line. -/
  column : Nat
  deriving DecidableEq

/-- How strictly a value is read. -/
inductive Reading where
  /-- The value is wanted. -/
  | strict
  /-- The value is dropped, and only its form is checked. -/
  | lenient
  deriving DecidableEq

namespace Cursor

/-- The beginning of a text. -/
def start (s : String) : Cursor := ⟨s.toList, 1, 0⟩

/-- The cursor after one more character. -/
def next (cur : Cursor) : Cursor :=
  match cur.rest with
  | [] => cur
  | c :: rest => if c = '\n' then ⟨rest, cur.line + 1, 0⟩ else ⟨rest, cur.line, cur.column + c.utf8Size⟩

/-- The cursor after `n` more characters. -/
def skip (cur : Cursor) : Nat → Cursor
  | 0 => cur
  | n + 1 => cur.next.skip n

/-- A refusal at this place. -/
def fail {α : Type} (cur : Cursor) (cause : Cause) : Except ReadError α :=
  .error ⟨cause, some (cur.line, cur.column)⟩

/-- A refusal at the first byte to come. -/
def failNext {α : Type} (cur : Cursor) (cause : Cause) : Except ReadError α :=
  match cur.rest with
  | [] => cur.fail cause
  | c :: _ =>
    .error ⟨cause, some (if c = '\n' then (cur.line + 1, 0) else (cur.line, cur.column + 1))⟩

/-- A blank between tokens. -/
def isGap (c : Char) : Bool :=
  c = ' ' || c = '\n' || c = '\t' || c = '\r'

/-- The cursor after the blanks. -/
def skipGaps (cur : Cursor) : Cursor :=
  cur.skip (cur.rest.takeWhile isGap).length

end Cursor

/-- Values nest below this depth. -/
def maxDepth : Nat := 128

/-! ## Strings -/

/-- The value of a hexadecimal digit. -/
def hexDigit? (c : Char) : Option Nat :=
  if '0' ≤ c ∧ c ≤ '9' then some (c.toNat - 48)
  else if 'a' ≤ c ∧ c ≤ 'f' then some (c.toNat - 87)
  else if 'A' ≤ c ∧ c ≤ 'F' then some (c.toNat - 55)
  else none

/-- Four hexadecimal digits. -/
def hexEscape (cur : Cursor) : Except ReadError (Nat × Cursor) :=
  match cur.rest with
  | a :: b :: c :: d :: _ =>
    match hexDigit? a, hexDigit? b, hexDigit? c, hexDigit? d with
    | some w, some x, some y, some z => .ok (((w * 16 + x) * 16 + y) * 16 + z, cur.skip 4)
    | _, _, _, _ => ({ cur with column := cur.column + 4 } : Cursor).fail .invalidEscape
  | rest => (cur.skip rest.length).fail .endInString

/-- The trailing half of a surrogate pair. -/
def trailingSurrogate (lead : Nat) (cur : Cursor) : Except ReadError (Char × Cursor) :=
  match cur.rest with
  | [] => cur.fail .endInString
  | c :: rest =>
    if c ≠ '\\' then cur.next.fail .endOfHexEscape
    else
      match rest with
      | [] => cur.next.fail .endInString
      | c :: _ =>
        if c ≠ 'u' then (cur.skip 2).fail .endOfHexEscape
        else do
          let (trail, cur) ← hexEscape (cur.skip 2)
          if 0xDC00 ≤ trail ∧ trail ≤ 0xDFFF then
            .ok (Char.ofNat (0x10000 + (lead - 0xD800) * 0x400 + (trail - 0xDC00)), cur)
          else cur.fail .loneSurrogate

/-- The character of an escape, after the backslash. -/
def escape (reading : Reading) (cur : Cursor) : Except ReadError (Char × Cursor) :=
  match cur.rest with
  | [] => cur.fail .endInString
  | c :: _ =>
    let cur := cur.next
    match c with
    | '"' => .ok ('"', cur)
    | '\\' => .ok ('\\', cur)
    | '/' => .ok ('/', cur)
    | 'b' => .ok (Char.ofNat 8, cur)
    | 'f' => .ok (Char.ofNat 12, cur)
    | 'n' => .ok ('\n', cur)
    | 'r' => .ok ('\r', cur)
    | 't' => .ok ('\t', cur)
    | 'u' => do
      let (n, cur) ← hexEscape cur
      if reading = .lenient then .ok (' ', cur)
      else if 0xDC00 ≤ n ∧ n ≤ 0xDFFF then cur.fail .loneSurrogate
      else if 0xD800 ≤ n ∧ n ≤ 0xDBFF then trailingSurrogate n cur
      else .ok (Char.ofNat n, cur)
    | _ => cur.fail .invalidEscape

/-- The rest of a string, after its opening quote; `fuel` bounds its length. -/
def stringRest (reading : Reading) : Nat → List Char → Cursor → Except ReadError (String × Cursor)
  | 0, _, cur => cur.fail .endInString
  | fuel + 1, done, cur =>
    match cur.rest with
    | [] => cur.fail .endInString
    | c :: _ =>
      if c = '"' then .ok (String.ofList done.reverse, cur.next)
      else if c = '\\' then do
        let (c, cur) ← escape reading cur.next
        stringRest reading fuel (c :: done) cur
      else if c.toNat < 0x20 then
        (if reading = .strict then cur.next else cur).fail .controlCharacter
      else stringRest reading fuel (c :: done) cur.next

/-- A string, after its opening quote. -/
def readString (reading : Reading) (cur : Cursor) : Except ReadError (String × Cursor) :=
  stringRest reading (cur.rest.length + 1) [] cur

/-! ## Numbers -/

/-- Digits as far as they fit 64 bits: the integer they make, the number of
    digits taken and whether any were left. -/
def fittingDigits (n taken : Nat) : List Char → Nat × Nat × Bool
  | [] => (n, taken, false)
  | c :: rest =>
    let m := 10 * n + (c.toNat - 48)
    if m < 0x10000000000000000 then fittingDigits m (taken + 1) rest else (n, taken, true)

/-- A double from its digits and exponent. -/
def readDouble (reading : Reading) (negative : Bool) (digits : Nat) (exponent : Int) (cur : Cursor) :
    Except ReadError (Number × Cursor) :=
  match Double.scaled? negative digits exponent with
  | some x => .ok (.float x, cur)
  | none =>
    if reading = .strict then cur.fail .numberOutOfRange
    else .ok (.float (Double.zero negative), cur)

/-- The exponent of a number, after its letter. -/
def exponentPart (reading : Reading) (negative : Bool) (digits : Nat) (least : Int)
    (cur : Cursor) : Except ReadError (Number × Cursor) :=
  let (down, cur) :=
    match cur.rest with
    | '+' :: _ => (false, cur.next)
    | '-' :: _ => (true, cur.next)
    | _ => (false, cur)
  match cur.rest with
  | [] => cur.fail (if reading = .strict then .endInValue else .invalidNumber)
  | c :: _ =>
    if !c.isDigit then cur.next.fail .invalidNumber
    else
      let run := cur.rest.takeWhile Char.isDigit
      let exponent : Int := Double.digitsValue run
      let after := cur.skip run.length
      if exponent < 0x80000000 then
        readDouble reading negative digits (if down then least - exponent else least + exponent) after
      else if digits ≠ 0 ∧ !down ∧ reading = .strict then after.fail .numberOutOfRange
      else .ok (.float (Double.zero negative), after)

/-- What may follow the digits of a double: an exponent. -/
def afterDigits (reading : Reading) (negative : Bool) (digits : Nat) (least : Int)
    (cur : Cursor) : Except ReadError (Number × Cursor) :=
  match cur.rest with
  | 'e' :: _ => exponentPart reading negative digits least cur.next
  | 'E' :: _ => exponentPart reading negative digits least cur.next
  | _ => readDouble reading negative digits least cur

/-- The fraction of a number, after its point. -/
def fractionPart (reading : Reading) (negative : Bool) (digits : Nat) (least : Int)
    (cur : Cursor) : Except ReadError (Number × Cursor) :=
  let run := cur.rest.takeWhile Char.isDigit
  if run.isEmpty then
    cur.failNext (if cur.rest.isEmpty ∧ reading = .strict then .endInValue else .invalidNumber)
  else
    let (digits, taken, _) := fittingDigits digits 0 run
    afterDigits reading negative digits (least - taken) (cur.skip run.length)

/-- An integer without fraction or exponent; minus zero is a double. -/
def integer (negative : Bool) (digits : Nat) (cur : Cursor) : Except ReadError (Number × Cursor) :=
  let signed : Int := if negative then -(digits : Int) else digits
  match Number.ofInt? signed with
  | some n =>
    if negative ∧ digits = 0 then .ok (.float (Double.zero true), cur) else .ok (n, cur)
  | none => readDouble .lenient negative digits 0 cur

/-- A number, after its sign. -/
def readNumber (reading : Reading) (negative : Bool) (cur : Cursor) :
    Except ReadError (Number × Cursor) :=
  match cur.rest with
  | [] => cur.fail (if reading = .strict then .endInValue else .invalidNumber)
  | c :: rest =>
    if !c.isDigit then cur.next.fail .invalidNumber
    else if c = '0' ∧ (rest.head?.any Char.isDigit) then cur.next.failNext .invalidNumber
    else
      let run := cur.rest.takeWhile Char.isDigit
      let (digits, taken, left) := fittingDigits 0 0 run
      let least : Int := run.length - taken
      let cur := cur.skip run.length
      match cur.rest with
      | '.' :: _ => fractionPart reading negative digits least cur.next
      | 'e' :: _ => exponentPart reading negative digits least cur.next
      | 'E' :: _ => exponentPart reading negative digits least cur.next
      | _ => if left then readDouble reading negative digits least cur else integer negative digits cur

/-! ## Values -/

/-- The rest of a constant, after its first letter. -/
def constant (value : Json) : List Char → Cursor → Except ReadError (Json × Cursor)
  | [], cur => .ok (value, cur)
  | c :: word, cur =>
    match cur.rest with
    | [] => cur.fail .endInValue
    | d :: _ => if d = c then constant value word cur.next else cur.next.fail .expectedIdent

/-- Whether another item follows, and the cursor at it. -/
def nextItem (reading : Reading) (first : Bool) (cur : Cursor) : Except ReadError (Bool × Cursor) :=
  let cur := cur.skipGaps
  match cur.rest with
  | [] => cur.fail .endInList
  | c :: _ =>
    if c = ']' then .ok (false, cur)
    else if first then .ok (true, cur)
    else if c = ',' then
      let cur := cur.next.skipGaps
      match cur.rest with
      | [] => cur.fail .endInValue
      | ']' :: _ => cur.failNext (if reading = .strict then .trailingComma else .expectedValue)
      | _ => .ok (true, cur)
    else cur.failNext .expectedListEnd

/-- Whether another member follows, and the cursor at its key. -/
def nextMember (reading : Reading) (first : Bool) (cur : Cursor) :
    Except ReadError (Bool × Cursor) :=
  let cur := cur.skipGaps
  match cur.rest with
  | [] => cur.fail .endInObject
  | c :: _ =>
    if c = '\x7d' then .ok (false, cur)
    else if first then
      if c = '"' then .ok (true, cur) else cur.failNext .keyNotString
    else if c = ',' then
      let cur := cur.next.skipGaps
      match cur.rest with
      | [] => cur.fail (if reading = .strict then .endInValue else .endInObject)
      | c :: _ =>
        if c = '"' then .ok (true, cur)
        else if c = '\x7d' ∧ reading = .strict then cur.failNext .trailingComma
        else cur.failNext .keyNotString
    else cur.failNext .expectedObjectEnd

/-- The colon after a key. -/
def colon (cur : Cursor) : Except ReadError Cursor :=
  let cur := cur.skipGaps
  match cur.rest with
  | [] => cur.fail .endInObject
  | c :: _ => if c = ':' then .ok cur.next else cur.failNext .expectedColon

mutual

/-- One value; `depth` is the number of levels left and `fuel` bounds the
    steps. -/
def readValue (reading : Reading) : Nat → Nat → Cursor → Except ReadError (Json × Cursor)
  | 0, _, cur => cur.fail .endInValue
  | fuel + 1, depth, cur =>
    let cur := cur.skipGaps
    match cur.rest with
    | [] => cur.fail .endInValue
    | c :: _ =>
      if c = 'n' then constant .null ['u', 'l', 'l'] cur.next
      else if c = 't' then constant (.bool true) ['r', 'u', 'e'] cur.next
      else if c = 'f' then constant (.bool false) ['a', 'l', 's', 'e'] cur.next
      else if c = '-' then do
        let (n, cur) ← readNumber reading true cur.next
        .ok (.number n, cur)
      else if c.isDigit then do
        let (n, cur) ← readNumber reading false cur
        .ok (.number n, cur)
      else if c = '"' then do
        let (s, cur) ← readString reading cur.next
        .ok (.string s, cur)
      else if c = '[' then
        if depth ≤ 1 ∧ reading = .strict then cur.failNext .tooDeep
        else do
          let (items, cur) ← itemsRest reading fuel (depth - 1) true cur.next
          .ok (.array items, cur)
      else if c = '\x7b' then
        if depth ≤ 1 ∧ reading = .strict then cur.failNext .tooDeep
        else do
          let (members, cur) ← membersRest reading fuel (depth - 1) [] true cur.next
          .ok (.object members, cur)
      else cur.failNext .expectedValue

/-- The items of a sequence, up to and with its end. -/
def itemsRest (reading : Reading) :
    Nat → Nat → Bool → Cursor → Except ReadError (List Json × Cursor)
  | 0, _, _, cur => cur.fail .endInList
  | fuel + 1, depth, first, cur => do
    let (more, cur) ← nextItem reading first cur
    if more then
      let (item, cur) ← readValue reading fuel depth cur
      let (items, cur) ← itemsRest reading fuel depth false cur
      .ok (item :: items, cur)
    else .ok ([], cur.next)

/-- The members of a mapping after those already read, up to and with its
    end. -/
def membersRest (reading : Reading) :
    Nat → Nat → Keyed Json → Bool → Cursor → Except ReadError (Keyed Json × Cursor)
  | 0, _, _, _, cur => cur.fail .endInObject
  | fuel + 1, depth, members, first, cur => do
    let (more, cur) ← nextMember reading first cur
    if more then
      let (key, cur) ← readString reading cur.next
      let cur ← colon cur
      let (item, cur) ← readValue reading fuel depth cur
      membersRest reading fuel depth (members.put key item) false cur
    else .ok (members, cur.next)

end

/-- Enough fuel to read any value that begins here. -/
def Cursor.fuel (cur : Cursor) : Nat :=
  2 * cur.rest.length + 4

/-- Nothing but blanks to the end of the text. -/
def atEnd (cur : Cursor) : Except ReadError Unit :=
  let cur := cur.skipGaps
  if cur.rest.isEmpty then .ok () else cur.failNext .trailingCharacters

/-- The value that a text holds. -/
def read? (s : String) : Except ReadError Json := do
  let cur := Cursor.start s
  let (v, cur) ← readValue .strict cur.fuel maxDepth cur
  atEnd cur
  .ok v

end DataBinding.Json
