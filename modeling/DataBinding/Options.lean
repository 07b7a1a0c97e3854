/-
  The options of a view model: where it is mounted, its data and its methods.

  The selector and the data can be given as plain data, or as its text: a
  mapping with `el` and, if wanted, `data`, or a sequence of the two.  Other
  members are passed over.  `Options.ofJson` reads the former and
  `Options.ofText` the latter; methods `M` are registered separately.
-/
import DataBinding.Json.Reader
import DataBinding.Text.Quoted

namespace DataBinding

/-- The options of a view model. -/
structure Options (M : Type) where
  /-- The selector of the element to mount on. -/
  el : String
  /-- The data. -/
  data : Json
  /-- The methods, in the order of their registration. -/
  methods : Keyed M

namespace Options

variable {M : Type}

/-- Options without methods. -/
def ofConfig (el : String) (data : Json) : Options M := ⟨el, data, []⟩

/-- Register a method; one of the same name is replaced in its place. -/
def method (o : Options M) (name : String) (m : M) : Options M :=
  { o with methods := Keyed.put o.methods name m }

/-! ## Refusals -/

/-- What a value is, in the words of a refusal. -/
def kindText : Json → String
  | .null => "null"
  | .bool b => if b then "boolean `true`" else "boolean `false`"
  | .number (.int n _) => s!"integer `{n}`"
  | .number (.float x) => s!"floating point `{Number.doubleText x}`"
  | .string s => "string " ++ Text.quoted s
  | .array _ => "sequence"
  | .object _ => "map"

/-- A value of the wrong type. -/
def wrongType (v : Json) (expected : String) : Json.Cause :=
  .wrongData s!"invalid type: {kindText v}, expected {expected}"

/-- A sequence of the wrong length. -/
def wrongLength (n : Nat) (expected : String) : Json.Cause :=
  .wrongData s!"invalid length {n}, expected {expected}"

/-- The expectation of the options as a whole. -/
def expectedConfig : String := "struct OptionsConfig"

/-- The expectation of the selector. -/
def expectedEl : String := "a string"

/-- The expectation of a sequence that is too short. -/
def expectedPair : String := "struct OptionsConfig with 2 elements"

/-- A missing member. -/
def missingEl : Json.Cause := .wrongData "missing field `el`"

/-- A member given twice. -/
def duplicate (name : String) : Json.Cause := .wrongData s!"duplicate field `{name}`"

/-! ## From data -/

/-- The selector in a value. -/
def elOf : Json → Except Json.Cause String
  | .string s => .ok s
  | v => .error (wrongType v expectedEl)

/-- The options in plain data. -/
def configOf : Json → Except Json.Cause (String × Json)
  | .object members =>
    match Keyed.get? members "el" with
    | none => .error missingEl
    | some v => (elOf v).map fun el => (el, (Keyed.get? members "data").getD .null)
  | .array [] => .error (wrongLength 0 expectedPair)
  | .array [v] => (elOf v).map fun el => (el, .null)
  | .array [v, data] => (elOf v).map fun el => (el, data)
  | .array (v :: _ :: _ :: rest) =>
    match elOf v with
    | .error e => .error e
    | .ok _ => .error (wrongLength (rest.length + 3) "fewer elements in array")
  | v => .error (wrongType v expectedConfig)

/-- The options in plain data. -/
def ofJson (v : Json) : Except Json.ReadError (Options M) :=
  match configOf v with
  | .ok (el, data) => .ok (ofConfig el data)
  | .error cause => .error ⟨cause, none⟩

/-! ## From text -/

open Json (Cursor ReadError)

/-- A refusal of a value that is read up to its kind. -/
def refuseValue {α : Type} (cur : Cursor) (expected : String) : Except ReadError α :=
  match cur.rest with
  | '[' :: _ => cur.fail (wrongType (.array []) expected)
  | '\x7b' :: _ => cur.fail (wrongType (.object []) expected)
  | _ => do
    let (v, cur) ← Json.readValue .strict cur.fuel Json.maxDepth cur
    cur.fail (wrongType v expected)

/-- The selector at a cursor. -/
def readEl (cur : Cursor) : Except ReadError (String × Cursor) :=
  let cur := cur.skipGaps
  match cur.rest with
  | '"' :: _ => Json.readString .strict cur.next
  | _ => refuseValue cur expectedEl

/-- The place after the end of the mapping, if that is what comes. -/
def closing (cur : Cursor) : Cursor :=
  let cur := cur.skipGaps
  if cur.rest.head? = some '\x7d' then cur.next else cur

/-- The members of a mapping, up to and with its end; `fuel` bounds their
    number. -/
def readMembers : Nat → Option String → Option Json → Bool → Cursor →
    Except ReadError ((String × Json) × Cursor)
  | 0, _, _, _, cur => cur.fail .endInObject
  | fuel + 1, el, data, first, cur => do
    let (more, cur) ← Json.nextMember .strict first cur
    if more then
      let (key, cur) ← Json.readString .strict cur.next
      if key = "el" then
        if el.isSome then (closing cur).fail (duplicate "el")
        else
          let (el, cur) ← readEl (← Json.colon cur)
          readMembers fuel (some el) data false cur
      else if key = "data" then
        if data.isSome then (closing cur).fail (duplicate "data")
        else
          let cur ← Json.colon cur
          let (data, cur) ← Json.readValue .strict cur.fuel (Json.maxDepth - 1) cur
          readMembers fuel el (some data) false cur
      else
        let cur ← Json.colon cur
        let (_, cur) ← Json.readValue .lenient cur.fuel (Json.maxDepth - 1) cur
        readMembers fuel el data false cur
    else
      match el with
      | some el => .ok ((el, data.getD .null), cur.next)
      | none => cur.next.fail missingEl

/-- The end of a sequence of two. -/
def endOfPair (cur : Cursor) : Except ReadError Cursor :=
  let cur := cur.skipGaps
  match cur.rest with
  | [] => cur.fail .endInList
  | ']' :: _ => .ok cur.next
  | ',' :: _ =>
    let cur := cur.next.skipGaps
    cur.failNext (if cur.rest.head? = some ']' then .trailingComma else .trailingCharacters)
  | _ => cur.failNext .trailingCharacters

/-- The items of a sequence, up to and with its end. -/
def readItems (cur : Cursor) : Except ReadError ((String × Json) × Cursor) := do
  let (more, cur) ← Json.nextItem .strict true cur
  if more then
    let (el, cur) ← readEl cur
    let (more, cur) ← Json.nextItem .strict false cur
    if more then
      let (data, cur) ← Json.readValue .strict cur.fuel (Json.maxDepth - 1) cur
      .ok ((el, data), ← endOfPair cur)
    else .ok ((el, .null), cur.next)
  else cur.next.fail (wrongLength 0 expectedPair)

/-- The options in a text. -/
def ofText (text : String) : Except ReadError (Options M) := do
  let cur := (Cursor.start text).skipGaps
  let ((el, data), cur) ←
    match cur.rest with
    | [] => cur.fail .endInValue
    | '\x7b' :: _ => readMembers (cur.rest.length + 1) none none true cur.next
    | '[' :: _ => readItems cur.next
    | _ => refuseValue cur expectedConfig
  Json.atEnd cur
  .ok (ofConfig el data)

end Options

end DataBinding
