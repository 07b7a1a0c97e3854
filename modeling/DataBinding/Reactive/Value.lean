/-
  The values that slots hold.

  A value is plain data, except that a mapping is held by reference: the
  `MappingId` names a mapping of the store, and two mappings are equal only if
  they are the same one.  `Value.undefined` is what a path resolves to when its
  last key is absent.

  * `Value.equal` is the equality that decides whether a watcher fires;
  * `Value.display` is the text of a value.
-/
import DataBinding.Json.Basic
import DataBinding.Number.Reading

namespace DataBinding

/-- The number of a mapping in a store. -/
abbrev MappingId := Nat

/-- The value of a slot. -/
inductive Value where
  /-- Null. -/
  | null
  /-- No value. -/
  | undefined
  /-- A boolean. -/
  | bool (b : Bool)
  /-- A number. -/
  | number (n : Number)
  /-- A string. -/
  | string (s : String)
  /-- A sequence of plain data. -/
  | array (items : List Json)
  /-- A mapping, by reference. -/
  | mapping (id : MappingId)
  deriving Inhabited

namespace Value

/-- Whether a value is a mapping. -/
def isMapping : Value → Bool
  | mapping _ => true
  | _ => false

/-- Whether a value is null. -/
def isNull : Value → Bool
  | null => true
  | _ => false

/-- Whether a value is undefined. -/
def isUndefined : Value → Bool
  | undefined => true
  | _ => false

/-- Whether a value is null or undefined. -/
def isNullish (v : Value) : Bool :=
  v.isNull || v.isUndefined

/-- The string, if the value is one. -/
def string? : Value → Option String
  | string s => some s
  | _ => none

/-- The boolean, if the value is one. -/
def bool? : Value → Option Bool
  | bool b => some b
  | _ => none

/-- The number, if the value is one. -/
def number? : Value → Option Number
  | number n => some n
  | _ => none

/-- The integer, if the value is one that fits 64 signed bits. -/
def int64? (v : Value) : Option Int :=
  v.number?.bind Number.toInt64?

/-- The nearest double, if the value is a number. -/
def double? (v : Value) : Option Double :=
  v.number?.map Number.toDouble

/-- The value of a double: null if it is not finite. -/
def ofDouble : Double.Rounded → Value
  | .finite x => number (.float x)
  | .notFinite => null

/-- Equality of values: scalars by value, sequences as plain data, mappings by
    identity. -/
def equal : Value → Value → Bool
  | null, null => true
  | undefined, undefined => true
  | bool a, bool b => a == b
  | number m, number n => m.equal n
  | string s, string t => s == t
  | array xs, array ys => Json.sameItems xs ys
  | mapping a, mapping b => a == b
  | _, _ => false

/-- The text of a value. -/
def display : Value → String
  | null => "null"
  | undefined => "undefined"
  | bool b => if b then "true" else "false"
  | number n => n.display
  | string s => s
  | array items => Json.itemsText items
  | mapping _ => "[object Object]"

end Value

end DataBinding
