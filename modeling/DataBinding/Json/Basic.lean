/-
  Plain data: null, booleans, numbers, strings, arrays and objects.

  The members of an object keep their order.  `Json.same` is the equality of
  plain data, for which that order does not matter.
-/
import DataBinding.Keyed
import DataBinding.Number.Text

namespace DataBinding

/-- Plain data. -/
inductive Json where
  /-- Null. -/
  | null
  /-- A boolean. -/
  | bool (b : Bool)
  /-- A number. -/
  | number (n : Number)
  /-- A string. -/
  | string (s : String)
  /-- A sequence. -/
  | array (items : List Json)
  /-- A mapping, its members in order. -/
  | object (members : List (String × Json))
  deriving Inhabited

namespace Json

mutual

/-- Equality of plain data: numbers by kind and value, objects member by member
    in any order. -/
def same : Json → Json → Bool
  | .null, .null => true
  | .bool a, .bool b => a == b
  | .number m, .number n => m.same n
  | .string s, .string t => s == t
  | .array xs, .array ys => sameItems xs ys
  | .object xs, .object ys => xs.length == ys.length && sameMembers xs ys
  | _, _ => false

/-- Equality of sequences, item by item. -/
def sameItems : List Json → List Json → Bool
  | [], [] => true
  | x :: xs, y :: ys => same x y && sameItems xs ys
  | _, _ => false

/-- Whether every member has an equal one under its key. -/
def sameMembers : List (String × Json) → List (String × Json) → Bool
  | [], _ => true
  | (key, x) :: xs, ys =>
    (match Keyed.get? ys key with
      | some y => same x y
      | none => false) && sameMembers xs ys

end

mutual

/-- The text of an item of a sequence: null is empty, and an object is shown by
    a fixed text. -/
def itemText : Json → String
  | .null => ""
  | .bool b => if b then "true" else "false"
  | .number n => n.display
  | .string s => s
  | .array items => itemsText items
  | .object _ => "[object Object]"

/-- The texts of the items of a sequence, joined by commas. -/
def itemsText : List Json → String
  | [] => ""
  | [item] => itemText item
  | item :: rest => itemText item ++ "," ++ itemsText rest

end

end Json

end DataBinding
