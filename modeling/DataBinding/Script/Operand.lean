/-
  The values in a script.

  An `Operand` says how a value comes about: it is written out, read through an
  expression, taken from the callback that is running, or computed from other
  operands.  `Operand.value` is that value.
-/
import DataBinding.Document.Event
import DataBinding.Reactive.Notify

namespace DataBinding

/-- How a value comes about. -/
inductive Operand where
  /-- Plain data; a mapping becomes a new reactive one. -/
  | plain (j : Json)
  /-- The undefined value. -/
  | undefined
  /-- A new mapping without keys. -/
  | fresh
  /-- A double; null if it is not finite. -/
  | double (x : Double.Rounded)
  /-- What an expression resolves to. -/
  | path (expression : String)
  /-- In the callback of a watcher, the new value. -/
  | newValue
  /-- In a listener or method, the value of the event. -/
  | eventValue
  /-- In a listener or method, the type of the event. -/
  | eventType
  /-- An operand as an integer, or zero, and a number, in 64 bits. -/
  | sum (a : Operand) (n : Int)
  /-- The displays of operands, joined. -/
  | joined (items : List Operand)
  /-- An operand that cannot be read. -/
  | unreadable

/-- What the callback that is running was given, if anything. -/
structure Occasion where
  /-- The new value, in the callback of a watcher. -/
  newValue : Option Value
  /-- The event, in a listener or method. -/
  event : Option Event

namespace Occasion

/-- Outside of callbacks. -/
def none : Occasion := ⟨.none, .none⟩

/-- In the callback of a watcher. -/
def ofValue (v : Value) : Occasion := ⟨some v, .none⟩

/-- In a listener or method. -/
def ofEvent (e : Event) : Occasion := ⟨.none, some e⟩

end Occasion

/-- A text as a value, or undefined. -/
def Value.ofText? (text : Option String) : Value :=
  text.elim .undefined .string

namespace Operand

variable {R σ : Type} (root : MappingId) (occasion : Occasion)

mutual

/-- The value of an operand. -/
def value : Operand → Effect R σ Value
  | plain j => .onStore (Store.observe j)
  | undefined => pure .undefined
  | fresh => .onStore fun s =>
    let (m, s) := s.newMapping []
    (.mapping m, s)
  | double x => pure (.ofDouble x)
  | path expression => .getPath root expression
  | newValue => pure (occasion.newValue.getD .undefined)
  | eventValue => pure (.ofText? (occasion.event.bind Event.value))
  | eventType => pure (.ofText? (occasion.event.map Event.type))
  | sum a n => do
    let v ← value a
    pure (.number (.ofWrapped (v.int64?.getD 0 + n)))
  | joined items => do
    let texts ← displays items
    pure (.string (String.join texts))
  | unreadable => .fail (.missing .value)

/-- The displays of operands. -/
def displays : List Operand → Effect R σ (List String)
  | [] => pure []
  | a :: rest => do
    let v ← value a
    let texts ← displays rest
    pure (v.display :: texts)

end

end Operand

end DataBinding
