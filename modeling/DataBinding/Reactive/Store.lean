/-
  The store of reactive data.

  A mapping holds slots under keys, in order; a slot holds a value and its
  dependency set, the watchers to be updated when it is written.  A watcher is
  bound to one expression and keeps the value it saw last.  The store also
  keeps what is going on: the watchers that collect dependencies, innermost
  first, and how many notifications are open, of how many at most.

  * `Store.observe` turns plain data into a reactive value, `Store.toJson?` is
    the way back;
  * `Store.track` subscribes the watcher that collects to a slot;
  * `Store.install` and `Store.write` are the parts of a write.

  Stores are over any type `R` of reactions, which say what a watcher does when
  its value has changed.
-/
import DataBinding.Reactive.Value

namespace DataBinding

/-- The number of a slot in a store. -/
abbrev SlotId := Nat

/-- The number of a watcher in a store. -/
abbrev WatcherId := Nat

/-- A slot: its value and the watchers subscribed to it, in order and as often
    as they subscribed. -/
structure Slot where
  /-- The value. -/
  value : Value
  /-- The dependency set. -/
  subscribers : List WatcherId
  deriving Inhabited

/-- A watcher of one expression. -/
structure Watcher (R : Type) where
  /-- The mapping that the expression starts from. -/
  root : MappingId
  /-- The expression. -/
  expression : String
  /-- What is done when the value has changed. -/
  reaction : R
  /-- The value seen last. -/
  value : Value
  /-- How often the expression has been evaluated. -/
  evaluations : Nat

/-- The reactive data, with the collections and notifications going on. -/
structure Store (R : Type) where
  /-- The mappings: slots by key. -/
  mappings : Array (Keyed SlotId)
  /-- The slots. -/
  slots : Array Slot
  /-- The watchers. -/
  watchers : Array (Watcher R)
  /-- The watchers that collect, innermost first. -/
  collecting : List WatcherId
  /-- The number of open notifications. -/
  depth : Nat
  /-- The greatest number of open notifications. -/
  limit : Nat

namespace Store

variable {R : Type}

/-- A store without data, in which a hundred notifications may be open. -/
def empty : Store R where
  mappings := #[]
  slots := #[]
  watchers := #[]
  collecting := []
  depth := 0
  limit := 100

/-! ## Reading -/

/-- The slots of a mapping, by key. -/
def members (s : Store R) (m : MappingId) : Keyed SlotId :=
  (s.mappings[m]?).getD []

/-- The slot under a key. -/
def slot? (s : Store R) (m : MappingId) (key : String) : Option SlotId :=
  Keyed.get? (s.members m) key

/-- The keys of a mapping, in order. -/
def keys (s : Store R) (m : MappingId) : List String :=
  Keyed.keys (s.members m)

/-- The value of a slot. -/
def valueAt (s : Store R) (slot : SlotId) : Value :=
  (s.slots[slot]?).elim .undefined Slot.value

/-- The dependency set of a slot. -/
def subscribers (s : Store R) (slot : SlotId) : List WatcherId :=
  (s.slots[slot]?).elim [] Slot.subscribers

/-- The expressions of the watchers subscribed to a slot. -/
def subscribedExpressions (s : Store R) (slot : SlotId) : List String :=
  (s.subscribers slot).filterMap fun w => (s.watchers[w]?).map Watcher.expression

/-! ## Slots and mappings -/

/-- A new slot, and its number. -/
def newSlot (s : Store R) (v : Value) : SlotId × Store R :=
  (s.slots.size, { s with slots := s.slots.push ⟨v, []⟩ })

/-- A new mapping, and its number. -/
def newMapping (s : Store R) (members : Keyed SlotId) : MappingId × Store R :=
  (s.mappings.size, { s with mappings := s.mappings.push members })

mutual

/-- Plain data as a reactive value: every mapping in it becomes a mapping of
    the store. -/
def observe : Json → Store R → Value × Store R
  | .null, s => (.null, s)
  | .bool b, s => (.bool b, s)
  | .number n, s => (.number n, s)
  | .string t, s => (.string t, s)
  | .array items, s => (.array items, s)
  | .object members, s =>
    let (slots, s) := observeMembers members s
    let (id, s) := s.newMapping slots
    (.mapping id, s)

/-- The members of a mapping, each with a slot of its own. -/
def observeMembers : List (String × Json) → Store R → Keyed SlotId × Store R
  | [], s => ([], s)
  | (key, j) :: rest, s =>
    let (v, s) := observe j s
    let (slot, s) := s.newSlot v
    let (slots, s) := observeMembers rest s
    ((key, slot) :: slots, s)

end

/-- The reactive mapping of plain data; an empty one of anything but a
    mapping. -/
def observeMapping (s : Store R) : Json → MappingId × Store R
  | .object members =>
    let (slots, s) := observeMembers members s
    s.newMapping slots
  | _ => s.newMapping []

/-- Plain data for a value; undefined becomes null.  `fuel` bounds the depth,
    and there is none for a deeper value. -/
def toJsonWithin? (s : Store R) : Nat → Value → Option Json
  | _, .null => some .null
  | _, .undefined => some .null
  | _, .bool b => some (.bool b)
  | _, .number n => some (.number n)
  | _, .string t => some (.string t)
  | _, .array items => some (.array items)
  | 0, .mapping _ => none
  | fuel + 1, .mapping m =>
    ((s.members m).mapM fun entry =>
      (s.toJsonWithin? fuel (s.valueAt entry.2)).map fun j => (entry.1, j)).map Json.object

/-- Plain data for a value; none for a mapping that holds itself. -/
def toJson? (s : Store R) (v : Value) : Option Json :=
  s.toJsonWithin? (s.mappings.size + 1) v

/-! ## Tracking -/

/-- Add a watcher at the end of a dependency set. -/
def subscribe (s : Store R) (slot : SlotId) (w : WatcherId) : Store R :=
  { s with
    slots := s.slots.modify slot fun entry => { entry with subscribers := entry.subscribers ++ [w] } }

/-- Subscribe the watcher that collects, if there is one. -/
def track (s : Store R) (slot : SlotId) : Store R :=
  match s.collecting with
  | [] => s
  | w :: _ => s.subscribe slot w

/-- Subscribe the watcher that collects to slots, in order. -/
def trackAll (s : Store R) (slots : List SlotId) : Store R :=
  slots.foldl track s

/-! ## Writing -/

/-- Put a new slot without subscribers under a key: in the place of the present
    slot, or last. -/
def install (s : Store R) (m : MappingId) (key : String) (v : Value) : Store R :=
  let (slot, s) := s.newSlot v
  { s with mappings := s.mappings.modify m fun members => Keyed.put members key slot }

/-- Write the value of a slot. -/
def write (s : Store R) (slot : SlotId) (v : Value) : Store R :=
  { s with slots := s.slots.modify slot fun entry => { entry with value := v } }

/-! ## Watchers -/

/-- A new watcher that has seen nothing yet, and its number. -/
def newWatcher (s : Store R) (root : MappingId) (expression : String) (reaction : R) :
    WatcherId × Store R :=
  (s.watchers.size,
    { s with watchers := s.watchers.push ⟨root, expression, reaction, .null, 0⟩ })

/-- Change a watcher. -/
def updateWatcher (s : Store R) (w : WatcherId) (f : Watcher R → Watcher R) : Store R :=
  { s with watchers := s.watchers.modify w f }

end Store

end DataBinding
