/-
  Documents: nodes in numbered slots, linked both ways.

  A `NodeId` names a slot and a generation.  A slot that is emptied moves on to
  the next generation and is used again for the next node, the one emptied last
  first; the handles of earlier generations are stale from then on.

  * `Document.node?` resolves a handle;
  * `Document.alloc` makes a node, `Document.update` changes one;
  * `Document.release` empties the slots of a node and of everything below it.

  Documents are over any type `L` of listeners.
-/
import DataBinding.Keyed

namespace DataBinding

/-- The handle of a node. -/
structure NodeId where
  /-- The number of its slot. -/
  index : Nat
  /-- How often the slot had been emptied, modulo `2 ^ 32`. -/
  generation : UInt32
  deriving DecidableEq

/-- A handle in words: the slot, and the generation unless it is the first. -/
def NodeId.text (id : NodeId) : String :=
  if id.generation = 0 then s!"#{id.index}" else s!"#{id.index}v{id.generation.toNat}"

/-- What an element consists of besides its children. -/
structure Element where
  /-- The tag name. -/
  tag : String
  /-- The attributes, in order. -/
  attributes : List (String × String)
  /-- The current value, once one has been set. -/
  value : Option String
  deriving DecidableEq

/-- What a node is. -/
inductive NodeContent where
  /-- The document node. -/
  | document
  /-- An element. -/
  | element (e : Element)
  /-- A piece of text. -/
  | text (s : String)
  /-- A comment. -/
  | comment (s : String)
  deriving DecidableEq

/-- The kinds of nodes. -/
inductive NodeKind where
  /-- The document node. -/
  | document
  /-- An element. -/
  | element
  /-- A piece of text. -/
  | text
  /-- A comment. -/
  | comment
  deriving DecidableEq

namespace NodeContent

/-- The kind of a node. -/
def kind : NodeContent → NodeKind
  | document => .document
  | element _ => .element
  | text _ => .text
  | comment _ => .comment

/-- The element, if the node is one. -/
def element? : NodeContent → Option Element
  | element e => some e
  | _ => none

/-- Whether a node of this content may have children. -/
def holdsChildren : NodeContent → Bool
  | document | element _ => true
  | text _ | comment _ => false

end NodeContent

/-- A node with its links and listeners. -/
structure Node (L : Type) where
  /-- The node it is in, if any. -/
  parent : Option NodeId
  /-- The nodes in it, in order. -/
  children : List NodeId
  /-- What it is. -/
  content : NodeContent
  /-- Its listeners with their event types, in the order of subscription. -/
  listeners : List (String × L)

/-- A place for a node. -/
structure NodeSlot (L : Type) where
  /-- How often it has been emptied, modulo `2 ^ 32`. -/
  generation : UInt32
  /-- The node in it, if any. -/
  node : Option (Node L)

/-- A document. -/
structure Document (L : Type) where
  /-- The slots, by number. -/
  slots : Array (NodeSlot L)
  /-- The empty slots, the one to be used next first. -/
  free : List Nat

/-- An operation that only some nodes allow. -/
inductive NodeOperation where
  /-- Taking a child. -/
  | appendChild
  /-- Dropping an attribute. -/
  | removeAttribute
  /-- Setting an attribute. -/
  | setAttribute
  /-- Replacing the children by markup. -/
  | setInnerHtml
  /-- Setting the current value. -/
  | setValue
  /-- Adding a listener. -/
  | addListener
  deriving DecidableEq

/-- An operation in words. -/
def NodeOperation.text : NodeOperation → String
  | appendChild => "append a child"
  | removeAttribute => "remove an attribute"
  | setAttribute => "set an attribute"
  | setInnerHtml => "set inner HTML"
  | setValue => "set a value"
  | addListener => "add an event listener"

/-- Why an operation on a node is refused. -/
inductive NodeError where
  /-- The handle is stale. -/
  | notFound (node : NodeId)
  /-- The node is of a kind that does not allow the operation. -/
  | notAnElement (node : NodeId) (operation : NodeOperation)
  deriving DecidableEq

/-- A refusal in words. -/
def NodeError.message : NodeError → String
  | notFound node => s!"node {node.text} does not exist in this document"
  | notAnElement node operation =>
    s!"node {node.text} is not an element; cannot {operation.text}"

namespace Document

variable {L : Type}

/-- The node of a handle, unless the handle is stale. -/
def node? (d : Document L) (id : NodeId) : Option (Node L) :=
  match d.slots[id.index]? with
  | some slot => if slot.generation = id.generation then slot.node else none
  | none => none

/-- Change the node of a handle, unless the handle is stale. -/
def update (d : Document L) (id : NodeId) (f : Node L → Node L) : Document L :=
  { d with
    slots := d.slots.modify id.index fun slot =>
      if slot.generation = id.generation then { slot with node := slot.node.map f } else slot }

/-- A new node in nothing, and its handle. -/
def alloc (d : Document L) (content : NodeContent) : NodeId × Document L :=
  let node : Node L := ⟨none, [], content, []⟩
  match d.free with
  | index :: free =>
    let generation := (d.slots[index]?).elim 0 NodeSlot.generation
    (⟨index, generation⟩,
      { slots := d.slots.modify index fun slot => { slot with node := some node }, free := free })
  | [] => (⟨d.slots.size, 0⟩, { d with slots := d.slots.push ⟨0, some node⟩ })

/-- Empty the slot of a handle. -/
def vacate (d : Document L) (id : NodeId) : Document L where
  slots := d.slots.modify id.index fun slot => ⟨slot.generation + 1, none⟩
  free := id.index :: d.free

/-- Empty the slots of everything below a node, then its own; `fuel` bounds the
    depth. -/
def releaseWithin : Nat → Document L → NodeId → Document L
  | 0, d, _ => d
  | fuel + 1, d, id =>
    match d.node? id with
    | none => d
    | some node => (node.children.foldl (releaseWithin fuel) d).vacate id

/-- Empty the slots of a node and of everything below it, children first. -/
def release (d : Document L) (id : NodeId) : Document L :=
  releaseWithin (d.slots.size + 1) d id

/-- The document node. -/
def root : NodeId := ⟨0, 0⟩

/-- A document with its document node only. -/
def empty : Document L :=
  ((⟨#[], []⟩ : Document L).alloc .document).2

/-- The number of nodes. -/
def nodeCount (d : Document L) : Nat :=
  d.slots.size - d.free.length

/-! ## Reading one node -/

/-- The children of a node, in order; none for a stale handle. -/
def children (d : Document L) (id : NodeId) : List NodeId :=
  (d.node? id).elim [] Node.children

/-- The node that a node is in. -/
def parent? (d : Document L) (id : NodeId) : Option NodeId :=
  (d.node? id).bind Node.parent

/-- The kind of a node, unless the handle is stale. -/
def kind? (d : Document L) (id : NodeId) : Option NodeKind :=
  (d.node? id).map fun node => node.content.kind

/-- The element of a handle. -/
def element? (d : Document L) (id : NodeId) : Option Element :=
  (d.node? id).bind fun node => node.content.element?

/-- The attributes of an element; none for other nodes. -/
def attributes (d : Document L) (id : NodeId) : List (String × String) :=
  (d.element? id).elim [] Element.attributes

/-- The value of an attribute. -/
def attribute? (d : Document L) (id : NodeId) (name : String) : Option String :=
  Keyed.get? (d.attributes id) name

/-- The current value of an element: the value set last, else its attribute. -/
def value? (d : Document L) (id : NodeId) : Option String :=
  (d.element? id).bind fun e => e.value.or (Keyed.get? e.attributes "value")

/-- The listeners of a node for an event type, in the order of subscription. -/
def listeners (d : Document L) (id : NodeId) (eventType : String) : List L :=
  (d.node? id).elim [] fun node =>
    (node.listeners.filter (·.1 == eventType)).map Prod.snd

end Document

end DataBinding
