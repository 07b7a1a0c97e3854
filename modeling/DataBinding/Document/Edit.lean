/-
  Changes of a document.

  Each change answers whether it was done, and the document after it.  A change
  refused at its first checks leaves the document as it was.

  * `append` moves a node to the end of another;
  * `setText` and `setInner` replace what is below a node, releasing the
    nodes that were there; the only child of a node, if it is text, is rewritten
    in place;
  * `insertForest` adds nodes of markup in preorder.
-/
import DataBinding.Document.Basic
import DataBinding.Markup.Construction.Rules

namespace DataBinding.Document

variable {L : Type}

/-- What a change answers, and the document after it. -/
abbrev Edited (L : Type) := Except NodeError Unit × Document L

/-- Take a node out of its parent. -/
def detach (d : Document L) (child : NodeId) : Edited L :=
  match d.node? child with
  | none => (.error (.notFound child), d)
  | some node =>
    match node.parent with
    | none => (.ok (), d)
    | some parent =>
      let d := d.update child fun node => { node with parent := none }
      match d.node? parent with
      | none => (.error (.notFound parent), d)
      | some _ =>
        (.ok (), d.update parent fun node =>
          { node with children := node.children.filter (· ≠ child) })

/-- Link a node that is in nothing to the end of another. -/
def link (d : Document L) (parent child : NodeId) : Document L :=
  (d.update child fun node => { node with parent := some parent }).update parent fun node =>
    { node with children := node.children ++ [child] }

/-- Move a node to the end of another, which must be able to hold it. -/
def append (d : Document L) (parent child : NodeId) : Edited L :=
  match d.node? parent with
  | none => (.error (.notFound parent), d)
  | some node =>
    if !node.content.holdsChildren then (.error (.notAnElement parent .appendChild), d)
    else
      match d.node? child with
      | none => (.error (.notFound child), d)
      | some _ =>
        match d.detach child with
        | (.ok (), d) => (.ok (), d.link parent child)
        | failed => failed

/-- Release everything below a node. -/
def clearChildren (d : Document L) (id : NodeId) : Document L :=
  match d.node? id with
  | none => d
  | some node =>
    node.children.foldl release (d.update id fun node => { node with children := [] })

mutual

/-- Add a node of markup at the end of a node. -/
def insertNode (parent : NodeId) : Markup → Document L → Edited L
  | .text s, d =>
    let (id, d) := d.alloc (.text s)
    d.append parent id
  | .comment s, d =>
    let (id, d) := d.alloc (.comment s)
    d.append parent id
  | .element tag attributes children, d =>
    let (id, d) := d.alloc (.element ⟨tag, attributes, none⟩)
    match insertForest id children d with
    | (.ok (), d) => d.append parent id
    | failed => failed

/-- Add nodes of markup at the end of a node, in order. -/
def insertForest (parent : NodeId) : List Markup → Document L → Edited L
  | [], d => (.ok (), d)
  | node :: rest, d =>
    match insertNode parent node d with
    | (.ok (), d) => insertForest parent rest d
    | failed => failed

end

/-- The document of nodes of markup. -/
def ofForest (forest : List Markup) : Document L :=
  (insertForest root forest empty).2

/-- The document of a markup text. -/
def parse (markup : String) : Document L :=
  ofForest (Markup.parseFragment markup)

/-- A new element in nothing. -/
def createElement (d : Document L) (tag : String) : NodeId × Document L :=
  d.alloc (.element ⟨Text.lower tag, [], none⟩)

/-- A new text in nothing. -/
def createText (d : Document L) (s : String) : NodeId × Document L :=
  d.alloc (.text s)

/-- Change an element. -/
def updateElement (d : Document L) (id : NodeId) (operation : NodeOperation)
    (f : Element → Element) : Edited L :=
  match d.node? id with
  | none => (.error (.notFound id), d)
  | some node =>
    match node.content with
    | .element _ =>
      (.ok (), d.update id fun node =>
        match node.content with
        | .element e => { node with content := .element (f e) }
        | _ => node)
    | _ => (.error (.notAnElement id operation), d)

/-- Drop an attribute; an absent one is no mistake. -/
def removeAttribute (d : Document L) (id : NodeId) (name : String) : Edited L :=
  d.updateElement id .removeAttribute fun e =>
    { e with attributes := Keyed.erase e.attributes name }

/-- Set an attribute, in place if it is there, else as the last one. -/
def setAttribute (d : Document L) (id : NodeId) (name value : String) : Edited L :=
  d.updateElement id .setAttribute fun e =>
    { e with attributes := Keyed.put e.attributes name value }

/-- Set the current value of an element. -/
def setValue (d : Document L) (id : NodeId) (value : String) : Edited L :=
  d.updateElement id .setValue fun e => { e with value := some value }

/-- Replace what is below an element by nodes of markup. -/
def setInner (d : Document L) (id : NodeId) (forest : List Markup) : Edited L :=
  match d.node? id with
  | none => (.error (.notFound id), d)
  | some node =>
    match node.content with
    | .element _ => insertForest id forest (d.clearChildren id)
    | _ => (.error (.notAnElement id .setInnerHtml), d)

/-- Replace what is below an element by the markup of a text. -/
def setInnerHtml (d : Document L) (id : NodeId) (markup : String) : Edited L :=
  d.setInner id (Markup.parseFragment markup)

/-- Replace the children of a node by a text, unless it is empty. -/
def replaceByText (d : Document L) (id : NodeId) (s : String) : Edited L :=
  let d := d.clearChildren id
  if s.isEmpty then (.ok (), d)
  else
    let (child, d) := d.alloc (.text s)
    d.append id child

/-- The only child of a node, if it is text. -/
def loneText? (d : Document L) (node : Node L) : Option NodeId :=
  match node.children with
  | [child] =>
    match d.node? child with
    | some ⟨_, _, .text _, _⟩ => some child
    | _ => none
  | _ => none

/-- Set the text of a node: that of a text or comment itself, or else all that
    is below the node. -/
def setText (d : Document L) (id : NodeId) (s : String) : Edited L :=
  match d.node? id with
  | none => (.error (.notFound id), d)
  | some node =>
    match node.content with
    | .text _ => (.ok (), d.update id fun node => { node with content := .text s })
    | .comment _ => (.ok (), d.update id fun node => { node with content := .comment s })
    | _ =>
      match d.loneText? node with
      | some child =>
        if s.isEmpty then d.replaceByText id s
        else (.ok (), d.update child fun node => { node with content := .text s })
      | none => d.replaceByText id s

/-- Add a listener to an element. -/
def addListener (d : Document L) (id : NodeId) (eventType : String) (listener : L) : Edited L :=
  match d.node? id with
  | none => (.error (.notFound id), d)
  | some node =>
    match node.content with
    | .element _ =>
      (.ok (), d.update id fun node =>
        { node with listeners := node.listeners ++ [(eventType, listener)] })
    | _ => (.error (.notAnElement id .addListener), d)

end DataBinding.Document
