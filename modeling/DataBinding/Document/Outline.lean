/-
  Documents read as trees.

  `Document.outline?` reads a node and everything below it as an `Outline`, a
  tree of handles with what they stand for.  What a document shows is defined on
  outlines: the markup of a node (`innerHtml?`, `outerHtml?`, `toHtml`) and its text
  (`textContent`).  There is no outline below a node that is in a node below itself.

  `Document.querySelector?` is the first node that a selector matches.  The search for it
  stops there, so that it may come before a part of the document that has no outline.
-/
import DataBinding.Document.Basic
import DataBinding.Markup.Basic
import DataBinding.Text.Blank

namespace DataBinding

/-- A node of a document with everything below it; the content is missing where
    a handle is stale. -/
inductive Outline where
  /-- A node. -/
  | node (id : NodeId) (content : Option NodeContent) (children : List Outline)

namespace Outline

/-- The handle of a node. -/
def id : Outline → NodeId
  | node id _ _ => id

mutual

/-- The markup of a node: of a document node, that of its children. -/
def markup : Outline → List Markup
  | node _ content children =>
    match content with
    | some .document => markupAll children
    | some (.element e) => [.element e.tag e.attributes (markupAll children)]
    | some (.text s) => [.text s]
    | some (.comment s) => [.comment s]
    | none => []

/-- The markup of nodes, one after the other. -/
def markupAll : List Outline → List Markup
  | [] => []
  | o :: rest => markup o ++ markupAll rest

end

/-- The markup of the children of a node. -/
def innerMarkup : Outline → List Markup
  | node _ _ children => markupAll children

mutual

/-- The handles of a node and everything below it, in document order. -/
def preorder : Outline → List NodeId
  | node id _ children => id :: preorderAll children

/-- The handles of nodes and everything below them, in document order. -/
def preorderAll : List Outline → List NodeId
  | [] => []
  | o :: rest => preorder o ++ preorderAll rest

end

end Outline

/-- A simple selector. -/
inductive Selector where
  /-- The element with this id. -/
  | id (s : String)
  /-- An element with this word in its class. -/
  | class (s : String)
  /-- An element with this tag, in any case. -/
  | tag (s : String)
  deriving DecidableEq

namespace Selector

/-- The selector of a text; none for a blank one. -/
def ofText? (text : String) : Option Selector :=
  match Text.trimChars text.toList with
  | [] => none
  | '#' :: rest => some (.id (String.ofList rest))
  | '.' :: rest => some (.class (String.ofList rest))
  | cs => some (.tag (String.ofList cs))

/-- Whether an element matches. -/
def matchesElement : Selector → Element → Bool
  | .id s, e => Keyed.get? e.attributes "id" == some s
  | .class s, e => (Keyed.get? e.attributes "class").any fun words => (Text.words words).contains s
  | .tag s, e => Text.lower e.tag == Text.lower s

end Selector

namespace Document

variable {L : Type}

/-- A node with everything below it, at most so deep. -/
def outlineWithin? (d : Document L) : Nat → NodeId → Option Outline
  | 0, _ => none
  | fuel + 1, id =>
    match d.node? id with
    | none => some (.node id none [])
    | some node =>
      (node.children.mapM (d.outlineWithin? fuel)).map fun children =>
        .node id (some node.content) children

/-- A node with everything below it. -/
def outline? (d : Document L) (id : NodeId) : Option Outline :=
  d.outlineWithin? (d.slots.size + 1) id

/-- The markup of a node, itself included. -/
def markup (d : Document L) (id : NodeId) : List Markup :=
  (d.outline? id).elim [] Outline.markup

/-- The markup below a node. -/
def innerMarkup (d : Document L) (id : NodeId) : List Markup :=
  (d.outline? id).elim [] Outline.innerMarkup

/-- The written form of a node, itself included. -/
def outerHtml? (d : Document L) (id : NodeId) : Except NodeError String :=
  match d.node? id with
  | none => .error (.notFound id)
  | some _ => .ok (Markup.renderAll (d.markup id))

/-- The written form of everything below a node. -/
def innerHtml? (d : Document L) (id : NodeId) : Except NodeError String :=
  match d.node? id with
  | none => .error (.notFound id)
  | some _ => .ok (Markup.renderAll (d.innerMarkup id))

/-- The written form of a document. -/
def toHtml (d : Document L) : String :=
  Markup.renderAll (d.innerMarkup root)

/-- The text of a node: its own, or all below it without comments. -/
def textContent (d : Document L) (id : NodeId) : String :=
  String.ofList (Markup.allTextChars (d.markup id))

/-- Whether a node is an element that a selector matches. -/
def matchesNode (d : Document L) (selector : Selector) (id : NodeId) : Bool :=
  (d.element? id).any selector.matchesElement

/-- The first match for a selector in a node and everything below it, in document order;
    none if the search goes deeper than allowed before there is a match. -/
def searchWithin? (d : Document L) (selector : Selector) : Nat → NodeId → Option (Option NodeId)
  | 0, _ => none
  | fuel + 1, id =>
    if d.matchesNode selector id then some (some id)
    else (d.children id).findSomeM? (d.searchWithin? selector fuel)

/-- The first match for a selector in a document. -/
def search? (d : Document L) (selector : Selector) : Option (Option NodeId) :=
  d.searchWithin? selector (d.slots.size + 1) root

/-- The first node, in document order, that a selector matches. -/
def querySelector? (d : Document L) (text : String) : Option NodeId :=
  (Selector.ofText? text).bind fun selector => (d.search? selector).join

end Document

end DataBinding
