/-
  A tree under construction.

  Nodes are numbered in the order of their creation and linked both ways.  A
  node can be moved (`detach`, `append`, `insertBefore`); text goes to the text
  node before the place where it is put, if there is one.  `forest` reads the
  finished children of a node; those of a template are left out.
-/
import DataBinding.Markup.Basic
import DataBinding.Markup.ElementName

namespace DataBinding.Markup

/-- What a node of a draft is. -/
inductive DraftContent where
  /-- An element. -/
  | element (name : ElementName) (attributes : List (String × String))
  /-- A piece of text. -/
  | text (s : String)
  /-- A comment. -/
  | comment (s : String)

/-- A node of a draft. -/
structure DraftNode where
  /-- What it is. -/
  content : DraftContent
  /-- The node it is in, if any. -/
  parent : Option Nat
  /-- The nodes in it, in order. -/
  children : List Nat

/-- The nodes of a tree under construction. -/
abbrev Draft := Array DraftNode

namespace Draft

/-- Insert before the first occurrence of an element, else at the end. -/
def insertBeforeIn (sibling child : Nat) : List Nat → List Nat
  | [] => [child]
  | i :: rest =>
    if i = sibling then child :: i :: rest else i :: insertBeforeIn sibling child rest

/-- The element just before the first occurrence of another. -/
def previousIn (sibling : Nat) : List Nat → Option Nat
  | i :: j :: rest => if j = sibling then some i else previousIn sibling (j :: rest)
  | _ => none

/-- The children of a node. -/
def children (d : Draft) (i : Nat) : List Nat :=
  (d[i]?).elim [] DraftNode.children

/-- The parent of a node. -/
def parent? (d : Draft) (i : Nat) : Option Nat :=
  d[i]?.bind DraftNode.parent

/-- The name of an element; an unnamed one of HTML for anything else. -/
def name (d : Draft) (i : Nat) : ElementName :=
  match d[i]? with
  | some ⟨.element name _, _, _⟩ => name
  | _ => ⟨.html, ""⟩

/-- Whether a node is text. -/
def isText (d : Draft) (i : Nat) : Bool :=
  match d[i]? with
  | some ⟨.text _, _, _⟩ => true
  | _ => false

/-- A draft with one more node, in nothing, which gets the next number. -/
def add (d : Draft) (content : DraftContent) : Draft :=
  d.push ⟨content, none, []⟩

/-- Take a node out of its parent. -/
def detach (d : Draft) (i : Nat) : Draft :=
  match d.parent? i with
  | none => d
  | some p =>
    (d.modify p fun node => { node with children := node.children.filter (· ≠ i) }).modify i
      fun node => { node with parent := none }

/-- Move a node to the end of another. -/
def append (d : Draft) (parent child : Nat) : Draft :=
  ((d.detach child).modify child fun node => { node with parent := some parent }).modify parent
    fun node => { node with children := node.children ++ [child] }

/-- Move a node to just before another, which is in some node. -/
def insertBefore (d : Draft) (sibling child : Nat) : Draft :=
  match d.parent? sibling with
  | none => d
  | some p =>
    ((d.detach child).modify child fun node => { node with parent := some p }).modify p
      fun node => { node with children := insertBeforeIn sibling child node.children }

/-- Add a character to a text node. -/
def pushChar (d : Draft) (i : Nat) (c : Char) : Draft :=
  d.modify i fun node =>
    match node.content with
    | .text s => { node with content := .text (s.push c) }
    | _ => node

/-- Put a character at the end of a node. -/
def appendChar (d : Draft) (parent : Nat) (c : Char) : Draft :=
  match (d.children parent).getLast? with
  | some last =>
    if d.isText last then d.pushChar last c
    else (d.add (.text (String.singleton c))).append parent d.size
  | none => (d.add (.text (String.singleton c))).append parent d.size

/-- Put a character just before a node. -/
def insertCharBefore (d : Draft) (sibling : Nat) (c : Char) : Draft :=
  let previous := (d.parent? sibling).bind fun p => previousIn sibling (d.children p)
  match previous with
  | some i =>
    if d.isText i then d.pushChar i c
    else (d.add (.text (String.singleton c))).insertBefore sibling d.size
  | none => (d.add (.text (String.singleton c))).insertBefore sibling d.size

/-- Move the children of one node to the end of another. -/
def moveChildren (d : Draft) (source target : Nat) : Draft :=
  (d.children source).foldl (fun d child => d.append target child) d

/-- A node with everything below it; `fuel` bounds the depth. -/
def tree (d : Draft) : Nat → Nat → Markup
  | 0, _ => .text ""
  | fuel + 1, i =>
    match d[i]? with
    | some ⟨.element name attributes, _, children⟩ =>
      .element name.tag attributes
        (if name = ⟨.html, "template"⟩ then [] else children.map (d.tree fuel))
    | some ⟨.text s, _, _⟩ => .text s
    | some ⟨.comment s, _, _⟩ => .comment s
    | none => .text ""

/-- The children of a node, with everything below them. -/
def forest (d : Draft) (i : Nat) : List Markup :=
  (d.children i).map (d.tree (d.size + 1))

end Draft

end DataBinding.Markup
