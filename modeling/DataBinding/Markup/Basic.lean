/-
  Markup: trees of elements, texts and comments, and their text form.

  * `Markup.chars` writes a tree, `Markup.render` is the same as a string;
  * text and attribute values are escaped (`escape`), comments are written as
    they are;
  * a void element (`isVoid`) is written without children and without an end
    tag;
  * `Markup.textContent` is the text below a node, comments left out.
-/
import DataBinding.Keyed

namespace DataBinding

/-- A node of markup with everything below it. -/
inductive Markup where
  /-- A piece of text. -/
  | text (s : String)
  /-- A comment. -/
  | comment (s : String)
  /-- An element with its attributes and children, in order. -/
  | element (tag : String) (attributes : List (String × String)) (children : List Markup)
  deriving Inhabited

namespace Markup

/-- Elements that never have children. -/
def voidTags : List String :=
  ["area", "base", "br", "col", "embed", "hr", "img", "input", "link", "meta", "source", "track",
    "wbr"]

/-- Whether elements of this tag never have children. -/
def isVoid (tag : String) : Bool :=
  voidTags.contains tag

/-- A character of text or of an attribute value, so that it cannot be read as
    markup. -/
def escapeChar (c : Char) : List Char :=
  if c = '&' then ['&', 'a', 'm', 'p', ';']
  else if c = '<' then ['&', 'l', 't', ';']
  else if c = '>' then ['&', 'g', 't', ';']
  else if c = '"' then ['&', 'q', 'u', 'o', 't', ';']
  else if c = '\x27' then ['&', '#', 'x', '2', '7', ';']
  else [c]

/-- Text with every character of markup escaped. -/
def escape (cs : List Char) : List Char :=
  cs.flatMap escapeChar

/-- The attributes in a start tag, each after a space and its value in double
    quotes. -/
def attributeChars : List (String × String) → List Char
  | [] => []
  | (name, value) :: rest =>
    ' ' :: name.toList ++ '=' :: '"' :: escape value.toList ++ '"' :: attributeChars rest

mutual

/-- The written form of a node. -/
def chars : Markup → List Char
  | .text s => escape s.toList
  | .comment s => '<' :: '!' :: '-' :: '-' :: s.toList ++ ['-', '-', '>']
  | .element tag attributes children =>
    '<' :: tag.toList ++ attributeChars attributes ++
      if isVoid tag then [' ', '/', '>']
      else '>' :: allChars children ++ '<' :: '/' :: tag.toList ++ ['>']

/-- The written forms of nodes, one after the other. -/
def allChars : List Markup → List Char
  | [] => []
  | node :: rest => chars node ++ allChars rest

end

/-- The written form of a node. -/
def render (node : Markup) : String :=
  String.ofList node.chars

/-- The written form of nodes, one after the other. -/
def renderAll (nodes : List Markup) : String :=
  String.ofList (allChars nodes)

mutual

/-- The text below a node. -/
def textChars : Markup → List Char
  | .text s => s.toList
  | .comment _ => []
  | .element _ _ children => allTextChars children

/-- The text below nodes, one after the other. -/
def allTextChars : List Markup → List Char
  | [] => []
  | node :: rest => textChars node ++ allTextChars rest

end

mutual

/-- The number of nodes, the node itself included. -/
def size : Markup → Nat
  | .text _ => 1
  | .comment _ => 1
  | .element _ _ children => 1 + sizeAll children

/-- The number of nodes of a forest. -/
def sizeAll : List Markup → Nat
  | [] => 0
  | node :: rest => size node + sizeAll rest

end

end Markup

end DataBinding
