/-
  The state of a tree construction, and the moves that its rules are made of.

  A `Construction` is a draft with the open elements, innermost first, the
  formatting elements to be opened again, the mode that says which rules apply,
  and what the rules carry from one token to the next.  Node 0 of the draft is
  the outermost element, which stands for the body the markup is read in.

  * `place` finds where a new node goes: into the current element, or in front
    of a table whose content it may not be;
  * `reopen` opens the formatting elements again that a block has cut;
  * `closeInnermost` and its like close elements.
-/
import DataBinding.Markup.Draft
import DataBinding.Markup.Token

namespace DataBinding.Markup

/-- Which rules apply to the next token. -/
inductive Mode where
  /-- Ordinary content. -/
  | inBody
  /-- Text up to an end tag. -/
  | inText
  /-- Directly in a table. -/
  | inTable
  /-- Text directly in a table. -/
  | inTableText
  /-- In the caption of a table. -/
  | inCaption
  /-- In a group of columns. -/
  | inColumnGroup
  /-- In a group of rows. -/
  | inTableBody
  /-- In a row. -/
  | inRow
  /-- In a cell. -/
  | inCell
  /-- In a selection. -/
  | inSelect
  /-- In a selection in a table. -/
  | inSelectInTable
  /-- In a template. -/
  | inTemplate
  deriving DecidableEq

/-- An entry of the formatting elements. -/
inductive Formatting where
  /-- The border of an element that formatting does not cross. -/
  | marker
  /-- A formatting element with the tag it was opened by. -/
  | element (node : Nat) (tag : Tag)

/-- Where a node is put. -/
inductive Place where
  /-- At the end of a node. -/
  | endOf (node : Nat)
  /-- Just before a table or, if that is in nothing, at the end of the element
      around it. -/
  | beforeTable (table around : Nat)

/-- A tree under construction with what its rules go by. -/
structure Construction where
  /-- The tree so far. -/
  draft : Draft
  /-- The open elements, innermost first. -/
  stack : List Nat
  /-- The formatting elements, latest first. -/
  formatting : List Formatting
  /-- The rules that apply. -/
  mode : Mode
  /-- The mode after the text at hand. -/
  returnMode : Mode
  /-- The text directly in a table that is not placed yet, latest first. -/
  tableText : List Char
  /-- The modes of the open templates, innermost first. -/
  templateModes : List Mode
  /-- The form that is open. -/
  form : Option Nat
  /-- Whether content of a table is moved out of it. -/
  fostering : Bool
  /-- Whether a line feed at the front is dropped. -/
  skipsNewline : Bool
  /-- How the text ahead is read. -/
  lexing : Lexing

namespace Construction

/-- The construction with nothing but its outermost element. -/
def start : Construction where
  draft := Draft.add #[] (.element ⟨.html, "html"⟩ [])
  stack := [0]
  formatting := []
  mode := .inBody
  returnMode := .inBody
  tableText := []
  templateModes := []
  form := none
  fostering := false
  skipsNewline := false
  lexing := .data

/-! ## Open elements -/

/-- The current element. -/
def current (b : Construction) : Nat :=
  b.stack.headD 0

/-- The name of the current element. -/
def currentName (b : Construction) : ElementName :=
  b.draft.name b.current

/-- Whether the current element is of HTML with one of the given tags. -/
def currentIn (b : Construction) (tags : List String) : Bool :=
  b.currentName.isHtmlIn tags

/-- Whether an element is of HTML with the given tag. -/
def isTag (b : Construction) (tag : String) (i : Nat) : Bool :=
  b.draft.name i = ⟨.html, tag⟩

/-- Whether an element of HTML with the given tag is open. -/
def hasOpen (b : Construction) (tag : String) : Bool :=
  b.stack.any (b.isTag tag)

/-- Whether an open element that satisfies `target` is found before one that
    bounds the search. -/
def inScopeWhere (b : Construction) (bounds : ElementName → Bool) (target : Nat → Bool) : Bool :=
  match b.stack.find? fun i => target i || bounds (b.draft.name i) with
  | some i => target i
  | none => false

/-- Whether an element of HTML with the given tag is in scope. -/
def inScope (b : Construction) (bounds : ElementName → Bool) (tag : String) : Bool :=
  b.inScopeWhere bounds (b.isTag tag)

/-- Close the current element. -/
def pop (b : Construction) : Construction :=
  { b with stack := b.stack.drop 1 }

/-- Close elements up to and with the innermost that satisfies `target`. -/
def popThrough (b : Construction) (target : Nat → Bool) : Construction :=
  { b with stack := (b.stack.dropWhile (!target ·)).drop 1 }

/-- Close elements up to and with the innermost of the given tag. -/
def closeInnermost (b : Construction) (tag : String) : Construction :=
  b.popThrough (b.isTag tag)

/-- Close elements until the current one is of HTML with one of the given
    tags. -/
def popTo (b : Construction) (tags : List String) : Construction :=
  { b with stack := b.stack.dropWhile fun i => !(b.draft.name i).isHtmlIn tags }

/-- Close the current elements whose end tag may be left out. -/
def closeImplied (b : Construction) (tags : List String) : Construction :=
  { b with stack := b.stack.dropWhile fun i => (b.draft.name i).isHtmlIn tags }

/-- The same without those of one tag. -/
def closeImpliedExcept (b : Construction) (tag : String) : Construction :=
  b.closeImplied (impliedTags.filter (· ≠ tag))

/-- Close the paragraph that is open. -/
def closeParagraph (b : Construction) : Construction :=
  (b.closeImpliedExcept "p").closeInnermost "p"

/-- Close the paragraph in scope, if there is one. -/
def endParagraph (b : Construction) : Construction :=
  if b.inScope boundsButtonScope "p" then b.closeParagraph else b

/-! ## Insertion -/

/-- Where a node goes that belongs into `target`. -/
def place (b : Construction) (target : Nat) : Place :=
  if b.fostering && (b.draft.name target).isHtmlIn fosterTags then
    let outward := b.stack.dropWhile fun i => !(b.isTag "template" i || b.isTag "table" i)
    match outward with
    | [] => .endOf 0
    | i :: around =>
      if b.isTag "template" i then .endOf i else .beforeTable i (around.headD 0)
  else .endOf target

/-- Put a node where it belongs. -/
def putAt (b : Construction) (place : Place) (node : Nat) : Construction :=
  match place with
  | .endOf parent => { b with draft := b.draft.append parent node }
  | .beforeTable table around =>
    if (b.draft.parent? table).isSome then { b with draft := b.draft.insertBefore table node }
    else { b with draft := b.draft.append around node }

/-- A new element in no place, which gets the number `b.draft.size`. -/
def create (b : Construction) (name : ElementName) (attributes : List (String × String)) :
    Construction :=
  { b with draft := b.draft.add (.element name attributes) }

/-- Insert an element without opening it. -/
def insertClosed (b : Construction) (name : ElementName) (attributes : List (String × String)) :
    Construction :=
  (b.create name attributes).putAt (b.place b.current) b.draft.size

/-- Insert an element and open it. -/
def insert (b : Construction) (name : ElementName) (attributes : List (String × String)) :
    Construction :=
  let next := b.insertClosed name attributes
  { next with stack := b.draft.size :: next.stack }

/-- Insert and open an element of HTML for a tag. -/
def insertTag (b : Construction) (tag : Tag) : Construction :=
  b.insert ⟨.html, tag.name⟩ tag.attributes

/-- Insert an element of HTML that stays empty. -/
def insertVoid (b : Construction) (tag : Tag) : Construction :=
  b.insertClosed ⟨.html, tag.name⟩ tag.attributes

/-- Insert and open an element of HTML that no tag asked for. -/
def insertImplied (b : Construction) (name : String) : Construction :=
  b.insertTag (Tag.plain name)

/-- Insert a comment. -/
def insertComment (b : Construction) (s : String) : Construction :=
  { b with draft := b.draft.add (.comment s) }.putAt (b.place b.current) b.draft.size

/-- Insert a character. -/
def insertChar (b : Construction) (c : Char) : Construction :=
  match b.place b.current with
  | .endOf parent => { b with draft := b.draft.appendChar parent c }
  | .beforeTable table around =>
    if (b.draft.parent? table).isSome then { b with draft := b.draft.insertCharBefore table c }
    else { b with draft := b.draft.appendChar around c }

/-- Insert and open an element whose text is read in a way of its own. -/
def insertTextual (b : Construction) (tag : Tag) (lexing : Lexing) : Construction :=
  { b.insertTag tag with returnMode := b.mode, mode := .inText, lexing := lexing }

/-! ## Formatting elements -/

/-- The formatting elements after the last marker, latest first. -/
def liveFormatting (b : Construction) : List (Nat × Tag) :=
  go b.formatting
where
  /-- The entries before the first marker. -/
  go : List Formatting → List (Nat × Tag)
    | .element i tag :: rest => (i, tag) :: go rest
    | _ => []

/-- Whether an entry is for the given node. -/
def isEntryOf (i : Nat) : Formatting → Bool
  | .element j _ => i = j
  | .marker => false

/-- Drop the entry of a node. -/
def dropFormatting (b : Construction) (i : Nat) : Construction :=
  { b with formatting := b.formatting.filter (!isEntryOf i ·) }

/-- Drop the formatting elements back to the last marker, and the marker. -/
def clearFormatting (b : Construction) : Construction :=
  { b with formatting := (b.formatting.dropWhile fun e => match e with
      | .marker => false
      | .element _ _ => true).drop 1 }

/-- Begin a part that formatting does not enter. -/
def markFormatting (b : Construction) : Construction :=
  { b with formatting := .marker :: b.formatting }

/-- The formatting elements to be opened again, latest first, and the entries
    before them. -/
def cutFormatting (stack : List Nat) : List Formatting → List (Nat × Tag) × List Formatting
  | .element i tag :: rest =>
    if stack.contains i then ([], .element i tag :: rest)
    else
      let (cut, kept) := cutFormatting stack rest
      ((i, tag) :: cut, kept)
  | rest => ([], rest)

/-- Open again the formatting elements that have been closed on the way. -/
def reopen (b : Construction) : Construction :=
  let (cut, kept) := cutFormatting b.stack b.formatting
  cut.reverse.foldl
    (fun b (_, tag) =>
      { b.insertTag tag with formatting := .element b.draft.size tag :: b.formatting })
    { b with formatting := kept }

/-- Whether two tags have the same name and the same attributes in any order. -/
def sameTag (s t : Tag) : Bool :=
  s.name == t.name && s.attributes.length == t.attributes.length &&
    s.attributes.all fun a => t.attributes.contains a

/-- Insert and open a formatting element; of more than three alike since the
    last marker the earliest is forgotten. -/
def insertFormatting (b : Construction) (tag : Tag) : Construction :=
  let alike := b.liveFormatting.filter fun entry => sameTag entry.2 tag
  let b :=
    match alike.getLast? with
    | some (i, _) => if 3 ≤ alike.length then b.dropFormatting i else b
    | none => b
  { b.insertTag tag with formatting := .element b.draft.size tag :: b.formatting }

/-! ## Modes -/

/-- The mode for the open elements that remain. -/
def modeFor (b : Construction) : List Nat → Mode
  | [] => .inBody
  | [_] => .inBody
  | i :: outer =>
    let name := b.draft.name i
    if name.isHtmlIn ["select"] then
      let selects := outer.find? fun j => b.isTag "template" j || b.isTag "table" j
      match selects with
      | some j => if b.isTag "table" j then .inSelectInTable else .inSelect
      | none => .inSelect
    else if name.isHtmlIn ["td", "th"] then .inCell
    else if name.isHtmlIn ["tr"] then .inRow
    else if name.isHtmlIn ["tbody", "tfoot", "thead"] then .inTableBody
    else if name.isHtmlIn ["caption"] then .inCaption
    else if name.isHtmlIn ["colgroup"] then .inColumnGroup
    else if name.isHtmlIn ["table"] then .inTable
    else if name.isHtmlIn ["template"] then b.templateModes.headD .inBody
    else modeFor b outer

/-- Set the mode by the open elements. -/
def resetMode (b : Construction) : Construction :=
  { b with mode := b.modeFor b.stack }

end Construction

end DataBinding.Markup
