/-
  End tags of formatting elements.

  An end tag may come while blocks inside its element are still open.  Then the
  element is cut: `adopt` closes it around the blocks and opens it again inside
  them, so that every character keeps the formatting it was written in.
  `closeGeneric` is the rule for the end tags that have no rule of their own.
-/
import DataBinding.Markup.Construction.Basic

namespace DataBinding.Markup.Construction

/-- Close the innermost element of a tag, unless an element with rules of its
    own is in the way. -/
def closeGeneric (b : Construction) (tag : String) : Construction :=
  let stop := b.stack.find? fun i => b.isTag tag i || (b.draft.name i).isHtmlIn specialTags
  match stop with
  | none => b
  | some i => if b.isTag tag i then b.popThrough (· = i) else b

/-- What is carried from one element to the next while formatting elements
    between a block and the element to be cut are copied around the block. -/
structure Wrapping where
  /-- The construction so far. -/
  state : Construction
  /-- The last node wrapped. -/
  last : Nat
  /-- The node after whose entry the cut element is entered again, if it moves. -/
  bookmark : Option Nat
  /-- The open elements outside the block that stay, innermost first. -/
  kept : List Nat

/-- Replace the entry of a node. -/
def replaceEntry (node : Nat) (entry : Formatting) (entries : List Formatting) : List Formatting :=
  entries.map fun e => if isEntryOf node e then entry else e

/-- Put an entry after that of a node, which comes before it in the list. -/
def insertEntryAfter (node : Nat) (entry : Formatting) : List Formatting → List Formatting
  | [] => [entry]
  | e :: rest =>
    if isEntryOf node e then entry :: e :: rest else e :: insertEntryAfter node entry rest

/-- The tag of the entry of a node. -/
def entryTag? (node : Nat) : List Formatting → Option Tag
  | [] => none
  | .element i tag :: rest => if i = node then some tag else entryTag? node rest
  | .marker :: rest => entryTag? node rest

/-- Wrap what has been wrapped so far into a copy of one more element; the
    fourth and later ones, and those that are no formatting elements, are
    closed instead. -/
def wrap (block : Nat) (count : Nat) (w : Wrapping) (node : Nat) : Wrapping :=
  match entryTag? node w.state.formatting with
  | none => w
  | some tag =>
    if 3 < count then { w with state := w.state.dropFormatting node }
    else
      let copy := w.state.draft.size
      let state := w.state.create ⟨.html, tag.name⟩ tag.attributes
      let state :=
        { state with
          formatting := replaceEntry node (.element copy tag) state.formatting
          draft := state.draft.append copy w.last }
      { state := state
        last := copy
        bookmark := if w.last = block then some copy else w.bookmark
        kept := w.kept ++ [copy] }

/-- Wrap into copies of all the elements between the block and the element to
    be cut, from the block outward. -/
def wrapAll (block : Nat) (w : Wrapping) : Nat → List Nat → Wrapping
  | _, [] => w
  | count, node :: rest => wrapAll block (wrap block count w node) (count + 1) rest

/-- Cut the formatting element `node` around the block `block`: `inner` are the
    open elements inside the block, `between` those between the two, `outer`
    those around the element. -/
def cut (b : Construction) (node : Nat) (tag : Tag) (block : Nat)
    (inner between outer : List Nat) : Construction :=
  let w := wrapAll block ⟨b, block, none, []⟩ 1 between
  let ancestor := outer.headD 0
  let state := { w.state with draft := w.state.draft.detach w.last }
  let state := state.putAt (state.place ancestor) w.last
  let copy := state.draft.size
  let state := state.create ⟨.html, tag.name⟩ tag.attributes
  let draft := (state.draft.moveChildren block copy).append block copy
  let entry := Formatting.element copy tag
  let formatting :=
    match w.bookmark with
    | none => replaceEntry node entry state.formatting
    | some previous =>
      (insertEntryAfter previous entry state.formatting).filter (!isEntryOf node ·)
  { state with
    draft := draft
    formatting := formatting
    stack := inner ++ copy :: block :: w.kept ++ outer }

/-- One round of the end tag of a formatting element: the construction after
    it, and whether another round follows. -/
def adoptOnce (b : Construction) (subject : String) : Construction × Bool :=
  match b.liveFormatting.find? fun entry => entry.2.name == subject with
  | none => (b.closeGeneric subject, false)
  | some (node, tag) =>
    if !b.stack.contains node then (b.dropFormatting node, false)
    else if !b.inScopeWhere boundsScope (· = node) then (b, false)
    else
      let inside := b.stack.takeWhile (· ≠ node)
      let outer := (b.stack.dropWhile (· ≠ node)).drop 1
      let isBlock := fun i => (b.draft.name i).isHtmlIn specialTags
      match inside.reverse.find? isBlock with
      | none => ({ b with stack := outer }.dropFormatting node, false)
      | some block =>
        let inner := inside.takeWhile (· ≠ block)
        let between := (inside.dropWhile (· ≠ block)).drop 1
        (b.cut node tag block inner between outer, true)

/-- At most so many rounds of the end tag of a formatting element. -/
def adoptRounds (subject : String) : Nat → Construction → Construction
  | 0, b => b
  | n + 1, b =>
    let (b, again) := b.adoptOnce subject
    if again then adoptRounds subject n b else b

/-- The end tag of a formatting element. -/
def adopt (b : Construction) (subject : String) : Construction :=
  let isEntry := b.formatting.any (isEntryOf b.current)
  if b.isTag subject b.current && !isEntry then b.pop else adoptRounds subject 8 b

/-- The start tag of a link ends the link that is open. -/
def endLink (b : Construction) : Construction :=
  match b.liveFormatting.find? fun entry => b.isTag "a" entry.1 with
  | none => b
  | some (node, _) =>
    let b := (b.adopt "a").dropFormatting node
    { b with stack := b.stack.filter (· ≠ node) }

end DataBinding.Markup.Construction
