/-
  The rules for ordinary content and for foreign elements.

  `inBody` takes a token as ordinary content; every other mode falls back on it.
  `insertForeign` and `foreignStart` insert elements of SVG and MathML.
-/
import DataBinding.Markup.Construction.Adoption

namespace DataBinding.Markup.Construction

/-! ## Foreign elements -/

/-- Insert an element of SVG or MathML, with adjusted names. -/
def insertForeign (b : Construction) (vocabulary : Vocabulary) (tag : Tag) : Construction :=
  let attributes := tag.attributes.map fun a => (foreignAttribute vocabulary a.1, a.2)
  if tag.selfClosing then b.insertClosed ⟨vocabulary, tag.name⟩ attributes
  else b.insert ⟨vocabulary, tag.name⟩ attributes

/-- A start tag inside a foreign element. -/
def foreignStart (b : Construction) (tag : Tag) : Construction :=
  match b.currentName.vocabulary with
  | .svg => b.insertForeign .svg { tag with name := svgTag tag.name }
  | vocabulary => b.insertForeign vocabulary tag

/-! ## Templates and texts -/

/-- The start tags with the same rule everywhere, most of them without
    content or with text only. -/
def commonTags : List String :=
  ["base", "basefont", "bgsound", "link", "meta", "noframes", "script", "style", "template",
    "title"]

/-- The rule for these start tags. -/
def openCommon (b : Construction) (tag : Tag) : Construction :=
  if tag.name = "title" then b.insertTextual tag (.escapable tag.name)
  else if tag.name = "noframes" ∨ tag.name = "style" then b.insertTextual tag (.raw tag.name)
  else if tag.name = "script" then b.insertTextual tag .script
  else if tag.name = "template" then
    { (b.insertTag tag).markFormatting with
      mode := .inTemplate
      templateModes := .inTemplate :: b.templateModes }
  else b.insertVoid tag

/-- The end of a template. -/
def closeTemplate (b : Construction) : Construction :=
  if b.hasOpen "template" then
    let b := ((b.closeImplied thoroughlyImpliedTags).closeInnermost "template").clearFormatting
    { b with templateModes := b.templateModes.drop 1 }.resetMode
  else b

/-! ## Start tags -/

/-- The start tag of an item of a list, which ends the item before it. -/
def openItem (b : Construction) (items : List String) (tag : Tag) : Construction :=
  let passable := ["address", "div", "p"]
  let stop := b.stack.find? fun i =>
    let name := b.draft.name i
    name.isHtmlIn items || (name.isHtmlIn specialTags && !name.isHtmlIn passable)
  let b :=
    match stop with
    | some i =>
      let name := b.draft.name i
      if name.isHtmlIn items then (b.closeImpliedExcept name.tag).closeInnermost name.tag else b
    | none => b
  b.endParagraph.insertTag tag

/-- The start tag of a form, which is dropped inside a form. -/
def openForm (b : Construction) (tag : Tag) : Construction :=
  let inTemplate := b.hasOpen "template"
  if b.form.isSome && !inTemplate then b
  else
    let b := b.endParagraph
    { b.insertTag tag with form := if inTemplate then b.form else some b.draft.size }

/-- The start tag of a selection. -/
def openSelect (b : Construction) (tag : Tag) : Construction :=
  let inTable :=
    match b.mode with
    | .inTable | .inCaption | .inTableBody | .inRow | .inCell => true
    | _ => false
  { b.reopen.insertTag tag with mode := if inTable then .inSelectInTable else .inSelect }

/-- The start tag of a button, which ends the button that is open. -/
def openButton (b : Construction) (tag : Tag) : Construction :=
  let b :=
    if b.inScope boundsScope "button" then (b.closeImplied impliedTags).closeInnermost "button"
    else b
  b.reopen.insertTag tag

/-- Tags that stay empty and are formatted like text. -/
def inlineVoidTags : List String :=
  ["area", "br", "embed", "img", "input", "keygen", "wbr"]

/-- A start tag in ordinary content. -/
def openInBody (b : Construction) (tag : Tag) : Construction :=
  let name := tag.name
  if commonTags.contains name then b.openCommon tag
  else if ["html", "body", "frameset"].contains name then b
  else if blockTags.contains name then b.endParagraph.insertTag tag
  else if headingTags.contains name then
    let b := b.endParagraph
    (if b.currentIn headingTags then b.pop else b).insertTag tag
  else if name = "pre" ∨ name = "listing" then
    { b.endParagraph.insertTag tag with skipsNewline := true }
  else if name = "form" then b.openForm tag
  else if name = "li" then b.openItem ["li"] tag
  else if name = "dd" ∨ name = "dt" then b.openItem ["dd", "dt"] tag
  else if name = "plaintext" then { b.endParagraph.insertTag tag with lexing := .plain }
  else if name = "button" then b.openButton tag
  else if name = "a" then b.endLink.reopen.insertFormatting tag
  else if name = "nobr" then
    let b := b.reopen
    (if b.inScope boundsScope "nobr" then (b.adopt "nobr").reopen else b).insertFormatting tag
  else if formattingTags.contains name then b.reopen.insertFormatting tag
  else if ["applet", "marquee", "object"].contains name then
    (b.reopen.insertTag tag).markFormatting
  else if name = "table" then { b.endParagraph.insertTag tag with mode := .inTable }
  else if inlineVoidTags.contains name then b.reopen.insertVoid tag
  else if name = "image" then b.reopen.insertVoid { tag with name := "img" }
  else if ["param", "source", "track"].contains name then b.insertVoid tag
  else if name = "hr" then b.endParagraph.insertVoid tag
  else if name = "textarea" then
    { b.insertTextual tag (.escapable name) with skipsNewline := true }
  else if name = "xmp" then b.endParagraph.reopen.insertTextual tag (.raw name)
  else if ["iframe", "noembed", "noscript"].contains name then b.insertTextual tag (.raw name)
  else if name = "select" then b.openSelect tag
  else if name = "optgroup" ∨ name = "option" then
    (if b.currentIn ["option"] then b.pop else b).reopen.insertTag tag
  else if name = "rb" ∨ name = "rtc" then
    (if b.inScope boundsScope "ruby" then b.closeImplied impliedTags else b).insertTag tag
  else if name = "rp" ∨ name = "rt" then
    (if b.inScope boundsScope "ruby" then b.closeImpliedExcept "rtc" else b).insertTag tag
  else if name = "math" then b.reopen.insertForeign .mathml tag
  else if name = "svg" then b.reopen.insertForeign .svg tag
  else if tablePartTags.contains name then b
  else b.reopen.insertTag tag

/-! ## End tags -/

/-- The end tag of a form. -/
def closeForm (b : Construction) : Construction :=
  if b.hasOpen "template" then
    if b.inScope boundsScope "form" then (b.closeImplied impliedTags).closeInnermost "form" else b
  else
    match b.form with
    | none => b
    | some node =>
      let b := { b with form := none }
      if b.inScopeWhere boundsScope (· = node) then
        let b := b.closeImplied impliedTags
        { b with stack := b.stack.filter (· ≠ node) }
      else b

/-- The end tag of a heading, which ends a heading of any level. -/
def closeHeading (b : Construction) : Construction :=
  let isHeading := fun i => (b.draft.name i).isHtmlIn headingTags
  if b.inScopeWhere boundsScope isHeading then (b.closeImplied impliedTags).popThrough isHeading
  else b

/-- An end tag in ordinary content. -/
def closeInBody (b : Construction) (name : String) : Construction :=
  if name = "template" then b.closeTemplate
  else if name = "body" ∨ name = "html" then b
  else if closableTags.contains name then
    if b.inScope boundsScope name then (b.closeImplied impliedTags).closeInnermost name else b
  else if name = "form" then b.closeForm
  else if name = "p" then
    (if b.inScope boundsButtonScope "p" then b else b.insertImplied "p").closeParagraph
  else if name = "li" then
    if b.inScope boundsListScope name then (b.closeImpliedExcept name).closeInnermost name else b
  else if name = "dd" ∨ name = "dt" then
    if b.inScope boundsScope name then (b.closeImpliedExcept name).closeInnermost name else b
  else if headingTags.contains name then b.closeHeading
  else if formattingTags.contains name then b.adopt name
  else if ["applet", "marquee", "object"].contains name then
    if b.inScope boundsScope name then
      ((b.closeImplied impliedTags).closeInnermost name).clearFormatting
    else b
  else if name = "br" then b.reopen.insertVoid (Tag.plain "br")
  else b.closeGeneric name

/-- A token as ordinary content. -/
def inBody (b : Construction) : Token → Construction
  | .char c => if c.toNat = 0 then b else b.reopen.insertChar c
  | .comment s => b.insertComment s
  | .opening tag => b.openInBody tag
  | .closing name => b.closeInBody name
  | .omitted => b
  | .finish => b

/-- A token as ordinary content that is moved out of the table around it. -/
def fosterInBody (b : Construction) (t : Token) : Construction :=
  { { b with fostering := true }.inBody t with fostering := false }

end DataBinding.Markup.Construction
