/-
  The rules of every mode, and the construction of a forest from text.

  `byMode` takes a token by the rules of the mode; it also tells whether the
  token is to be taken again, by the rules of the mode reached.  `parseFragment`
  reads the markup of the content of a body: it has an answer for every text.
-/
import DataBinding.Markup.Construction.Content

namespace DataBinding.Markup.Construction

/-- A construction after a token, and whether the token is taken again. -/
abbrev Outcome := Construction × Bool

/-- The token has been taken. -/
def done (b : Construction) : Outcome := (b, false)

/-- The token is taken again in another mode. -/
def again (mode : Mode) (b : Construction) : Outcome := ({ b with mode := mode }, true)

/-! ## Tables -/

/-- The end tags that a part of a table leaves unused. -/
def tableEndTags : List String :=
  ["body", "caption", "col", "colgroup", "html", "tbody", "td", "tfoot", "th", "thead", "tr"]

/-- Text directly in a table is collected; elsewhere it is moved out. -/
def charInTable (b : Construction) (c : Char) : Outcome :=
  if b.currentIn fosterTags then again .inTableText { b with returnMode := b.mode, tableText := [] }
  else done (b.fosterInBody (.char c))

/-- Whether an attribute hides an input. -/
def isHiddenInput (tag : Tag) : Bool :=
  (tag.attribute? "type").any fun s => Text.lower s == "hidden"

/-- A start tag directly in a table. -/
def openInTable (b : Construction) (tag : Tag) : Outcome :=
  let name := tag.name
  if name = "caption" then
    done { ((b.popTo ["html", "table", "template"]).markFormatting).insertTag tag with
      mode := .inCaption }
  else if name = "colgroup" then
    done { (b.popTo ["html", "table", "template"]).insertTag tag with mode := .inColumnGroup }
  else if name = "col" then
    again .inColumnGroup ((b.popTo ["html", "table", "template"]).insertImplied "colgroup")
  else if ["tbody", "tfoot", "thead"].contains name then
    done { (b.popTo ["html", "table", "template"]).insertTag tag with mode := .inTableBody }
  else if ["td", "th", "tr"].contains name then
    again .inTableBody ((b.popTo ["html", "table", "template"]).insertImplied "tbody")
  else if name = "table" then
    if b.inScope boundsTableScope "table" then
      let b := (b.closeInnermost "table").resetMode
      again b.mode b
    else done b
  else if ["script", "style", "template"].contains name then done (b.openCommon tag)
  else if name = "input" ∧ isHiddenInput tag then done (b.insertVoid tag)
  else if name = "form" then
    if b.hasOpen "template" || b.form.isSome then done b
    else done { b.insertVoid tag with form := some b.draft.size }
  else done (b.fosterInBody (.opening tag))

/-- An end tag directly in a table. -/
def closeInTable (b : Construction) (name : String) : Outcome :=
  if name = "table" then
    if b.inScope boundsTableScope "table" then done (b.closeInnermost "table").resetMode
    else done b
  else if tableEndTags.contains name then done b
  else if name = "template" then done b.closeTemplate
  else done (b.fosterInBody (.closing name))

/-- A token directly in a table. -/
def inTable (b : Construction) : Token → Outcome
  | .char c => b.charInTable c
  | .comment s => done (b.insertComment s)
  | .opening tag => b.openInTable tag
  | .closing name => b.closeInTable name
  | .omitted => done b
  | .finish => done b

/-- Place the text collected directly in a table: blanks stay, other text is
    moved out. -/
def flushTableText (b : Construction) : Construction :=
  let text := b.tableText.reverse
  let b := { b with tableText := [] }
  if text.all fun c => isTagBlank c || c = '\r' then text.foldl insertChar b
  else text.foldl (fun b c => b.fosterInBody (.char c)) b

/-- A token after text directly in a table. -/
def inTableText (b : Construction) : Token → Outcome
  | .char c => done (if c.toNat = 0 then b else { b with tableText := c :: b.tableText })
  | .omitted => done b
  | _ => again b.returnMode b.flushTableText

/-- The tags that end a caption. -/
def captionEnders : List String :=
  ["caption", "col", "colgroup", "tbody", "td", "tfoot", "th", "thead", "tr"]

/-- Close the caption that is open. -/
def closeCaption (b : Construction) : Construction :=
  ((b.closeImplied impliedTags).closeInnermost "caption").clearFormatting

/-- A token in a caption. -/
def inCaption (b : Construction) (t : Token) : Outcome :=
  let isOpen := b.inScope boundsTableScope "caption"
  match t with
  | .opening tag =>
    if captionEnders.contains tag.name then
      if isOpen then again .inTable b.closeCaption else done b
    else done (b.inBody t)
  | .closing name =>
    if name = "caption" then
      if isOpen then done { b.closeCaption with mode := .inTable } else done b
    else if name = "table" then
      if isOpen then again .inTable b.closeCaption else done b
    else if tableEndTags.contains name then done b
    else done (b.inBody t)
  | _ => done (b.inBody t)

/-- End the group of columns and take the token again. -/
def leaveColumnGroup (b : Construction) : Outcome :=
  if b.currentIn ["colgroup"] then again .inTable b.pop else done b

/-- A token in a group of columns. -/
def inColumnGroup (b : Construction) : Token → Outcome
  | .char c => if isTagBlank c || c = '\r' then done (b.insertChar c) else b.leaveColumnGroup
  | .comment s => done (b.insertComment s)
  | .opening tag =>
    if tag.name = "html" then done b
    else if tag.name = "col" then done (b.insertVoid tag)
    else if tag.name = "template" then done (b.openCommon tag)
    else b.leaveColumnGroup
  | .closing name =>
    if name = "colgroup" then
      done (if b.currentIn ["colgroup"] then { b.pop with mode := .inTable } else b)
    else if name = "col" then done b
    else if name = "template" then done b.closeTemplate
    else b.leaveColumnGroup
  | .omitted => done b
  | .finish => done b

/-- Close elements until the current one is a group of rows. -/
def toTableBody (b : Construction) : Construction :=
  b.popTo ["html", "tbody", "template", "tfoot", "thead"]

/-- Close elements until the current one is a row. -/
def toRow (b : Construction) : Construction :=
  b.popTo ["html", "template", "tr"]

/-- End the group of rows and take the token again. -/
def leaveTableBody (b : Construction) : Outcome :=
  let isGroup := fun i => (b.draft.name i).isHtmlIn ["table", "tbody", "tfoot"]
  if b.inScopeWhere boundsTableScope isGroup then again .inTable b.toTableBody.pop else done b

/-- A token in a group of rows. -/
def inTableBody (b : Construction) (t : Token) : Outcome :=
  match t with
  | .opening tag =>
    let name := tag.name
    if name = "tr" then done { b.toTableBody.insertTag tag with mode := .inRow }
    else if name = "td" ∨ name = "th" then again .inRow (b.toTableBody.insertImplied "tr")
    else if ["caption", "col", "colgroup", "tbody", "tfoot", "thead"].contains name then
      b.leaveTableBody
    else b.inTable t
  | .closing name =>
    if ["tbody", "tfoot", "thead"].contains name then
      if b.inScope boundsTableScope name then done { b.toTableBody.pop with mode := .inTable }
      else done b
    else if name = "table" then b.leaveTableBody
    else if tableEndTags.contains name then done b
    else b.inTable t
  | _ => b.inTable t

/-- End the row and take the token again. -/
def leaveRow (b : Construction) : Outcome :=
  if b.inScope boundsTableScope "tr" then again .inTableBody b.toRow.pop else done b

/-- A token in a row. -/
def inRow (b : Construction) (t : Token) : Outcome :=
  match t with
  | .opening tag =>
    let name := tag.name
    if name = "td" ∨ name = "th" then
      done { (b.toRow.insertTag tag).markFormatting with mode := .inCell }
    else if ["caption", "col", "colgroup", "tbody", "tfoot", "thead", "tr"].contains name then
      b.leaveRow
    else b.inTable t
  | .closing name =>
    if name = "tr" then
      if b.inScope boundsTableScope "tr" then done { b.toRow.pop with mode := .inTableBody }
      else done b
    else if name = "table" then b.leaveRow
    else if ["tbody", "tfoot", "thead"].contains name then
      if b.inScope boundsTableScope name then b.leaveRow else done b
    else if tableEndTags.contains name then done b
    else b.inTable t
  | _ => b.inTable t

/-- Close the cell that is open. -/
def closeCell (b : Construction) : Construction :=
  let isCell := fun i => (b.draft.name i).isHtmlIn ["td", "th"]
  ((b.closeImplied impliedTags).popThrough isCell).clearFormatting

/-- A token in a cell. -/
def inCell (b : Construction) (t : Token) : Outcome :=
  match t with
  | .opening tag =>
    if captionEnders.contains tag.name then
      let isCell := fun i => (b.draft.name i).isHtmlIn ["td", "th"]
      if b.inScopeWhere boundsTableScope isCell then again .inRow b.closeCell else done b
    else done (b.inBody t)
  | .closing name =>
    if name = "td" ∨ name = "th" then
      if b.inScope boundsTableScope name then
        done { ((b.closeImplied impliedTags).closeInnermost name).clearFormatting with
          mode := .inRow }
      else done b
    else if ["body", "caption", "col", "colgroup", "html"].contains name then done b
    else if ["table", "tbody", "tfoot", "thead", "tr"].contains name then
      if b.inScope boundsTableScope name then again .inRow b.closeCell else done b
    else done (b.inBody t)
  | _ => done (b.inBody t)

/-! ## Selections -/

/-- Close the option, then the group of options, that is open. -/
def endOptions (b : Construction) : Construction :=
  let b := if b.currentIn ["option"] then b.pop else b
  if b.currentIn ["optgroup"] then b.pop else b

/-- Close the selection. -/
def closeSelect (b : Construction) : Construction :=
  (b.closeInnermost "select").resetMode

/-- A start tag in a selection. -/
def openInSelect (b : Construction) (tag : Tag) : Outcome :=
  let name := tag.name
  let isOpen := b.inScope boundsSelectScope "select"
  if name = "option" then
    done ((if b.currentIn ["option"] then b.pop else b).insertTag tag)
  else if name = "optgroup" then done (b.endOptions.insertTag tag)
  else if name = "hr" then done (b.endOptions.insertVoid tag)
  else if name = "select" then done (if isOpen then b.closeSelect else b)
  else if ["input", "keygen", "textarea"].contains name then
    if isOpen then
      let b := b.closeSelect
      again b.mode b
    else done b
  else if name = "script" ∨ name = "template" then done (b.openCommon tag)
  else done b

/-- An end tag in a selection. -/
def closeInSelect (b : Construction) (name : String) : Construction :=
  if name = "optgroup" then
    let underGroup := (b.stack.drop 1).head?.any (b.isTag "optgroup")
    let b := if b.currentIn ["option"] && underGroup then b.pop else b
    if b.currentIn ["optgroup"] then b.pop else b
  else if name = "option" then
    if b.currentIn ["option"] then b.pop else b
  else if name = "select" then
    if b.inScope boundsSelectScope "select" then b.closeSelect else b
  else if name = "template" then b.closeTemplate
  else b

/-- A token in a selection. -/
def inSelect (b : Construction) : Token → Outcome
  | .char c => done (if c.toNat = 0 then b else b.insertChar c)
  | .comment s => done (b.insertComment s)
  | .opening tag => b.openInSelect tag
  | .closing name => done (b.closeInSelect name)
  | .omitted => done b
  | .finish => done b

/-- The tags that end a selection in a table. -/
def selectEnders : List String :=
  ["caption", "table", "tbody", "td", "tfoot", "th", "thead", "tr"]

/-- A token in a selection in a table. -/
def inSelectInTable (b : Construction) (t : Token) : Outcome :=
  let leave :=
    let b := b.closeSelect
    again b.mode b
  match t with
  | .opening tag => if selectEnders.contains tag.name then leave else b.inSelect t
  | .closing name =>
    if selectEnders.contains name then
      if b.inScope boundsTableScope name then leave else done b
    else b.inSelect t
  | _ => b.inSelect t

/-! ## Templates and texts -/

/-- Go on in a template by the rules of another mode. -/
def retemplate (mode : Mode) (b : Construction) : Outcome :=
  again mode { b with templateModes := mode :: b.templateModes.drop 1 }

/-- A token in a template. -/
def inTemplate (b : Construction) (t : Token) : Outcome :=
  match t with
  | .opening tag =>
    let name := tag.name
    if commonTags.contains name then done (b.openCommon tag)
    else if ["caption", "colgroup", "tbody", "tfoot", "thead"].contains name then
      retemplate .inTable b
    else if name = "col" then retemplate .inColumnGroup b
    else if name = "tr" then retemplate .inTableBody b
    else if name = "td" ∨ name = "th" then retemplate .inRow b
    else retemplate .inBody b
  | .closing name => done (if name = "template" then b.closeTemplate else b)
  | _ => done (b.inBody t)

/-- A token of the text of an element. -/
def inText (b : Construction) : Token → Outcome
  | .char c => done (b.insertChar c)
  | .closing _ => done { b.pop with mode := b.returnMode, lexing := .data }
  | .finish => again b.returnMode b.pop
  | _ => done b

/-- A token by the rules of the mode. -/
def byMode (b : Construction) (t : Token) : Outcome :=
  match b.mode with
  | .inBody => done (b.inBody t)
  | .inText => b.inText t
  | .inTable => b.inTable t
  | .inTableText => b.inTableText t
  | .inCaption => b.inCaption t
  | .inColumnGroup => b.inColumnGroup t
  | .inTableBody => b.inTableBody t
  | .inRow => b.inRow t
  | .inCell => b.inCell t
  | .inSelect => b.inSelect t
  | .inSelectInTable => b.inSelectInTable t
  | .inTemplate => b.inTemplate t

/-! ## Foreign elements -/

/-- Whether a token belongs to the foreign element that is current. -/
def isForeign (b : Construction) (t : Token) : Bool :=
  let name := b.currentName
  if name.vocabulary = .html then false
  else
    match t with
    | .finish => false
    | .char _ => !(name.holdsMathText || name.holdsHtml)
    | .opening tag =>
      !(name.holdsHtml
        || (name.holdsMathText && !(["mglyph", "malignmark"].contains tag.name))
        || (name = ⟨.mathml, "annotation-xml"⟩ && tag.name = "svg"))
    | _ => true

/-- Close foreign elements until the current one may hold HTML. -/
def leaveForeign (b : Construction) : Construction :=
  { b with
    stack := b.stack.dropWhile fun i =>
      let name := b.draft.name i
      !(name.vocabulary = .html || name.holdsMathText || name.holdsHtml) }

/-- Whether a start tag ends foreign content. -/
def breaksOut (tag : Tag) : Bool :=
  breakoutTags.contains tag.name ||
    (tag.name = "font" && ["color", "face", "size"].any (Keyed.contains tag.attributes))

/-- The end tag of a foreign element; `outward` are the open elements from the
    one to compare on, and `first` tells that it is the current one. -/
def closeForeign (b : Construction) (name : String) (first : Bool) : List Nat → Outcome
  | [] => done b
  | [_] => done b
  | i :: outer =>
    if !first && (b.draft.name i).vocabulary = .html then b.byMode (.closing name)
    else if Text.lower (b.draft.name i).tag = name then done { b with stack := outer }
    else closeForeign b name false outer

/-- A token inside a foreign element. -/
def inForeign (b : Construction) (t : Token) : Outcome :=
  match t with
  | .char c => done (b.insertChar (withoutNull c))
  | .comment s => done (b.insertComment s)
  | .opening tag =>
    if breaksOut tag then b.leaveForeign.byMode t else done (b.foreignStart tag)
  | .closing name =>
    if name = "br" ∨ name = "p" then b.leaveForeign.byMode t
    else b.closeForeign name true b.stack
  | .omitted => done b
  | .finish => done b

/-! ## Texts -/

/-- A token, taken again at most so many times. -/
def takeRounds : Nat → Construction → Token → Construction
  | 0, b, _ => b
  | n + 1, b, t =>
    let (b, again) := if b.isForeign t then b.inForeign t else b.byMode t
    if again then takeRounds n b t else b

/-- Take a token; a line feed right after some start tags is dropped. -/
def take (b : Construction) (t : Token) : Construction :=
  let skips := b.skipsNewline
  let b := { b with skipsNewline := false }
  if skips && t = .char '\n' then b else takeRounds (b.stack.length + 16) b t

/-- Take the tokens of a text; `fuel` bounds its length. -/
def takeText : Nat → Construction → List Char → Construction
  | 0, b, _ => b
  | fuel + 1, b, cs =>
    if cs.isEmpty then b
    else
      let foreign := b.currentName.vocabulary ≠ .html
      let (tokens, rest) := Token.lex b.lexing foreign cs
      takeText fuel (tokens.foldl take b) rest

end Construction

/-- The forest that a text of markup stands for, as the content of a body. -/
def parseFragment (markup : String) : List Markup :=
  let cs :=
    match markup.toList with
    | c :: rest => if c.toNat = 0xFEFF then rest else c :: rest
    | [] => []
  let text := normalizeNewlines cs
  let b := (Construction.start.takeText (text.length + 1) text).take .finish
  b.draft.forest 0

end DataBinding.Markup
