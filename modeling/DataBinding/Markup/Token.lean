/-
  The tokens of markup.

  `Token.lex` takes the tokens at the front of a text.  How it reads them
  depends on the `Lexing` that the element under construction asks for: markup,
  text with character references, text without them, the text of a script, or
  nothing but text to the end.

  A tag that the text ends in is dropped, as is an attribute whose name came
  before in the same tag.
-/
import DataBinding.Markup.Reference
import DataBinding.Keyed

namespace DataBinding.Markup

/-- A start or end tag. -/
structure Tag where
  /-- The name, in small letters. -/
  name : String
  /-- The attributes, in order. -/
  attributes : List (String × String)
  /-- Whether the tag closes itself. -/
  selfClosing : Bool
  deriving DecidableEq

namespace Tag

/-- The value of an attribute. -/
def attribute? (tag : Tag) (name : String) : Option String :=
  Keyed.get? tag.attributes name

/-- A start tag without attributes. -/
def plain (name : String) : Tag := ⟨name, [], false⟩

end Tag

/-- A token of markup. -/
inductive Token where
  /-- A start tag. -/
  | opening (tag : Tag)
  /-- An end tag. -/
  | closing (name : String)
  /-- A comment. -/
  | comment (s : String)
  /-- A character of text. -/
  | char (c : Char)
  /-- Markup that leaves nothing in the tree, such as a document type. -/
  | omitted
  /-- The end of the text. -/
  | finish
  deriving DecidableEq

/-- How the text ahead is read. -/
inductive Lexing where
  /-- As markup. -/
  | data
  /-- As text with character references, up to the end tag of this name. -/
  | escapable (name : String)
  /-- As text, up to the end tag of this name. -/
  | raw (name : String)
  /-- As a script, up to its end tag. -/
  | script
  /-- As text, to the end. -/
  | plain
  deriving DecidableEq

/-! ## Characters -/

/-- The blanks between the parts of a tag. -/
def isTagBlank (c : Char) : Bool :=
  c = '\t' || c = '\n' || c.toNat = 12 || c = ' '

/-- Whether a tag name ends before this character. -/
def endsName (c : Char) : Bool :=
  isTagBlank c || c = '/' || c = '>'

/-- A character, or the replacement for a null character. -/
def withoutNull (c : Char) : Char :=
  if c.toNat = 0 then replacement else c

/-- A character of a name. -/
def nameChar (c : Char) : Char :=
  Text.lowerChar (withoutNull c)

/-- Line ends as single line feeds. -/
def normalizeNewlines : List Char → List Char
  | [] => []
  | '\r' :: '\n' :: rest => '\n' :: normalizeNewlines rest
  | '\r' :: rest => '\n' :: normalizeNewlines rest
  | c :: rest => c :: normalizeNewlines rest

/-! ## Tags -/

/-- An attribute value up to a character that ends it; none if the text ends
    first.  `fuel` bounds its length. -/
def attributeValue (stops : Char → Bool) :
    Nat → List Char → List Char → Option (List Char × List Char)
  | 0, _, _ => none
  | fuel + 1, done, cs =>
    match cs with
    | [] => none
    | c :: rest =>
      if stops c then some (done.reverse, cs)
      else if c = '&' then
        match reference? true rest with
        | some (found, rest) => attributeValue stops fuel (found.reverse ++ done) rest
        | none => attributeValue stops fuel (c :: done) rest
      else attributeValue stops fuel (withoutNull c :: done) rest

/-- What follows the name of an attribute: its value, if an equals sign
    follows; none if the text ends first. -/
def afterAttributeName (cs : List Char) : Option (List Char × List Char) :=
  match cs.dropWhile isTagBlank with
  | '=' :: rest =>
    match rest.dropWhile isTagBlank with
    | [] => none
    | '"' :: rest =>
      (attributeValue (· = '"') (rest.length + 1) [] rest).map fun v => (v.1, v.2.drop 1)
    | '\x27' :: rest =>
      (attributeValue (· = '\x27') (rest.length + 1) [] rest).map fun v => (v.1, v.2.drop 1)
    | rest => attributeValue (fun c => isTagBlank c || c = '>') (rest.length + 1) [] rest
  | rest => some ([], rest)

/-- The attributes of a tag after those already read, up to and with its end:
    the attributes, whether the tag closes itself, and the rest; none if the
    text ends first. -/
def tagRest : Nat → List (String × String) → List Char →
    Option (List (String × String) × Bool × List Char)
  | 0, _, _ => none
  | fuel + 1, attributes, cs =>
    match cs with
    | [] => none
    | '>' :: rest => some (attributes, false, rest)
    | '/' :: '>' :: rest => some (attributes, true, rest)
    | c :: rest =>
      if endsName c then tagRest fuel attributes rest
      else
        let stops := fun c => endsName c || c = '='
        let name := String.ofList ((c :: rest.takeWhile (!stops ·)).map nameChar)
        match afterAttributeName (rest.dropWhile (!stops ·)) with
        | none => none
        | some (value, rest) =>
          let entry := (name, String.ofList value)
          tagRest fuel
            (if Keyed.contains attributes name then attributes else attributes ++ [entry]) rest

/-- A tag, from its name on; none if the text ends first. -/
def tag? (cs : List Char) : Option (Tag × List Char) :=
  let name := String.ofList ((cs.takeWhile (!endsName ·)).map nameChar)
  (tagRest (cs.length + 1) [] (cs.dropWhile (!endsName ·))).map fun (attributes, closed, rest) =>
    (⟨name, attributes, closed⟩, rest)

/-! ## Comments -/

/-- The text of a comment and the rest after it. -/
def commentRest : List Char → List Char × List Char
  | [] => ([], [])
  | ['-'] => ([], [])
  | ['-', '-'] => ([], [])
  | ['-', '-', '!'] => ([], [])
  | '-' :: '-' :: '>' :: rest => ([], rest)
  | '-' :: '-' :: '!' :: '>' :: rest => ([], rest)
  | c :: rest =>
    let (inside, after) := commentRest rest
    (withoutNull c :: inside, after)

/-- The text of a comment, after its two opening dashes; it may end at once. -/
def commentText : List Char → List Char × List Char
  | '>' :: rest => ([], rest)
  | '-' :: '>' :: rest => ([], rest)
  | cs => commentRest cs

/-- The text up to the next `>`, as a comment. -/
def bogusComment (cs : List Char) : List Token × List Char :=
  let text := (cs.takeWhile (· ≠ '>')).map withoutNull
  ([.comment (String.ofList text)], (cs.dropWhile (· ≠ '>')).drop 1)

/-! ## Text -/

/-- Whether the text begins with a word, in any case. -/
def beginsWith (word : List Char) (cs : List Char) : Bool :=
  (cs.take word.length).map Text.lowerChar == word

/-- Whether the text, after `</`, is the end tag of this name. -/
def isEndTagOf (name : List Char) (cs : List Char) : Bool :=
  beginsWith name cs && (cs.drop name.length).head?.any endsName

/-- How far a script is hidden in a comment. -/
inductive Cover where
  /-- Not at all. -/
  | bare
  /-- In a comment, that `dashes` end the text so far. -/
  | comment (dashes : Nat)
  /-- In a script in a comment. -/
  | script (dashes : Nat)

/-- Whether the text is the name of a script, then the end of a name. -/
def isScriptName (cs : List Char) : Bool :=
  isEndTagOf ['s', 'c', 'r', 'i', 'p', 't'] cs

/-- How far a script is hidden after one more character. -/
def Cover.next (cover : Cover) (c : Char) (rest : List Char) : Cover :=
  match cover with
  | .bare => if c = '<' && beginsWith ['!', '-', '-'] rest then .comment 0 else .bare
  | .comment dashes =>
    if c = '-' then .comment (dashes + 1)
    else if c = '>' && 2 ≤ dashes then .bare
    else if c = '<' && isScriptName rest then .script 0
    else .comment 0
  | .script dashes =>
    if c = '-' then .script (dashes + 1)
    else if c = '>' && 2 ≤ dashes then .bare
    else if c = '<' && rest.head? = some '/' && isScriptName (rest.drop 1) then .comment 0
    else .script 0

/-- Whether an end tag is seen: not in a script in a comment. -/
def Cover.seesEnd : Cover → Bool
  | .script _ => false
  | _ => true

/-- The text of a script, and the rest from its end tag on. -/
def scriptRest (cover : Cover) : List Char → List Char × List Char
  | [] => ([], [])
  | c :: rest =>
    if cover.seesEnd && c = '<' && rest.head? = some '/' && isScriptName (rest.drop 1) then
      ([], c :: rest)
    else
      let (inside, after) := scriptRest (cover.next c rest) rest
      (withoutNull c :: inside, after)

/-- The text of a section of plain characters, and the rest after it. -/
def sectionRest : List Char → List Char × List Char
  | [] => ([], [])
  | ']' :: ']' :: '>' :: rest => ([], rest)
  | c :: rest =>
    let (inside, after) := sectionRest rest
    (c :: inside, after)

/-! ## Tokens -/

/-- The tokens of an end tag, from its name on. -/
def closingTag (cs : List Char) : List Token × List Char :=
  match tag? cs with
  | some (tag, rest) => ([.closing tag.name], rest)
  | none => ([], [])

/-- The tokens after `<!`. -/
def declaration (foreign : Bool) (cs : List Char) : List Token × List Char :=
  match cs with
  | '-' :: '-' :: rest =>
    let (inside, rest) := commentText rest
    ([.comment (String.ofList inside)], rest)
  | _ =>
    if beginsWith "doctype".toList cs then
      ([.omitted], (cs.dropWhile (· ≠ '>')).drop 1)
    else if foreign && cs.take 7 == "[CDATA[".toList then
      let (inside, rest) := sectionRest (cs.drop 7)
      (inside.map .char, rest)
    else bogusComment cs

/-- The tokens after `<`. -/
def afterLess (foreign : Bool) : List Char → List Token × List Char
  | '!' :: rest => declaration foreign rest
  | ['/'] => ([.char '<', .char '/'], [])
  | '/' :: '>' :: rest => ([.omitted], rest)
  | '/' :: c :: rest => if c.isAlpha then closingTag (c :: rest) else bogusComment (c :: rest)
  | '?' :: rest => bogusComment ('?' :: rest)
  | c :: rest =>
    if c.isAlpha then
      match tag? (c :: rest) with
      | some (tag, rest) => ([.opening tag], rest)
      | none => ([], [])
    else ([.char '<'], c :: rest)
  | [] => ([.char '<'], [])

/-- The tokens of an ampersand. -/
def ampersand (rest : List Char) : List Token × List Char :=
  match reference? false rest with
  | some (found, rest) => (found.map .char, rest)
  | none => ([.char '&'], rest)

/-- The tokens of one character of text that an end tag may follow. -/
def rawChar (references : Bool) (name : String) (c : Char) (rest : List Char) :
    List Token × List Char :=
  if c = '<' && rest.head? = some '/' && isEndTagOf name.toList (rest.drop 1) then
    closingTag (rest.drop 1)
  else if references && c = '&' then ampersand rest
  else ([.char (withoutNull c)], rest)

/-- The tokens at the front of a text, and the rest.  `foreign` tells whether
    the element under construction is not of HTML. -/
def Token.lex (lexing : Lexing) (foreign : Bool) : List Char → List Token × List Char
  | [] => ([], [])
  | c :: rest =>
    match lexing with
    | .data =>
      if c = '<' then afterLess foreign rest
      else if c = '&' then ampersand rest
      else ([.char c], rest)
    | .escapable name => rawChar true name c rest
    | .raw name => rawChar false name c rest
    | .script =>
      if c = '<' && rest.head? = some '/' && isScriptName (rest.drop 1) then
        closingTag (rest.drop 1)
      else
        let (inside, rest) := scriptRest .bare (c :: rest)
        (inside.map .char, rest)
    | .plain => ([.char (withoutNull c)], rest)

end DataBinding.Markup
