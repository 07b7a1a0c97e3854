/-
  Markup as it may be written by hand.

  A `Source` is a tree of text with character references, comments, void elements
  (`br`, `img`, `input`), raw text elements (`style`, `script`) and nested elements
  (`div`, `span`), with all that their written form leaves open: capitals in names,
  blanks in tags, the spelling of characters, attributes given twice.

  * `chars` and `allChars` are the written form;
  * `forest` and `forestAll` are the nodes that it stands for;
  * `Sound` and `SoundAll` say that each piece ends where it seems to.
-/
import DataBinding.Proofs.Document.Graft
import DataBinding.Proofs.Markup.Decoding

namespace DataBinding.Markup

/-! ## Tags -/

/-- An attribute as it is written, its value in double quotes. -/
structure WrittenAttribute where
  /-- The blanks before it. -/
  gap : List Char
  /-- The name. -/
  name : List Char
  /-- The blanks before the equals sign. -/
  before : List Char
  /-- The blanks after the equals sign. -/
  after : List Char
  /-- The value, with character references. -/
  value : List Char

namespace WrittenAttribute

/-- The written form. -/
def chars (a : WrittenAttribute) : List Char :=
  a.gap ++ a.name ++ a.before ++ '=' :: a.after ++ '"' :: a.value ++ ['"']

/-- The name and the value that are meant. -/
def entry (a : WrittenAttribute) : String × String :=
  (String.ofList (a.name.map nameChar), String.ofList (decode true a.value))

/-- Whether a character may stand in the name of an attribute. -/
def isNameChar (c : Char) : Bool :=
  !(endsName c || c = '=')

/-- Each part ends where it seems to. -/
structure Sound (a : WrittenAttribute) : Prop where
  gap : a.gap ≠ [] ∧ ∀ c ∈ a.gap, isTagBlank c = true
  name : a.name ≠ [] ∧ ∀ c ∈ a.name, isNameChar c = true
  before : ∀ c ∈ a.before, isTagBlank c = true
  after : ∀ c ∈ a.after, isTagBlank c = true
  value : '"' ∉ a.value

instance (a : WrittenAttribute) : Decidable a.Sound :=
  decidable_of_iff ((a.gap ≠ [] ∧ ∀ c ∈ a.gap, isTagBlank c = true) ∧
      (a.name ≠ [] ∧ ∀ c ∈ a.name, isNameChar c = true) ∧
      (∀ c ∈ a.before, isTagBlank c = true) ∧ (∀ c ∈ a.after, isTagBlank c = true) ∧
      '"' ∉ a.value)
    ⟨fun ⟨h1, h2, h3, h4, h5⟩ => ⟨h1, h2, h3, h4, h5⟩,
      fun ⟨h1, h2, h3, h4, h5⟩ => ⟨h1, h2, h3, h4, h5⟩⟩

end WrittenAttribute

/-- Attributes with one more, unless its name came before. -/
def addAttribute (done : List (String × String)) (entry : String × String) :
    List (String × String) :=
  if Keyed.contains done entry.1 then done else done ++ [entry]

/-- A start tag as it is written, or an end tag, in which attributes mean nothing. -/
structure WrittenTag where
  /-- The name. -/
  name : List Char
  /-- The attributes, in order. -/
  attributes : List WrittenAttribute
  /-- The blanks before the end of the tag. -/
  gap : List Char

namespace WrittenTag

/-- The written form, from the name on and up to the end of the tag. -/
def chars (t : WrittenTag) : List Char :=
  t.name ++ t.attributes.flatMap WrittenAttribute.chars ++ t.gap

/-- The name of the element that is meant. -/
def tag (t : WrittenTag) : String :=
  String.ofList (t.name.map nameChar)

/-- The attributes that are meant. -/
def entries (t : WrittenTag) : List (String × String) :=
  (t.attributes.map WrittenAttribute.entry).foldl addAttribute []

/-- Each part ends where it seems to, and the name is one of these. -/
structure Sound (t : WrittenTag) (tags : List String) : Prop where
  name : t.tag ∈ tags
  attributes : ∀ a ∈ t.attributes, a.Sound
  gap : ∀ c ∈ t.gap, isTagBlank c = true

instance (t : WrittenTag) (tags : List String) : Decidable (t.Sound tags) :=
  decidable_of_iff (t.tag ∈ tags ∧ (∀ a ∈ t.attributes, a.Sound) ∧
      ∀ c ∈ t.gap, isTagBlank c = true)
    ⟨fun ⟨h1, h2, h3⟩ => ⟨h1, h2, h3⟩, fun ⟨h1, h2, h3⟩ => ⟨h1, h2, h3⟩⟩

end WrittenTag

/-- The end of a tag, which may close itself. -/
def tagEnd (closed : Bool) : List Char :=
  if closed then ['/', '>'] else ['>']

/-- The tags of the elements without content. -/
def emptyTags : List String := ["br", "img", "input"]

/-- The tags of the raw text elements. -/
def rawTextTags : List String := ["style", "script"]

/-- The tags of the elements with content. -/
def contentTags : List String := ["div", "span"]

/-! ## Comments and raw text -/

/-- The text of a comment that ends where it seems to. -/
def SoundComment (cs : List Char) : Prop :=
  ¬ ['>'] <+: cs ∧ ¬ ['-', '>'] <+: cs ∧ ¬ ['-', '-', '>'] <:+: cs ∧
    ¬ ['-', '-', '!', '>'] <:+: cs

instance (cs : List Char) : Decidable (SoundComment cs) :=
  inferInstanceAs (Decidable (_ ∧ _))

/-- Whether the end tag of a name begins with this character. -/
def beginsEndTag (name : List Char) (c : Char) (rest : List Char) : Bool :=
  c = '<' && rest.head? = some '/' && isEndTagOf name (rest.drop 1)

/-- Text without an end tag of this name. -/
def soundRaw (name : List Char) : List Char → Bool
  | [] => true
  | c :: rest => !beginsEndTag name c rest && soundRaw name rest

/-- The text of a script that does not end early, and at whose end an end tag is
    seen. -/
def soundScript (cover : Cover) : List Char → Bool
  | [] => cover.seesEnd
  | c :: rest =>
    !(cover.seesEnd && beginsEndTag "script".toList c rest) &&
      soundScript (cover.next c rest) rest

/-- The text of a raw text element that ends where it seems to. -/
def soundContent (tag : String) (cs : List Char) : Bool :=
  if tag = "script" then soundScript .bare cs else soundRaw tag.toList cs

/-! ## Trees -/

/-- A piece of written markup. -/
inductive Source where
  /-- Text, with character references. -/
  | text (cs : List Char)
  /-- A comment. -/
  | comment (cs : List Char)
  /-- An element without content, whose tag may close itself. -/
  | void (start : WrittenTag) (closed : Bool)
  /-- An element whose text is raw. -/
  | raw (start : WrittenTag) (content : List Char) (finish : WrittenTag)
  /-- An element with content. -/
  | element (start : WrittenTag) (children : List Source) (finish : WrittenTag)

namespace Source

/-- Whether a piece is text. -/
def isText : Source → Bool
  | .text _ => true
  | .comment _ | .void _ _ | .raw _ _ _ | .element _ _ _ => false

mutual

/-- The written form of a piece. -/
def chars : Source → List Char
  | .text cs => cs
  | .comment cs => '<' :: '!' :: '-' :: '-' :: cs ++ ['-', '-', '>']
  | .void start closed => '<' :: start.chars ++ tagEnd closed
  | .raw start content finish =>
    '<' :: start.chars ++ tagEnd false ++ content ++ '<' :: '/' :: finish.chars ++ tagEnd false
  | .element start children finish =>
    '<' :: start.chars ++ tagEnd false ++ allChars children ++
      '<' :: '/' :: finish.chars ++ tagEnd false

/-- The written form of pieces, one after the other. -/
def allChars : List Source → List Char
  | [] => []
  | s :: rest => chars s ++ allChars rest

end

mutual

/-- The nodes that a piece stands for: none for text of null characters only. -/
def forest : Source → List Markup
  | .text cs => ofText (String.ofList (decode false cs))
  | .comment cs => [.comment (String.ofList (cs.map withoutNull))]
  | .void start _ => [.element start.tag start.entries []]
  | .raw start content _ =>
    [.element start.tag start.entries (ofText (String.ofList (content.map withoutNull)))]
  | .element start children _ => [.element start.tag start.entries (forestAll children)]

/-- The nodes that pieces stand for. -/
def forestAll : List Source → List Markup
  | [] => []
  | s :: rest => forest s ++ forestAll rest

end

mutual

/-- Every piece ends where it seems to. -/
def Sound : Source → Prop
  | .text cs => '<' ∉ cs
  | .comment cs => SoundComment cs
  | .void start _ => start.Sound emptyTags
  | .raw start content finish =>
    start.Sound rawTextTags ∧ soundContent start.tag content = true ∧
      finish.Sound [start.tag]
  | .element start children finish =>
    start.Sound contentTags ∧ SoundAll children ∧ finish.Sound [start.tag]

/-- Every piece ends where it seems to: no two texts are next to one another. -/
def SoundAll : List Source → Prop
  | [] => True
  | s :: rest =>
    Sound s ∧ (s.isText = true → ∀ next ∈ rest.head?, next.isText = false) ∧ SoundAll rest

end

mutual

instance decidableSound : ∀ s : Source, Decidable s.Sound
  | .text _ => inferInstanceAs (Decidable (¬ _))
  | .comment cs => inferInstanceAs (Decidable (SoundComment cs))
  | .void start _ => inferInstanceAs (Decidable (start.Sound _))
  | .raw _ _ _ => inferInstanceAs (Decidable (_ ∧ _ ∧ _))
  | .element _ children _ =>
    have := decidableSoundAll children
    inferInstanceAs (Decidable (_ ∧ _ ∧ _))

instance decidableSoundAll : ∀ sources : List Source, Decidable (SoundAll sources)
  | [] => .isTrue trivial
  | s :: rest =>
    have := decidableSound s
    have := decidableSoundAll rest
    inferInstanceAs (Decidable (_ ∧ (_ → _) ∧ _))

end

/-! ## One piece and what follows it -/

variable {s : Source} {sources : List Source}

theorem chars_comment_append (cs rest : List Char) :
    (Source.comment cs).chars ++ rest =
      '<' :: '!' :: '-' :: '-' :: (cs ++ '-' :: '-' :: '>' :: rest) := by
  simp only [chars, List.cons_append, List.append_assoc, List.nil_append]

theorem chars_void_append (start : WrittenTag) (closed : Bool) (rest : List Char) :
    (Source.void start closed).chars ++ rest = '<' :: (start.chars ++ (tagEnd closed ++ rest)) := by
  simp only [chars, List.cons_append, List.append_assoc]

theorem chars_raw_append (start : WrittenTag) (content : List Char) (finish : WrittenTag)
    (rest : List Char) :
    (Source.raw start content finish).chars ++ rest = '<' :: (start.chars ++ (tagEnd false ++
      (content ++ '<' :: '/' :: (finish.chars ++ (tagEnd false ++ rest))))) := by
  simp only [chars, List.cons_append, List.append_assoc]

theorem chars_element_append (start : WrittenTag) (children : List Source) (finish : WrittenTag)
    (rest : List Char) :
    (Source.element start children finish).chars ++ rest = '<' :: (start.chars ++ (tagEnd false ++
      (allChars children ++ '<' :: '/' :: (finish.chars ++ (tagEnd false ++ rest))))) := by
  simp only [chars, List.cons_append, List.append_assoc]

theorem not_mem_void {start : WrittenTag} {closed : Bool} {c : Char}
    (h : c ∉ (Source.void start closed).chars) : c ∉ start.chars :=
  fun hmem => h (by simp [chars, hmem])

theorem not_mem_raw {start finish : WrittenTag} {content : List Char} {c : Char}
    (h : c ∉ (Source.raw start content finish).chars) : c ∉ start.chars ∧ c ∉ content :=
  ⟨fun hmem => h (by simp [chars, hmem]), fun hmem => h (by simp [chars, hmem])⟩

theorem not_mem_element {start finish : WrittenTag} {children : List Source} {c : Char}
    (h : c ∉ (Source.element start children finish).chars) :
    c ∉ start.chars ∧ c ∉ allChars children :=
  ⟨fun hmem => h (by simp [chars, hmem]), fun hmem => h (by simp [chars, hmem])⟩

/-- A piece that is not text ends the text before it. -/
theorem ends_chars (h : s.isText = false) (rest : List Char) : Ends (s.chars ++ rest) := by
  cases s with
  | text cs => cases h
  | comment cs => exact chars_comment_append cs rest ▸ ends_less _
  | void start closed => exact chars_void_append start closed rest ▸ ends_less _
  | raw start content finish => exact chars_raw_append start content finish rest ▸ ends_less _
  | element start children finish =>
    exact chars_element_append start children finish rest ▸ ends_less _

theorem ends_allChars {rest : List Char} (h : ∀ next ∈ sources.head?, next.isText = false)
    (hrest : Ends rest) : Ends (allChars sources ++ rest) := by
  cases sources with
  | nil => exact hrest
  | cons next sources =>
    rw [allChars, List.append_assoc]
    exact ends_chars (h next rfl) _

/-- A piece that is not text stands for one node that is not text. -/
theorem forest_of_not_isText (h : s.isText = false) :
    ∃ m, s.forest = [m] ∧ m.isText = false := by
  cases s with
  | text cs => cases h
  | _ => exact ⟨_, rfl, rfl⟩

end Source

end DataBinding.Markup
