/-
  Written markup can be read in one way only.

  Texts and attribute values are escaped, and what is escaped holds neither `<` nor
  `"`.  So a tag, an attribute value, a comment and a text end where they seem to, and
  the written form of nodes determines them, whatever is written after it.

  * `Legible`: names hold no character that ends them, texts are not empty and not next
    to one another, a comment does not hold its own end, void elements have no children;
  * `allChars_inj`: legible nodes with the same written form are the same nodes;
  * `Outline.alike_of_markup`: outlines of elements, texts and comments with the same
    markup differ in handles and current values only;
  * `Document.outerHtml_determines`: nodes of documents with the same written form have
    the same markup.
-/
import Mathlib.Tactic.Common
import DataBinding.Document.Edit
import DataBinding.Document.Outline

namespace DataBinding

namespace Markup

/-! ## Pieces of written markup -/

/-- The first character of an escape sequence, or of text that needs none, is not one
    that ends a text or a value. -/
theorem escapeChar_eq_cons (c : Char) :
    ∃ first rest, escapeChar c = first :: rest ∧ first ≠ '<' ∧ first ≠ '"' := by
  unfold escapeChar
  split_ifs with _ hless _ hquote
  all_goals exact ⟨_, _, rfl, by first | decide | assumption, by first | decide | assumption⟩

/-- The character that an escape sequence stands for, and what follows. -/
def unescape : List Char → Option (Char × List Char)
  | [] => none
  | '&' :: 'a' :: rest => some ('&', rest.drop 3)
  | '&' :: 'l' :: rest => some ('<', rest.drop 2)
  | '&' :: 'g' :: rest => some ('>', rest.drop 2)
  | '&' :: 'q' :: rest => some ('"', rest.drop 4)
  | '&' :: '#' :: rest => some ('\x27', rest.drop 4)
  | c :: rest => some (c, rest)

theorem unescape_escapeChar (c : Char) (rest : List Char) :
    unescape (escapeChar c ++ rest) = some (c, rest) := by
  unfold escapeChar
  split_ifs with hand hless hgreater hquote hapostrophe
  · rw [hand]; rfl
  · rw [hless]; rfl
  · rw [hgreater]; rfl
  · rw [hquote]; rfl
  · rw [hapostrophe]; rfl
  · rw [List.singleton_append, unescape.eq_def]
    split <;> simp_all

/-- What may follow a text or a value: the end, a tag, or a quote. -/
def Ends (tail : List Char) : Prop :=
  ∀ c ∈ tail.head?, c = '<' ∨ c = '"'

theorem ends_nil : Ends [] := nofun

theorem ends_less (tail : List Char) : Ends ('<' :: tail) := by
  rintro c ⟨⟩
  exact .inl rfl

theorem ends_quote (tail : List Char) : Ends ('"' :: tail) := by
  rintro c ⟨⟩
  exact .inr rfl

theorem not_ends_escapeChar (c : Char) (rest : List Char) : ¬ Ends (escapeChar c ++ rest) := by
  obtain ⟨first, after, heq, hless, hquote⟩ := escapeChar_eq_cons c
  intro h
  rw [heq] at h
  rcases h first rfl with rfl | rfl
  · exact hless rfl
  · exact hquote rfl

/-- Escaped text can be read in one way only. -/
theorem escape_inj {tail tail' : List Char} (ht : Ends tail) (ht' : Ends tail') :
    ∀ {cs cs' : List Char}, escape cs ++ tail = escape cs' ++ tail' → cs = cs' ∧ tail = tail'
  | [], [], h => ⟨rfl, h⟩
  | [], c' :: cs', h => by
    rw [escape, escape, List.flatMap_nil, List.nil_append, List.flatMap_cons,
      List.append_assoc] at h
    exact absurd (h ▸ ht) (not_ends_escapeChar c' _)
  | c :: cs, [], h => by
    rw [escape, escape, List.flatMap_nil, List.nil_append, List.flatMap_cons,
      List.append_assoc] at h
    exact absurd (h ▸ ht') (not_ends_escapeChar c _)
  | c :: cs, c' :: cs', h => by
    rw [escape, escape, List.flatMap_cons, List.flatMap_cons, List.append_assoc,
      List.append_assoc] at h
    have hread := congrArg unescape h
    rw [unescape_escapeChar, unescape_escapeChar] at hread
    obtain ⟨rfl, hrest⟩ := Prod.mk.inj (Option.some.inj hread)
    obtain ⟨rfl, htail⟩ := escape_inj ht ht' hrest
    exact ⟨rfl, htail⟩

/-- Whether a character may stand in a name: it is none that follows a name, and none
    that follows a `<` which begins no element. -/
def isNameChar (c : Char) : Bool :=
  !([' ', '=', '/', '>', '!'].contains c)

/-- Whether a text can be a name. -/
def isName (s : String) : Bool :=
  !s.toList.isEmpty && s.toList.all isNameChar

/-- Names of small letters, digits, hyphens and colons are names. -/
theorem isName_of_lower {s : String} (hs : s ≠ "")
    (h : ∀ c ∈ s.toList, c.isLower ∨ c.isDigit ∨ c = '-' ∨ c = ':') : isName s = true := by
  have hne : s.toList ≠ [] := fun h => hs (String.toList_eq_nil_iff.1 h)
  have hall : s.toList.all isNameChar = true := by
    rw [List.all_eq_true]
    intro c hc
    by_contra hnot
    simp only [isNameChar, Bool.not_eq_true', Bool.not_eq_false, List.contains_iff_mem] at hnot
    have hdelimiters : ∀ c ∈ [' ', '=', '/', '>', '!'],
        ¬ (c.isLower ∨ c.isDigit ∨ c = '-' ∨ c = ':') := by
      simp only [List.forall_mem_cons]
      exact ⟨by decide, by decide, by decide, by decide, by decide, fun _ => nofun⟩
    exact hdelimiters c hnot (h c hc)
  rw [isName, hall, Bool.and_true, Bool.not_eq_true', List.isEmpty_eq_false_iff]
  exact hne

/-- What may follow a name. -/
def EndsName (tail : List Char) : Prop :=
  ∃ c rest, tail = c :: rest ∧ isNameChar c = false

/-- Names can be read in one way only. -/
theorem name_inj {s s' : String} {tail tail' : List Char} (hs : isName s = true)
    (hs' : isName s' = true) (ht : EndsName tail) (ht' : EndsName tail')
    (h : s.toList ++ tail = s'.toList ++ tail') : s = s' ∧ tail = tail' := by
  have hread : ∀ {s : String} {tail : List Char}, isName s = true → EndsName tail →
      (s.toList ++ tail).takeWhile isNameChar = s.toList := by
    rintro s tail hs ⟨c, rest, rfl, hc⟩
    rw [isName, Bool.and_eq_true, List.all_eq_true] at hs
    rw [List.takeWhile_append_of_pos hs.2, List.takeWhile_cons_of_neg (by simp [hc]),
      List.append_nil]
  have hname : s.toList = s'.toList := by
    rw [← hread hs ht, h, hread hs' ht']
  rw [hname] at h
  exact ⟨String.toList_inj.1 hname, List.append_cancel_left h⟩

/-- The first character of a name. -/
theorem exists_of_isName {s : String} (hs : isName s = true) :
    ∃ c rest, s.toList = c :: rest ∧ isNameChar c = true := by
  rw [isName, Bool.and_eq_true, List.all_eq_true] at hs
  cases h : s.toList with
  | nil =>
    rw [h] at hs
    cases hs.1
  | cons c rest => exact ⟨c, rest, rfl, hs.2 c (h ▸ List.mem_cons_self)⟩

/-- What follows the attributes in a start tag. -/
def EndsTag (tail : List Char) : Prop :=
  ∃ rest, tail = '>' :: rest ∨ tail = ' ' :: '/' :: rest

/-- An attribute is not the end of a tag. -/
theorem not_endsTag {attributes : List (String × String)} {name value : String}
    {tail : List Char} (hname : isName name = true) :
    ¬ EndsTag (attributeChars ((name, value) :: attributes) ++ tail) := by
  obtain ⟨c, rest, hc, hchar⟩ := exists_of_isName hname
  rintro ⟨after, h | h⟩
  · simp [attributeChars] at h
  · rw [attributeChars, hc] at h
    obtain rfl : c = '/' := by simpa using (List.cons.inj (List.cons.inj h).2).1
    cases hchar

/-- Attributes can be read in one way only. -/
theorem attributeChars_inj {tail tail' : List Char} (ht : EndsTag tail) (ht' : EndsTag tail') :
    ∀ {as as' : List (String × String)}, (∀ a ∈ as, isName a.1 = true) →
      (∀ a ∈ as', isName a.1 = true) →
      attributeChars as ++ tail = attributeChars as' ++ tail' → as = as' ∧ tail = tail'
  | [], [], _, _, h => ⟨rfl, h⟩
  | [], (name', value') :: as', _, hnames', h => by
    have h : tail = _ := h
    exact absurd (h ▸ ht) (not_endsTag (hnames' _ List.mem_cons_self))
  | (name, value) :: as, [], hnames, _, h => by
    have h : _ = tail' := h
    exact absurd (h ▸ ht') (not_endsTag (hnames _ List.mem_cons_self))
  | (name, value) :: as, (name', value') :: as', hnames, hnames', h => by
    obtain ⟨hname, has⟩ := List.forall_mem_cons.1 hnames
    obtain ⟨hname', has'⟩ := List.forall_mem_cons.1 hnames'
    simp only [attributeChars, List.cons_append, List.append_assoc, List.cons.injEq,
      true_and] at h
    obtain ⟨hsame, h⟩ := name_inj hname hname' ⟨_, _, rfl, rfl⟩ ⟨_, _, rfl, rfl⟩ h
    simp only [List.cons.injEq, true_and] at h
    obtain ⟨hvalue, h⟩ := escape_inj (ends_quote _) (ends_quote _) h
    obtain ⟨rfl, htail⟩ := attributeChars_inj ht ht' has has' (List.cons.inj h).2
    obtain rfl : name = name' := hsame
    obtain rfl : value = value' := String.toList_inj.1 hvalue
    exact ⟨rfl, htail⟩

/-- Comments can be read in one way only. -/
theorem comment_inj {cs cs' tail tail' : List Char} (hcs : ¬ ['-', '-', '>'] <:+: cs)
    (hcs' : ¬ ['-', '-', '>'] <:+: cs')
    (h : cs ++ '-' :: '-' :: '>' :: tail = cs' ++ '-' :: '-' :: '>' :: tail') :
    cs = cs' ∧ tail = tail' := by
  have hlonger : ∀ {cs cs' more tail tail' : List Char}, ¬ ['-', '-', '>'] <:+: cs' →
      cs' = cs ++ more → '-' :: '-' :: '>' :: tail = more ++ '-' :: '-' :: '>' :: tail' →
      more = [] := by
    rintro cs _ more tail tail' hnot rfl h
    rcases more with _ | ⟨c, _ | ⟨c', _ | ⟨c'', rest⟩⟩⟩
    · rfl
    · simp at h
    · simp at h
    · simp only [List.cons_append, List.cons.injEq] at h
      obtain ⟨rfl, rfl, rfl, -⟩ := h
      exact absurd ⟨cs, rest, by simp⟩ hnot
  rcases List.append_eq_append_iff.1 h with ⟨more, hmore, hrest⟩ | ⟨more, hmore, hrest⟩
  · obtain rfl := hlonger hcs' hmore hrest
    exact ⟨by simpa using hmore.symm, by simpa using hrest⟩
  · obtain rfl := hlonger hcs hmore hrest
    exact ⟨by simpa using hmore, by simpa using hrest.symm⟩

/-! ## Nodes -/

/-- Whether a node is a text. -/
def isText : Markup → Bool
  | .text _ => true
  | .comment _ | .element _ _ _ => false

mutual

/-- Markup that can be read again once it is written. -/
def Legible : Markup → Prop
  | .text s => s ≠ ""
  | .comment s => ¬ ['-', '-', '>'] <:+: s.toList
  | .element tag attributes children =>
    isName tag = true ∧ (∀ a ∈ attributes, isName a.1 = true) ∧
      (isVoid tag = true → children = []) ∧ LegibleAll children

/-- Nodes that can be read again: no two texts are next to one another. -/
def LegibleAll : List Markup → Prop
  | [] => True
  | node :: rest =>
    Legible node ∧ (node.isText = true → ∀ next ∈ rest.head?, next.isText = false) ∧
      LegibleAll rest

end

mutual

instance decidableLegible : ∀ node : Markup, Decidable node.Legible
  | .text _ => inferInstanceAs (Decidable (_ ≠ _))
  | .comment _ => inferInstanceAs (Decidable (¬ _))
  | .element _ _ children =>
    have := decidableLegibleAll children
    inferInstanceAs (Decidable (_ ∧ _ ∧ (_ → _) ∧ _))

instance decidableLegibleAll : ∀ nodes : List Markup, Decidable (LegibleAll nodes)
  | [] => .isTrue trivial
  | node :: rest =>
    have := decidableLegible node
    have := decidableLegibleAll rest
    inferInstanceAs (Decidable (_ ∧ (_ → _) ∧ _))

end

/-- What follows the attributes of an element, and what follows the element. -/
def bodyChars (tag : String) (children : List Markup) (tail : List Char) : List Char :=
  if isVoid tag then ' ' :: '/' :: '>' :: tail
  else '>' :: (allChars children ++ '<' :: '/' :: (tag.toList ++ '>' :: tail))

theorem chars_element_append (tag : String) (attributes : List (String × String))
    (children : List Markup) (tail : List Char) :
    chars (.element tag attributes children) ++ tail =
      '<' :: (tag.toList ++ (attributeChars attributes ++ bodyChars tag children tail)) := by
  rw [chars, bodyChars]
  split_ifs <;> simp only [List.cons_append, List.append_assoc, List.nil_append]

theorem endsTag_bodyChars (tag : String) (children : List Markup) (tail : List Char) :
    EndsTag (bodyChars tag children tail) := by
  rw [bodyChars]
  split_ifs
  · exact ⟨_, .inr rfl⟩
  · exact ⟨_, .inl rfl⟩

/-- The name in a start tag is followed by a space or by the end of the tag. -/
theorem endsName_attributeChars (attributes : List (String × String)) {tail : List Char}
    (ht : EndsTag tail) : EndsName (attributeChars attributes ++ tail) := by
  cases attributes with
  | nil =>
    obtain ⟨rest, rfl | rfl⟩ := ht
    · exact ⟨'>', rest, rfl, rfl⟩
    · exact ⟨' ', _, rfl, rfl⟩
  | cons a attributes => exact ⟨' ', _, rfl, rfl⟩

/-- A text begins with a character that does not begin a tag. -/
theorem chars_text {s : String} (h : Legible (.text s)) :
    ∃ c rest, chars (.text s) = c :: rest ∧ c ≠ '<' := by
  cases hs : s.toList with
  | nil => exact absurd (String.toList_eq_nil_iff.1 hs) h
  | cons c cs =>
    obtain ⟨first, after, heq, hless, -⟩ := escapeChar_eq_cons c
    refine ⟨first, after ++ escape cs, ?_, hless⟩
    rw [chars, hs, escape, List.flatMap_cons, heq]
    rfl

/-- Other nodes begin with a tag that closes nothing. -/
theorem chars_of_not_isText {node : Markup} (h : node.Legible) (hnode : node.isText = false)
    (tail : List Char) : ∃ c rest, chars node ++ tail = '<' :: c :: rest ∧ c ≠ '/' := by
  cases node with
  | text s => cases hnode
  | comment s => exact ⟨'!', _, rfl, by decide⟩
  | element tag attributes children =>
    obtain ⟨c, rest, hc, hchar⟩ := exists_of_isName h.1
    rw [chars_element_append, hc]
    refine ⟨c, _, rfl, ?_⟩
    rintro rfl
    cases hchar

/-- What follows the nodes in an element: the end, or the tag that closes it. -/
def Closes (tail : List Char) : Prop :=
  tail = [] ∨ ∃ rest, tail = '<' :: '/' :: rest

theorem Closes.ends {tail : List Char} (h : Closes tail) : Ends tail := by
  rcases h with rfl | ⟨rest, rfl⟩
  · exact ends_nil
  · exact ends_less _

/-- No node is the tag that closes the element that it is in. -/
theorem not_closes_chars {node : Markup} (h : node.Legible) (tail : List Char) :
    ¬ Closes (chars node ++ tail) := by
  cases hnode : node.isText with
  | true =>
    cases node with
    | text s =>
      obtain ⟨c, rest, heq, hc⟩ := chars_text h
      rw [heq]
      rintro (h | ⟨after, h⟩)
      · cases h
      · exact hc (List.cons.inj h).1
    | comment s => cases hnode
    | element tag attributes children => cases hnode
  | false =>
    obtain ⟨c, rest, heq, hc⟩ := chars_of_not_isText h hnode tail
    rw [heq]
    rintro (h | ⟨after, h⟩)
    · cases h
    · exact hc (List.cons.inj (List.cons.inj h).2).1

/-- What follows a text among nodes ends it. -/
theorem ends_allChars {nodes : List Markup} (h : LegibleAll nodes) {tail : List Char}
    (ht : Closes tail) (hnext : ∀ next ∈ nodes.head?, next.isText = false) :
    Ends (allChars nodes ++ tail) := by
  cases nodes with
  | nil => exact ht.ends
  | cons next rest =>
    rw [allChars, List.append_assoc]
    obtain ⟨c, after, heq, -⟩ := chars_of_not_isText h.1 (hnext next rfl) (allChars rest ++ tail)
    rw [heq]
    exact ends_less _

/-- A text is not written as another node is. -/
theorem chars_text_ne {s : String} {node : Markup} {tail tail' : List Char}
    (h : Legible (.text s)) (h' : node.Legible) (hnode : node.isText = false) :
    chars (.text s) ++ tail ≠ chars node ++ tail' := by
  obtain ⟨c, rest, htext, hc⟩ := chars_text h
  obtain ⟨c', rest', hother, -⟩ := chars_of_not_isText h' hnode tail'
  rw [htext, hother]
  exact fun heq => hc (List.cons.inj heq).1

/-- A comment is not written as an element is. -/
theorem chars_comment_ne {s tag : String} {attributes : List (String × String)}
    {children : List Markup} {tail tail' : List Char}
    (h : Legible (.element tag attributes children)) :
    chars (.comment s) ++ tail ≠ chars (.element tag attributes children) ++ tail' := by
  obtain ⟨c, rest, hc, hchar⟩ := exists_of_isName h.1
  rw [chars_element_append, hc]
  intro heq
  obtain rfl : '!' = c := (List.cons.inj (List.cons.inj heq).2).1
  cases hchar

mutual

/-- The written form of a node determines it, and what follows it. -/
theorem chars_inj : ∀ {node node' : Markup} {tail tail' : List Char}, node.Legible →
    node'.Legible → (node.isText = true → Ends tail) → (node'.isText = true → Ends tail') →
    chars node ++ tail = chars node' ++ tail' → node = node' ∧ tail = tail'
  | .text s, .text s', _, _, _, _, ht, ht', heq => by
    obtain ⟨hs, htail⟩ := escape_inj (ht rfl) (ht' rfl) heq
    exact ⟨congrArg _ (String.toList_inj.1 hs), htail⟩
  | .comment s, .comment s', _, _, h, h', _, _, heq => by
    simp only [chars, List.cons_append, List.append_assoc, List.cons.injEq, true_and,
      List.nil_append] at heq
    obtain ⟨hs, htail⟩ := comment_inj h h' heq
    exact ⟨congrArg _ (String.toList_inj.1 hs), htail⟩
  | .element tag attributes children, .element tag' attributes' children', tail, tail',
      ⟨htag, hnames, hvoid, hchildren⟩, ⟨htag', hnames', hvoid', hchildren'⟩, _, _, heq => by
    rw [chars_element_append, chars_element_append] at heq
    have hbody := endsTag_bodyChars tag children tail
    have hbody' := endsTag_bodyChars tag' children' tail'
    obtain ⟨rfl, hafter⟩ := name_inj htag htag' (endsName_attributeChars attributes hbody)
      (endsName_attributeChars attributes' hbody') (List.cons.inj heq).2
    obtain ⟨rfl, hrest⟩ := attributeChars_inj hbody hbody' hnames hnames' hafter
    unfold bodyChars at hrest
    split_ifs at hrest with htagVoid
    · simp only [List.cons.injEq, true_and] at hrest
      rw [hvoid htagVoid, hvoid' htagVoid]
      exact ⟨rfl, hrest⟩
    · obtain ⟨rfl, hclose⟩ := allChars_append_inj hchildren hchildren' (.inr ⟨_, rfl⟩)
        (.inr ⟨_, rfl⟩) (List.cons.inj hrest).2
      simp only [List.cons.injEq, true_and, List.append_cancel_left_eq] at hclose
      exact ⟨rfl, hclose⟩
  | .text _, .comment _, _, _, h, h', _, _, heq
  | .text _, .element _ _ _, _, _, h, h', _, _, heq => absurd heq (chars_text_ne h h' rfl)
  | .comment _, .text _, _, _, h, h', _, _, heq
  | .element _ _ _, .text _, _, _, h, h', _, _, heq => absurd heq.symm (chars_text_ne h' h rfl)
  | .comment _, .element _ _ _, _, _, _, h', _, _, heq => absurd heq (chars_comment_ne h')
  | .element _ _ _, .comment _, _, _, h, _, _, _, heq => absurd heq.symm (chars_comment_ne h)

/-- The written forms of nodes determine them, and what follows them. -/
theorem allChars_append_inj : ∀ {nodes nodes' : List Markup} {tail tail' : List Char},
    LegibleAll nodes → LegibleAll nodes' → Closes tail → Closes tail' →
    allChars nodes ++ tail = allChars nodes' ++ tail' → nodes = nodes' ∧ tail = tail'
  | [], [], _, _, _, _, _, _, heq => ⟨rfl, heq⟩
  | [], node' :: rest', tail, tail', _, h', ht, _, heq => by
    rw [allChars, allChars, List.nil_append, List.append_assoc] at heq
    exact absurd (heq ▸ ht) (not_closes_chars h'.1 _)
  | node :: rest, [], tail, tail', h, _, _, ht', heq => by
    rw [allChars, allChars, List.nil_append, List.append_assoc] at heq
    exact absurd (heq ▸ ht') (not_closes_chars h.1 _)
  | node :: rest, node' :: rest', tail, tail', ⟨hnode, hnext, hrest⟩, ⟨hnode', hnext', hrest'⟩,
      ht, ht', heq => by
    rw [allChars, allChars, List.append_assoc, List.append_assoc] at heq
    obtain ⟨rfl, hafter⟩ := chars_inj hnode hnode'
      (fun htext => ends_allChars hrest ht (hnext htext))
      (fun htext => ends_allChars hrest' ht' (hnext' htext)) heq
    obtain ⟨rfl, htail⟩ := allChars_append_inj hrest hrest' ht ht' hafter
    exact ⟨rfl, htail⟩

end

/-- **Legible nodes are determined** by their written form. -/
theorem allChars_inj {nodes nodes' : List Markup} (h : LegibleAll nodes)
    (h' : LegibleAll nodes') (heq : allChars nodes = allChars nodes') : nodes = nodes' :=
  (allChars_append_inj h h' (.inl rfl) (.inl rfl) (by rw [heq])).1

end Markup

/-! ## Outlines -/

/-- A node without what is not written: the current value of an element. -/
def NodeContent.written : NodeContent → NodeContent
  | .element e => .element { e with value := none }
  | .document => .document
  | .text s => .text s
  | .comment s => .comment s

namespace Outline

mutual

/-- Outlines are the same tree: kinds, tags, attributes, texts, comments and children in
    order, whatever the handles and the current values. -/
def Alike : Outline → Outline → Prop
  | node _ content children, node _ content' children' =>
    content.map NodeContent.written = content'.map NodeContent.written ∧
      AlikeAll children children'

/-- Outlines are the same trees in the same order. -/
def AlikeAll : List Outline → List Outline → Prop
  | [], [] => True
  | o :: os, o' :: os' => Alike o o' ∧ AlikeAll os os'
  | [], _ :: _ | _ :: _, [] => False

end

mutual

/-- An outline consists of elements, texts and comments. -/
def Plain : Outline → Prop
  | node _ content children =>
    match content with
    | some (.element _) => PlainAll children
    | some (.text _) | some (.comment _) => children = []
    | some .document | none => False

/-- Outlines consist of elements, texts and comments. -/
def PlainAll : List Outline → Prop
  | [] => True
  | o :: os => Plain o ∧ PlainAll os

end

/-- Such an outline is one node of markup. -/
theorem Plain.exists_markup : ∀ {o : Outline}, o.Plain → ∃ node, o.markup = [node]
  | node _ (some (.element _)) _, _ => ⟨_, rfl⟩
  | node _ (some (.text _)) _, _ => ⟨_, rfl⟩
  | node _ (some (.comment _)) _, _ => ⟨_, rfl⟩

mutual

/-- Markup tells apart what consists of elements, texts and comments. -/
theorem alike_of_markup : ∀ {o o' : Outline}, o.Plain → o'.Plain → o.markup = o'.markup →
    o.Alike o'
  | node _ (some (.element e)) _, node _ (some (.element e')) _, h, h', heq => by
    obtain ⟨htag, hattributes, hbelow⟩ := Markup.element.inj (List.cons.inj heq).1
    refine ⟨?_, alikeAll_of_markup h h' hbelow⟩
    simp only [Option.map_some, NodeContent.written, htag, hattributes]
  | node _ (some (.text s)) _, node _ (some (.text s')) _, h, h', heq => by
    obtain rfl : _ = [] := h
    obtain rfl : _ = [] := h'
    obtain rfl := Markup.text.inj (List.cons.inj heq).1
    exact ⟨rfl, trivial⟩
  | node _ (some (.comment s)) _, node _ (some (.comment s')) _, h, h', heq => by
    obtain rfl : _ = [] := h
    obtain rfl : _ = [] := h'
    obtain rfl := Markup.comment.inj (List.cons.inj heq).1
    exact ⟨rfl, trivial⟩
  | node _ (some (.element _)) _, node _ (some (.text _)) _, _, _, heq
  | node _ (some (.element _)) _, node _ (some (.comment _)) _, _, _, heq
  | node _ (some (.text _)) _, node _ (some (.element _)) _, _, _, heq
  | node _ (some (.text _)) _, node _ (some (.comment _)) _, _, _, heq
  | node _ (some (.comment _)) _, node _ (some (.element _)) _, _, _, heq
  | node _ (some (.comment _)) _, node _ (some (.text _)) _, _, _, heq => by
    cases (List.cons.inj heq).1

theorem alikeAll_of_markup : ∀ {os os' : List Outline}, PlainAll os → PlainAll os' →
    markupAll os = markupAll os' → AlikeAll os os'
  | [], [], _, _, _ => trivial
  | [], o' :: os', _, h', heq => by
    obtain ⟨m, hm⟩ := h'.1.exists_markup
    rw [markupAll, markupAll, hm] at heq
    cases heq
  | o :: os, [], h, _, heq => by
    obtain ⟨m, hm⟩ := h.1.exists_markup
    rw [markupAll, markupAll, hm] at heq
    cases heq
  | o :: os, o' :: os', h, h', heq => by
    obtain ⟨m, hm⟩ := h.1.exists_markup
    obtain ⟨m', hm'⟩ := h'.1.exists_markup
    rw [markupAll, markupAll, hm, hm'] at heq
    obtain ⟨hfirst, hrest⟩ := List.cons.inj heq
    exact ⟨alike_of_markup h.1 h'.1 (by rw [hm, hm', hfirst]),
      alikeAll_of_markup h.2 h'.2 hrest⟩

end

end Outline

/-! ## Documents -/

namespace Document

variable {L L' : Type} {d : Document L} {d' : Document L'} {n n' : NodeId} {o o' : Outline}

/-- **The written form of a node determines it**: nodes of any two documents that are
    written in the same way have the same markup, and are the same tree where neither
    holds a document node, if their markup is legible. -/
theorem outerHtml_determines (ho : d.outline? n = some o) (ho' : d'.outline? n' = some o')
    (h : Markup.LegibleAll o.markup) (h' : Markup.LegibleAll o'.markup)
    (heq : d.outerHtml? n = d'.outerHtml? n') :
    o.markup = o'.markup ∧ (o.Plain → o'.Plain → o.Alike o') := by
  suffices hmarkup : o.markup = o'.markup from
    ⟨hmarkup, fun hplain hplain' => Outline.alike_of_markup hplain hplain' hmarkup⟩
  have hread : ∀ {L : Type} {d : Document L} {n : NodeId} {o : Outline},
      d.outline? n = some o → d.outerHtml? n =
        if (d.node? n).isSome then .ok (Markup.renderAll o.markup) else .error (.notFound n) := by
    intro L d n o ho
    rw [outerHtml?, markup, ho]
    cases d.node? n <;> rfl
  have hnone : ∀ {L : Type} {d : Document L} {n : NodeId} {o : Outline},
      d.outline? n = some o → ¬ (d.node? n).isSome → o.markup = [] := by
    intro L d n o ho hn
    rw [outline?, outlineWithin?, Option.not_isSome_iff_eq_none.1 hn] at ho
    obtain rfl := Option.some.inj ho
    rfl
  rw [hread ho, hread ho'] at heq
  split_ifs at heq with hn hn'
  · exact Markup.allChars_inj h h' (String.ofList_injective (Except.ok.inj heq))
  · rw [hnone ho hn, hnone ho' ‹_›]

/-- A link with a quote in its title and markup in its text is read as what it is, also
    where it is a part of another document. -/
theorem outerHtml_determines_link :
    let link : Markup := .element "a" [("title", "\"> <b>")] [.text "</a> & so on", .comment "-"]
    let alone : Document Unit := ofForest [link]
    let within : Document Unit := ofForest [.element "ul" [] [.element "li" [] [link]]]
    ∃ o o', alone.outline? ⟨1, 0⟩ = some o ∧ within.outline? ⟨3, 0⟩ = some o' ∧
      o.markup = o'.markup ∧ o.Alike o' := by
  intro link alone within
  have hsame := outerHtml_determines (show alone.outline? ⟨1, 0⟩ = some _ from rfl)
    (show within.outline? ⟨3, 0⟩ = some _ from rfl) (by decide +kernel) (by decide +kernel)
    (by decide +kernel)
  exact ⟨_, _, rfl, rfl, hsame.1, hsame.2 ⟨rfl, rfl, trivial⟩ ⟨rfl, rfl, trivial⟩⟩

/-- A document is written as what is in it, so that the document node is written as its
    only child. -/
theorem outerHtml_of_root :
    let d : Document Unit := parse "<p></p>"
    (d.outerHtml? root = d.outerHtml? ⟨1, 0⟩ ∧ Markup.LegibleAll (d.markup root) ∧
      Markup.LegibleAll (d.markup ⟨1, 0⟩)) ∧ d.kind? root ≠ d.kind? ⟨1, 0⟩ := by
  decide +kernel

end Document

end DataBinding
