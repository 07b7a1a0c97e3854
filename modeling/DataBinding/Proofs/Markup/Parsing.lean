/-
  Written markup is parsed to the nodes that it stands for.

  * `Reads`: a construction takes a text up to some point, and is another one there;
  * `Receives.reads_text`, `Receives.reads_content`: text is put in the innermost element,
    with its references read, and raw text as it is;
  * `Puts`: nodes are put at the end of the innermost element, and nothing else changes;
  * `puts_source`: each piece of written markup puts what it stands for;
  * `Writes.parseFragment_eq`: so whole markup is parsed to what its pieces stand for.
-/
import DataBinding.Proofs.Markup.Building
import DataBinding.Proofs.Markup.Lexing

namespace DataBinding.Markup

namespace Construction

variable {d d' : Draft} {top : Nat} {stack : List Nat}

/-! ## States -/

/-- Ordinary content, in the innermost of these elements. -/
def inside (d : Draft) (stack : List Nat) : Construction :=
  { start with draft := d, stack := stack }

/-- The text of the innermost of these elements. -/
def insideText (d : Draft) (stack : List Nat) (lexing : Lexing) : Construction :=
  { inside d stack with mode := .inText, lexing := lexing }

/-- The names of the elements that content is written in. -/
def contentNames : List ElementName := [⟨.html, "html"⟩, ⟨.html, "div"⟩, ⟨.html, "span"⟩]

/-- Open elements that content is written in. -/
def Ordinary (d : Draft) (stack : List Nat) : Prop :=
  ∀ i ∈ stack, d.name i ∈ contentNames

theorem Ordinary.vocabulary (h : Ordinary d (top :: stack)) :
    (d.name top).vocabulary = .html := by
  have hall : ∀ name ∈ contentNames, name.vocabulary = .html := by decide
  exact hall _ (h top List.mem_cons_self)

theorem takeRounds_of_html {b : Construction} {t : Token} (h : b.currentName.vocabulary = .html)
    (n : Nat) (hdone : (b.byMode t).2 = false) : takeRounds (n + 1) b t = (b.byMode t).1 := by
  have hforeign : b.isForeign t = false := by
    unfold isForeign
    dsimp only
    rw [if_pos h]
  rw [takeRounds, if_neg (by simp [hforeign])]
  dsimp only
  rw [if_neg (by simp [hdone])]

/-- A token among ordinary content. -/
theorem take_inside (h : (d.name top).vocabulary = .html) (t : Token) :
    (inside d (top :: stack)).take t = (inside d (top :: stack)).inBody t :=
  takeRounds_of_html (b := inside d (top :: stack)) h _ rfl

/-! ## Tokens -/

theorem take_char (h : (d.name top).vocabulary = .html) {c : Char} (hc : c.toNat ≠ 0) :
    (inside d (top :: stack)).take (.char c) = inside (d.appendChar top c) (top :: stack) := by
  rw [take_inside h, inBody, if_neg hc]
  rfl

theorem take_null (h : (d.name top).vocabulary = .html) {c : Char} (hc : c.toNat = 0) :
    (inside d (top :: stack)).take (.char c) = inside d (top :: stack) := by
  rw [take_inside h, inBody, if_pos hc]

theorem take_comment (h : (d.name top).vocabulary = .html) (s : String) :
    (inside d (top :: stack)).take (.comment s) =
      inside ((d.add (.comment s)).append top d.size) (top :: stack) := by
  rw [take_inside h, inBody]
  rfl

theorem inScope_eq_false {b : Construction} {bounds : ElementName → Bool} {tag : String}
    (h : ∀ i ∈ b.stack, b.isTag tag i = false) : b.inScope bounds tag = false := by
  unfold inScope inScopeWhere
  split
  next i hi => exact h i (List.mem_of_find?_eq_some hi)
  next => rfl

section

variable {b : Construction} {tag : String} {i : Nat} {outer : List Nat}
  (hstack : b.stack = i :: outer) (h : b.isTag tag i = true)

include hstack h

theorem inScope_of_current (bounds : ElementName → Bool) : b.inScope bounds tag = true := by
  have hfind : b.stack.find? (fun j => b.isTag tag j || bounds (b.draft.name j)) = some i := by
    rw [hstack]
    exact List.find?_cons_of_pos (by rw [h]; rfl)
  rw [inScope, inScopeWhere, hfind]
  exact h

theorem closeGeneric_of_current : b.closeGeneric tag = b.popThrough (· = i) := by
  have hfind : b.stack.find? (fun j => b.isTag tag j ||
      (b.draft.name j).isHtmlIn specialTags) = some i := by
    rw [hstack]
    exact List.find?_cons_of_pos (by rw [h]; rfl)
  rw [closeGeneric, hfind]
  exact if_pos h

end

/-- There is no paragraph to be ended. -/
theorem endParagraph_inside (h : Ordinary d stack) :
    (inside d stack).endParagraph = inside d stack := by
  have hscope : (inside d stack).inScope boundsButtonScope "p" = false := by
    have hall : ∀ name ∈ contentNames, name ≠ ⟨.html, "p"⟩ := by decide
    exact inScope_eq_false fun i hi => decide_eq_false (hall _ (h i hi))
  rw [endParagraph, hscope]
  rfl

theorem take_void (h : (d.name top).vocabulary = .html) (tag : Tag)
    (htag : tag.name ∈ emptyTags) :
    (inside d (top :: stack)).take (.opening tag) =
      inside ((d.add (.element ⟨.html, tag.name⟩ tag.attributes)).append top d.size)
        (top :: stack) := by
  obtain ⟨name, attributes, closed⟩ := tag
  rw [take_inside h]
  simp only [emptyTags, List.mem_cons, List.not_mem_nil, or_false] at htag
  rcases htag with rfl | rfl | rfl <;> rfl

theorem take_opening (h : Ordinary d (top :: stack)) (tag : Tag)
    (htag : tag.name ∈ contentTags) :
    (inside d (top :: stack)).take (.opening tag) =
      inside ((d.add (.element ⟨.html, tag.name⟩ tag.attributes)).append top d.size)
        (d.size :: top :: stack) := by
  obtain ⟨name, attributes, closed⟩ := tag
  rw [take_inside h.vocabulary]
  simp only [contentTags, List.mem_cons, List.not_mem_nil, or_false] at htag
  rcases htag with rfl | rfl
  · change (inside d (top :: stack)).endParagraph.insertTag _ = _
    rw [endParagraph_inside h]
    rfl
  · rfl

/-- How the text of a raw text element is read. -/
def rawLexing (tag : String) : Lexing :=
  if tag = "script" then .script else .raw tag

theorem take_raw (h : (d.name top).vocabulary = .html) (tag : Tag)
    (htag : tag.name ∈ rawTextTags) :
    (inside d (top :: stack)).take (.opening tag) =
      insideText ((d.add (.element ⟨.html, tag.name⟩ tag.attributes)).append top d.size)
        (d.size :: top :: stack) (rawLexing tag.name) := by
  obtain ⟨name, attributes, closed⟩ := tag
  rw [take_inside h]
  simp only [rawTextTags, List.mem_cons, List.not_mem_nil, or_false] at htag
  rcases htag with rfl | rfl <;> rfl

theorem popThrough_top {target : Nat → Bool} (h : target top = true) :
    (inside d (top :: stack)).popThrough target = inside d stack := by
  change inside d (((top :: stack).dropWhile (!target ·)).drop 1) = _
  rw [List.dropWhile_cons_of_neg (by simp [h])]
  rfl

theorem take_closing (stack : List Nat) {name : String} (hname : name ∈ contentTags)
    (h : d.name top = ⟨.html, name⟩) :
    (inside d (top :: stack)).take (.closing name) = inside d stack := by
  have htop : (inside d (top :: stack)).isTag name top = true := decide_eq_true h
  have hin : (inside d (top :: stack)).inScope boundsScope name = true :=
    inScope_of_current rfl htop _
  rw [take_inside (by rw [h])]
  simp only [contentTags, List.mem_cons, List.not_mem_nil, or_false] at hname
  rcases hname with rfl | rfl
  · have himplied :
        (inside d (top :: stack)).closeImplied impliedTags = inside d (top :: stack) := by
      have hdraft : (inside d (top :: stack)).draft.name top = ⟨.html, "div"⟩ := h
      change inside d ((top :: stack).dropWhile _) = _
      rw [List.dropWhile_cons_of_neg (by rw [hdraft]; decide)]
    change (if (inside d (top :: stack)).inScope boundsScope "div" then
      ((inside d (top :: stack)).closeImplied impliedTags).closeInnermost "div" else _) = _
    rw [hin, if_pos rfl, himplied]
    exact popThrough_top htop
  · change (inside d (top :: stack)).closeGeneric _ = _
    rw [closeGeneric_of_current rfl htop]
    exact popThrough_top (decide_eq_true rfl)

theorem take_char_insideText (h : (d.name top).vocabulary = .html) (lexing : Lexing) (c : Char) :
    (insideText d (top :: stack) lexing).take (.char c) =
      insideText (d.appendChar top c) (top :: stack) lexing :=
  takeRounds_of_html (b := insideText d (top :: stack) lexing) h _ rfl

theorem take_closing_insideText (h : (d.name top).vocabulary = .html) (stack : List Nat)
    (lexing : Lexing) (name : String) :
    (insideText d (top :: stack) lexing).take (.closing name) = inside d stack :=
  takeRounds_of_html (b := insideText d (top :: stack) lexing) h _ rfl

/-! ## Reading on -/

/-- A construction takes a text up to some point, however much fuel there is for it. -/
def Reads (b : Construction) (cs : List Char) (b' : Construction) (cs' : List Char) : Prop :=
  ∀ fuel, cs.length < fuel →
    ∃ fuel', cs'.length < fuel' ∧ takeText fuel b cs = takeText fuel' b' cs'

namespace Reads

variable {b b' b'' : Construction} {cs cs' cs'' : List Char}

theorem refl (b : Construction) (cs : List Char) : Reads b cs b cs :=
  fun fuel hfuel => ⟨fuel, hfuel, rfl⟩

theorem trans (h : Reads b cs b' cs') (h' : Reads b' cs' b'' cs'') : Reads b cs b'' cs'' :=
  fun fuel hfuel => by
    obtain ⟨fuel', hfuel', heq⟩ := h fuel hfuel
    obtain ⟨fuel'', hfuel'', heq'⟩ := h' fuel' hfuel'
    exact ⟨fuel'', hfuel'', heq.trans heq'⟩

/-- Tokens at the front of the text. -/
theorem lex {tokens : List Token} (h : ∀ foreign, Token.lex b.lexing foreign cs = (tokens, cs'))
    (hlength : cs'.length < cs.length) : Reads b cs (tokens.foldl take b) cs' :=
  fun fuel hfuel => by
    obtain ⟨fuel, rfl⟩ := Nat.exists_eq_add_one.2 (Nat.zero_lt_of_lt hfuel)
    have hne : cs.isEmpty = false := by
      rw [List.isEmpty_eq_false_iff]
      rintro rfl
      exact Nat.not_lt_zero _ hlength
    refine ⟨fuel, by omega, ?_⟩
    rw [takeText, if_neg (by simp [hne])]
    dsimp only
    rw [h]

/-- One token at the front of the text. -/
theorem token {t : Token} (h : ∀ foreign, Token.lex b.lexing foreign cs = ([t], cs'))
    (hlength : cs'.length < cs.length) (htake : b.take t = b') : Reads b cs b' cs' :=
  htake ▸ lex h hlength

/-- The end of the text. -/
theorem takeText_eq (h : Reads b cs b' []) : takeText (cs.length + 1) b cs = b' := by
  obtain ⟨fuel, hfuel, heq⟩ := h _ (Nat.lt_succ_self _)
  obtain ⟨fuel, rfl⟩ := Nat.exists_eq_add_one.2 hfuel
  rw [heq, takeText]
  rfl

end Reads

theorem length_lt_tag (cs cs' rest : List Char) :
    rest.length < ('<' :: (cs ++ (cs' ++ rest))).length := by
  simp only [List.length_cons, List.length_append]
  omega

/-! ### Text -/

/-- An element that text can be put into. -/
structure Receives (d : Draft) (top : Nat) : Prop where
  lt : top < d.size
  html : (d.name top).vocabulary = .html
  noText : d.NoText top

namespace Receives

variable {done cs rest : List Char} {lexing : Lexing}

theorem html_appendChars (h : Receives d top) (done : List Char) :
    ((d.appendChars top done).name top).vocabulary = .html := by
  rw [(Draft.grafted_appendChars h.lt h.noText done).name_eq h.lt]
  exact h.html

theorem take_char (h : Receives d top) {c : Char} (hc : c.toNat ≠ 0) (done : List Char) :
    (inside (d.appendChars top done) (top :: stack)).take (.char c) =
      inside (d.appendChars top (done ++ [c])) (top :: stack) := by
  rw [Construction.take_char (h.html_appendChars done) hc, Draft.appendChars, Draft.appendChars,
    List.foldl_append]
  rfl

/-- Characters that are put at the end one by one. -/
theorem foldl_take {f : Draft → Construction} : ∀ {cs : List Char} (done : List Char),
    (∀ done, ∀ c ∈ cs, (f (d.appendChars top done)).take (.char c) =
      f (d.appendChars top (done ++ [c]))) →
    (cs.map Token.char).foldl take (f (d.appendChars top done)) =
      f (d.appendChars top (done ++ cs))
  | [], done, _ => by rw [List.append_nil]; rfl
  | c :: cs, done, htake => by
    rw [List.map_cons, List.foldl_cons, htake done c List.mem_cons_self,
      foldl_take _ fun done c hc => htake done c (List.mem_cons_of_mem _ hc), List.append_assoc,
      List.singleton_append]

/-- **Text is read as it is meant.** -/
theorem reads_text (h : Receives d top) (hrest : Ends rest) (hcs : '<' ∉ cs) (done : List Char) :
    Reads (inside (d.appendChars top done) (top :: stack)) (cs ++ rest)
      (inside (d.appendChars top (done ++ decode false cs)) (top :: stack)) rest := by
  -- along what the text stands for: the characters of a reference are taken one by one
  fun_induction decode false cs generalizing done with
  | case1 =>
    rw [List.append_nil]
    exact .refl _ _
  | case2 after found left href ih =>
    obtain ⟨hsuffix, hfound⟩ := reference?_eq_some href
    have hleft : '<' ∉ left := fun hmem => hcs (List.mem_cons_of_mem _ (hsuffix.subset hmem))
    have hlength := hsuffix.length_le
    have hlex : ∀ foreign, Token.lex .data foreign ('&' :: after ++ rest) =
        (found.map .char, left ++ rest) := fun foreign => by
      rw [List.cons_append, Token.lex, if_neg (by decide), if_pos rfl, ampersand,
        reference?_append hrest, href]
      rfl
    refine (Reads.lex hlex ?_).trans ?_
    · simp only [List.length_append, List.length_cons]
      omega
    · rw [foldl_take (f := fun d => inside d (top :: stack)) done
        fun done c hc => h.take_char (hfound c hc) done, ← List.append_assoc]
      exact ih hleft _
  | case3 after href ih =>
    have hlex : ∀ foreign, Token.lex .data foreign ('&' :: after ++ rest) =
        ([.char '&'], after ++ rest) := fun foreign => by
      rw [List.cons_append, Token.lex, if_neg (by decide), if_pos rfl, ampersand,
        reference?_append hrest, href]
      rfl
    refine (Reads.token hlex (Nat.lt_succ_self _) (h.take_char (by decide) done)).trans ?_
    have hmore := ih (List.not_mem_of_not_mem_cons hcs) (done ++ ['&'])
    rwa [List.append_assoc, List.singleton_append] at hmore
  | case4 c after hc ih =>
    have hless : c ≠ '<' := fun heq => hcs (heq ▸ List.mem_cons_self)
    have hmore := ih (List.not_mem_of_not_mem_cons hcs) (done ++ literalChar false c)
    rw [List.append_assoc] at hmore
    refine (Reads.token (fun foreign => lex_char hless hc foreign _) (Nat.lt_succ_self _) ?_).trans
      hmore
    by_cases hnull : c.toNat = 0
    · rw [literalChar, if_neg Bool.false_ne_true, if_pos hnull, List.append_nil]
      exact take_null (h.html_appendChars done) hnull
    · rw [literalChar_of_ne_null hnull]
      exact h.take_char hnull done

theorem take_char_raw (h : Receives d top) (c : Char) (done : List Char) :
    (insideText (d.appendChars top done) (top :: stack) lexing).take (.char c) =
      insideText (d.appendChars top (done ++ [c])) (top :: stack) lexing := by
  rw [take_char_insideText (h.html_appendChars done), Draft.appendChars, Draft.appendChars,
    List.foldl_append]
  rfl

theorem reads_raw (h : Receives d top) {name : String} (hname : '<' ∉ name.toList) :
    ∀ {cs : List Char} (done : List Char), soundRaw name.toList cs = true →
    Reads (insideText (d.appendChars top done) (top :: stack) (.raw name)) (cs ++ '<' :: rest)
      (insideText (d.appendChars top (done ++ cs.map withoutNull)) (top :: stack) (.raw name))
      ('<' :: rest)
  | [], done, _ => by
    rw [List.map_nil, List.append_nil]
    exact .refl _ _
  | c :: cs, done, hcs => by
    rw [soundRaw, Bool.and_eq_true, Bool.not_eq_true'] at hcs
    have hmore := reads_raw h hname (done ++ [withoutNull c]) hcs.2
    rw [List.append_assoc, List.singleton_append] at hmore
    have hlex : ∀ foreign, Token.lex (.raw name) foreign (c :: (cs ++ '<' :: rest)) =
        ([.char (withoutNull c)], cs ++ '<' :: rest) := fun _ => rawChar_append hname hcs.1 rest
    exact (Reads.token hlex (Nat.lt_succ_self _) (h.take_char_raw _ done)).trans hmore

theorem reads_script (h : Receives d top) (hcs : soundScript .bare cs = true)
    (hrest : isScriptName rest = true) :
    Reads (insideText d (top :: stack) .script) (cs ++ '<' :: '/' :: rest)
      (insideText (d.appendChars top (cs.map withoutNull)) (top :: stack) .script)
      ('<' :: '/' :: rest) := by
  cases cs with
  | nil => exact .refl _ _
  | cons c cs =>
    have hfold : (((c :: cs).map withoutNull).map Token.char).foldl take
        (insideText d (top :: stack) .script) = insideText (d.appendChars top _) _ _ :=
      foldl_take (f := fun d => insideText d (top :: stack) .script) []
        fun done c _ => h.take_char_raw c done
    rw [List.nil_append] at hfold
    refine hfold ▸ Reads.lex (lex_script hcs hrest) ?_
    simp only [List.length_append, List.length_cons]
    omega

/-- **Raw text is read as it is written**, up to the end tag of its element. -/
theorem reads_content (h : Receives d top) (stack : List Nat) (rest : List Char) {tag : String}
    (htag : tag ∈ rawTextTags)
    (hcs : soundContent tag cs = true) {finish : WrittenTag} (hfinish : finish.Sound [tag]) :
    Reads (insideText d (top :: stack) (rawLexing tag))
      (cs ++ '<' :: '/' :: (finish.chars ++ (tagEnd false ++ rest)))
      (inside (d.appendChars top (cs.map withoutNull)) stack) rest := by
  have hend := take_closing_insideText (h.html_appendChars (cs.map withoutNull)) stack
    (rawLexing tag) finish.tag
  have hname : finish.tag = tag := List.mem_singleton.1 hfinish.name
  have hlength := Nat.lt_succ_of_lt (length_lt_tag finish.chars (tagEnd false) rest)
  simp only [rawTextTags, List.mem_cons, List.not_mem_nil, or_false] at htag
  rcases htag with rfl | rfl
  · have hlex := fun foreign => WrittenTag.lex_closing_raw hfinish (hname ▸ rfl) foreign rest
    rw [hname] at hlex hend
    exact (h.reads_raw (by decide) [] hcs).trans (.token hlex hlength hend)
  · have hscript := WrittenTag.isScriptName_chars hfinish hname rest
    have hlex := fun foreign => WrittenTag.lex_closing_script hfinish hname foreign rest
    exact (h.reads_script hcs hscript).trans (.token hlex hlength hend)

end Receives

/-! ### Trees -/

namespace Ordinary

theorem lt (h : Ordinary d stack) {i : Nat} (hi : i ∈ stack) : i < d.size := by
  by_contra hnot
  have hname := h i hi
  rw [Draft.name, Array.getElem?_eq_none (Nat.le_of_not_lt hnot)] at hname
  exact absurd hname (by decide)

theorem grafted (h : Ordinary d stack) {ms : List Markup} (hg : Draft.Grafted d d' top ms) :
    Ordinary d' stack := fun i hi => by
  rw [hg.name_eq (h.lt hi)]
  exact h i hi

theorem receives (h : Ordinary d (top :: stack)) (hd : d.NoText top) : Receives d top :=
  ⟨h.lt List.mem_cons_self, h.vocabulary, hd⟩

end Ordinary

/-- An element with content is opened. -/
theorem Ordinary.placed (h : Ordinary d (top :: stack)) {tag : String}
    (htag : tag ∈ contentTags) {attributes : List (String × String)}
    (hp : Draft.Placed d d' top (.element ⟨.html, tag⟩ attributes)) :
    Ordinary d' (d.size :: top :: stack) := by
  have hne : tag ≠ "template" := by
    rintro rfl
    exact absurd htag (by decide)
  have hg := hp.element hne (h.lt List.mem_cons_self) (.refl d' d.size)
  refine List.forall_mem_cons.2 ⟨?_, h.grafted hg⟩
  have hall : ∀ tag ∈ contentTags, (⟨.html, tag⟩ : ElementName) ∈ contentNames := by decide
  rw [hp.name_new]
  exact hall tag htag

/-- A text is read up to some point, and nodes are put at the end of the innermost
    element. -/
def Puts (d : Draft) (top : Nat) (stack : List Nat) (cs rest : List Char) (ms : List Markup) :
    Prop :=
  ∃ d', Reads (inside d (top :: stack)) cs (inside d' (top :: stack)) rest ∧
    Draft.Grafted d d' top ms

section

variable {start finish : WrittenTag} {tags : List String} {b : Construction}

theorem reads_opening (h : start.Sound tags) (hword : isWord start.tag = true) {closed : Bool}
    (htake : (inside d stack).take (.opening ⟨start.tag, start.entries, closed⟩) = b)
    (rest : List Char) :
    Reads (inside d stack) ('<' :: (start.chars ++ (tagEnd closed ++ rest))) b rest :=
  .token (fun foreign => WrittenTag.lex_opening h hword closed foreign rest)
    (length_lt_tag _ _ rest) htake

theorem reads_closing (h : finish.Sound tags) (hword : isWord finish.tag = true)
    (htake : (inside d stack).take (.closing finish.tag) = b) (rest : List Char) :
    Reads (inside d stack) ('<' :: '/' :: (finish.chars ++ (tagEnd false ++ rest))) b rest :=
  .token (fun foreign => WrittenTag.lex_closing h hword foreign rest)
    (Nat.lt_succ_of_lt (length_lt_tag _ _ rest)) htake

theorem puts_comment (h : Ordinary d (top :: stack)) {cs : List Char} (hcs : SoundComment cs)
    (rest : List Char) :
    Puts d top stack ((Source.comment cs).chars ++ rest) rest (Source.comment cs).forest := by
  have hp := Draft.placed_append_add (h.lt List.mem_cons_self)
    (.comment (String.ofList (cs.map withoutNull)))
  rw [Source.chars_comment_append]
  refine ⟨_, .token (fun foreign => lex_comment hcs foreign rest) ?_ (take_comment h.vocabulary _),
    hp.comment⟩
  simp only [List.length_cons, List.length_append]
  omega

theorem puts_void (h : Ordinary d (top :: stack)) (hstart : start.Sound emptyTags) (closed : Bool)
    (rest : List Char) :
    Puts d top stack ((Source.void start closed).chars ++ rest) rest
      (Source.void start closed).forest := by
  have hlt := h.lt List.mem_cons_self
  have hp := Draft.placed_append_add hlt (.element ⟨.html, start.tag⟩ start.entries)
  have hall : ∀ tag ∈ emptyTags, isWord tag = true ∧ tag ≠ "template" := by decide
  obtain ⟨hword, hne⟩ := hall _ hstart.name
  rw [Source.chars_void_append]
  exact ⟨_, reads_opening hstart hword (take_void h.vocabulary _ hstart.name) rest,
    hp.element hne hlt (.refl _ _)⟩

theorem puts_raw (h : Ordinary d (top :: stack)) {content : List Char}
    (hstart : start.Sound rawTextTags) (hcontent : soundContent start.tag content = true)
    (hfinish : finish.Sound [start.tag]) (rest : List Char) :
    Puts d top stack ((Source.raw start content finish).chars ++ rest) rest
      (Source.raw start content finish).forest := by
  have hlt := h.lt List.mem_cons_self
  have hp := Draft.placed_append_add hlt (.element ⟨.html, start.tag⟩ start.entries)
  have hall : ∀ tag ∈ rawTextTags, isWord tag = true ∧ tag ≠ "template" := by decide
  obtain ⟨hword, hne⟩ := hall _ hstart.name
  have hr : Receives _ d.size :=
    ⟨hp.size ▸ Nat.lt_succ_self _, congrArg ElementName.vocabulary hp.name_new, hp.noText⟩
  have htake : (inside d (top :: stack)).take (.opening ⟨start.tag, start.entries, false⟩) = _ :=
    take_raw h.vocabulary _ hstart.name
  have hopen := reads_opening hstart hword htake
  have htext := hr.reads_content (top :: stack) rest hstart.name hcontent hfinish
  rw [Source.chars_raw_append]
  exact ⟨_, (hopen _).trans htext,
    hp.element hne hlt (Draft.grafted_appendChars hr.lt hr.noText _)⟩

end

mutual

/-- A piece of written markup is put at the end of the innermost element. -/
theorem puts_source : ∀ {s : Source} {d : Draft} {top : Nat} {stack : List Nat}
    {rest : List Char}, s.Sound → Ordinary d (top :: stack) →
    (s.isText = true → d.NoText top ∧ Ends rest) →
    Puts d top stack (s.chars ++ rest) rest s.forest
  | .text cs, d, top, stack, rest, h, hd, hends => by
    obtain ⟨hnotext, hrest⟩ := hends rfl
    have hr := hd.receives hnotext
    exact ⟨_, hr.reads_text hrest h [], Draft.grafted_appendChars hr.lt hnotext _⟩
  | .comment cs, _, _, _, rest, h, hd, _ => puts_comment hd h rest
  | .void start closed, _, _, _, rest, h, hd, _ => puts_void hd h closed rest
  | .raw start content finish, _, _, _, rest, ⟨hstart, hcontent, hfinish⟩, hd, _ =>
    puts_raw hd hstart hcontent hfinish rest
  | .element start children finish, d, top, stack, rest, ⟨hstart, hchildren, hfinish⟩, hd, _ => by
    have hlt := hd.lt List.mem_cons_self
    have hp := Draft.placed_append_add hlt (.element ⟨.html, start.tag⟩ start.entries)
    have hall : ∀ tag ∈ contentTags, isWord tag = true ∧ tag ≠ "template" := by decide
    obtain ⟨hword, hne⟩ := hall _ hstart.name
    have hinner := hd.placed hstart.name hp
    -- the start tag opens an element, its content is put in it, the end tag closes it
    have hopen := reads_opening hstart hword
      (take_opening hd ⟨_, start.entries, false⟩ hstart.name)
    obtain ⟨d', hreads, hg⟩ := puts_sources hchildren hinner (fun _ _ _ => hp.noText) (ends_less _)
    have hname : d'.name d.size = ⟨.html, start.tag⟩ :=
      (hg.name_eq (hinner.lt List.mem_cons_self)).trans hp.name_new
    have hfinish' : finish.tag = start.tag := List.mem_singleton.1 hfinish.name
    have hclose := reads_closing hfinish (hfinish' ▸ hword)
      (hfinish'.symm ▸ take_closing (top :: stack) hstart.name hname)
    rw [Source.chars_element_append]
    exact ⟨d', ((hopen _).trans hreads).trans (hclose rest), hp.element hne hlt hg⟩

/-- Pieces of written markup are put at the end of the innermost element, in order. -/
theorem puts_sources : ∀ {sources : List Source} {d : Draft} {top : Nat} {stack : List Nat}
    {rest : List Char}, Source.SoundAll sources → Ordinary d (top :: stack) →
    (∀ s ∈ sources.head?, s.isText = true → d.NoText top) → Ends rest →
    Puts d top stack (Source.allChars sources ++ rest) rest (Source.forestAll sources)
  | [], d, top, stack, rest, _, _, _, _ => ⟨d, .refl _ _, .refl d top⟩
  | s :: sources, d, top, stack, rest, ⟨h, hnext, hsources⟩, hd, hnotext, hrest => by
    have hlt := hd.lt List.mem_cons_self
    obtain ⟨d', hreads, hg⟩ := puts_source h hd fun htext =>
      ⟨hnotext s rfl htext, Source.ends_allChars (hnext htext) hrest⟩
    -- two texts do not stand side by side, and any other piece leaves no text at the end
    have hnotext' : ∀ next ∈ sources.head?, next.isText = true → d'.NoText top := by
      intro next hmem htext
      cases hs : s.isText with
      | true => exact absurd (hnext hs next hmem) (by simp [htext])
      | false =>
        obtain ⟨m, hm, hmtext⟩ := Source.forest_of_not_isText hs
        exact (hm ▸ hg).noText hlt hmtext
    obtain ⟨d'', hreads', hg'⟩ := puts_sources hsources (hd.grafted hg) hnotext' hrest
    rw [Source.allChars, List.append_assoc]
    exact ⟨d'', hreads.trans hreads', hg.trans hlt hg'⟩

end

end Construction

/-! ## Markup -/

/-- A text without the mark that may stand at its front. -/
def withoutMark : List Char → List Char
  | c :: rest => if c.toNat = 0xFEFF then rest else c :: rest
  | [] => []

/-- A text is written markup: the mark at its front does not count, nor how its lines
    end. -/
def Writes (sources : List Source) (m : String) : Prop :=
  Source.SoundAll sources ∧ normalizeNewlines (withoutMark m.toList) = Source.allChars sources

instance (sources : List Source) (m : String) : Decidable (Writes sources m) :=
  inferInstanceAs (Decidable (_ ∧ _))

/-- **Written markup is parsed to the nodes that it stands for.** -/
theorem Writes.parseFragment_eq {sources : List Source} {m : String} (h : Writes sources m) :
    parseFragment m = Source.forestAll sources := by
  obtain ⟨hsound, hm⟩ := h
  have hroot : Construction.Ordinary Construction.start.draft [0] := by
    rintro i hi
    obtain rfl := List.mem_singleton.1 hi
    decide
  obtain ⟨d, hreads, hg⟩ := Construction.puts_sources hsound hroot
    (fun _ _ _ last hlast => by cases hlast) ends_nil
  rw [List.append_nil] at hreads
  -- the end of the text changes nothing
  have htake : (Construction.inside d [0]).take .finish = Construction.inside d [0] :=
    Construction.take_inside (hroot.grafted hg).vocabulary .finish
  have hparse : parseFragment m =
      ((Construction.start.takeText ((Source.allChars sources).length + 1)
        (Source.allChars sources)).take .finish).draft.forest 0 := by
    rw [← hm]
    rfl
  rw [hparse, show Construction.start = Construction.inside Construction.start.draft [0] from rfl,
    hreads.takeText_eq, htake]
  exact hg.forest_eq rfl (hroot.lt List.mem_cons_self)

end DataBinding.Markup
