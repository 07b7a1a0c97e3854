/-
  The tokens of written markup.

  Each piece of a `Source` is read as one token, or one for each character, and what
  follows it is left.

  * `attributeValue_quoted` and `WrittenTag.tag?_chars`: values and tags;
  * `commentText_append`: comments;
  * `rawChar_append` and `scriptRest_append`: the text of raw text elements;
  * `WrittenTag.lex_opening`, `WrittenTag.lex_closing`, `lex_comment`, `lex_script`: the
    tokens.
-/
import DataBinding.Proofs.Markup.Source

namespace DataBinding.Markup

variable {cs rest : List Char}

/-! ## Attribute values -/

/-- A value in double quotes is read up to the next one. -/
theorem attributeValue_quoted (hcs : '"' ∉ cs) (rest : List Char) :
    ∀ (fuel : Nat) (done : List Char), cs.length < fuel →
      attributeValue (· = '"') fuel done (cs ++ '"' :: rest) =
        some (done.reverse ++ decode true cs, '"' :: rest) := by
  -- along what the value stands for, where a reference is one step
  fun_induction decode true cs with
  | case1 =>
    intro fuel done hfuel
    obtain ⟨fuel, rfl⟩ := Nat.exists_eq_add_one.2 hfuel
    rw [List.nil_append, List.append_nil, attributeValue]
    rfl
  | case2 after found left href ih =>
    intro fuel done hfuel
    obtain ⟨fuel, rfl⟩ := Nat.exists_eq_add_one.2 (Nat.zero_lt_of_lt hfuel)
    have hsuffix := (reference?_eq_some href).1
    have hleft : '"' ∉ left := fun hmem => hcs (List.mem_cons_of_mem _ (hsuffix.subset hmem))
    have hlength := hsuffix.length_le
    rw [List.length_cons] at hfuel
    rw [List.cons_append, attributeValue, if_neg (by decide), if_pos rfl,
      reference?_append (ends_quote rest), href]
    exact (ih hleft fuel _ (by omega)).trans (by simp)
  | case3 after href ih =>
    intro fuel done hfuel
    obtain ⟨fuel, rfl⟩ := Nat.exists_eq_add_one.2 (Nat.zero_lt_of_lt hfuel)
    rw [List.length_cons] at hfuel
    rw [List.cons_append, attributeValue, if_neg (by decide), if_pos rfl,
      reference?_append (ends_quote rest), href]
    exact (ih (List.not_mem_of_not_mem_cons hcs) fuel _ (by omega)).trans (by simp)
  | case4 c after hc ih =>
    intro fuel done hfuel
    obtain ⟨fuel, rfl⟩ := Nat.exists_eq_add_one.2 (Nat.zero_lt_of_lt hfuel)
    rw [List.length_cons] at hfuel
    have hquote : c ≠ '"' := fun heq => hcs (heq ▸ List.mem_cons_self)
    rw [List.cons_append, attributeValue, if_neg (by simpa using hquote), if_neg hc]
    exact (ih (List.not_mem_of_not_mem_cons hcs) fuel _ (by omega)).trans (by simp [literalChar])

/-! ## Tags -/

theorem endsName_of_blank {c : Char} (hc : isTagBlank c = true) : endsName c = true := by
  rw [endsName, hc]
  rfl

section

variable {p : Char → Bool} {c : Char}

theorem takeWhile_append_cons (hcs : ∀ c ∈ cs, p c = true) (hc : p c = false) (rest : List Char) :
    (cs ++ c :: rest).takeWhile p = cs := by
  rw [List.takeWhile_append_of_pos hcs, List.takeWhile_cons_of_neg (by simp [hc]),
    List.append_nil]

theorem dropWhile_append_cons (hcs : ∀ c ∈ cs, p c = true) (hc : p c = false) (rest : List Char) :
    (cs ++ c :: rest).dropWhile p = c :: rest := by
  rw [List.dropWhile_append_of_pos hcs, List.dropWhile_cons_of_neg (by simp [hc])]

end

/-- A text is read in a tag up to some point, however much fuel there is for it. -/
def TagReads (as : List (String × String)) (cs : List Char) (as' : List (String × String))
    (cs' : List Char) : Prop :=
  ∀ fuel, cs.length < fuel →
    ∃ fuel', cs'.length < fuel' ∧ tagRest fuel as cs = tagRest fuel' as' cs'

namespace TagReads

variable {as as' as'' : List (String × String)} {cs' cs'' : List Char}

theorem refl (as : List (String × String)) (cs : List Char) : TagReads as cs as cs :=
  fun fuel hfuel => ⟨fuel, hfuel, rfl⟩

theorem trans (h : TagReads as cs as' cs') (h' : TagReads as' cs' as'' cs'') :
    TagReads as cs as'' cs'' := fun fuel hfuel => by
  obtain ⟨fuel', hfuel', heq⟩ := h fuel hfuel
  obtain ⟨fuel'', hfuel'', heq'⟩ := h' fuel' hfuel'
  exact ⟨fuel'', hfuel'', heq.trans heq'⟩

/-- One round. -/
theorem step (hlength : cs'.length < cs.length)
    (h : ∀ fuel, tagRest (fuel + 1) as cs = tagRest fuel as' cs') : TagReads as cs as' cs' :=
  fun fuel hfuel => by
    obtain ⟨fuel, rfl⟩ := Nat.exists_eq_add_one.2 (Nat.zero_lt_of_lt hfuel)
    exact ⟨fuel, by omega, h fuel⟩

theorem blank {c : Char} (hc : isTagBlank c = true) (as : List (String × String))
    (cs : List Char) : TagReads as (c :: cs) as cs := by
  refine step (Nat.lt_succ_self _) fun fuel => ?_
  rw [tagRest, if_pos (endsName_of_blank hc)]
  · rintro rfl
    cases hc
  · rintro _ rfl
    cases hc

theorem blanks (as : List (String × String)) : ∀ {gap : List Char},
    (∀ c ∈ gap, isTagBlank c = true) → TagReads as (gap ++ cs) as cs
  | [], _ => refl as cs
  | _ :: gap, h =>
    have h := List.forall_mem_cons.1 h
    (blank h.1 as (gap ++ cs)).trans (blanks as h.2)

end TagReads

/-- The value of an attribute is what stands in its quotes. -/
theorem afterAttributeName_quoted {a : WrittenAttribute} (h : a.Sound) (rest : List Char) :
    afterAttributeName (a.before ++ '=' :: (a.after ++ '"' :: (a.value ++ '"' :: rest))) =
      some (decode true a.value, rest) := by
  have hlength : a.value.length < (a.value ++ '"' :: rest).length + 1 := by
    rw [List.length_append]
    omega
  have hvalue := attributeValue_quoted h.value rest _ [] hlength
  have hequals := dropWhile_append_cons h.before (rfl : isTagBlank '=' = false)
  have hquote := dropWhile_append_cons h.after (rfl : isTagBlank '"' = false)
  simp only [afterAttributeName, hequals, hquote, hvalue]
  rfl

/-- An attribute is read as it is meant. -/
theorem TagReads.of_sound {a : WrittenAttribute} (h : a.Sound) (as : List (String × String))
    (cs : List Char) : TagReads as (a.chars ++ cs) (addAttribute as a.entry) cs := by
  obtain ⟨c, name, hname⟩ := List.exists_cons_of_ne_nil h.name.1
  have hchars := h.name.2
  rw [hname, List.forall_mem_cons] at hchars
  obtain ⟨hc, hchars⟩ := hchars
  have hends : endsName c = false := by
    simp only [WrittenAttribute.isNameChar, Bool.not_eq_true', Bool.or_eq_false_iff] at hc
    exact hc.1
  -- the name ends before what follows it
  obtain ⟨next, after, hnext, hstop⟩ : ∃ next after,
      a.before ++ '=' :: (a.after ++ '"' :: (a.value ++ '"' :: cs)) = next :: after ∧
        WrittenAttribute.isNameChar next = false := by
    cases hbefore : a.before with
    | nil => exact ⟨_, _, rfl, rfl⟩
    | cons next before =>
      have hblank := h.before next (hbefore ▸ List.mem_cons_self)
      exact ⟨next, _, rfl, by rw [WrittenAttribute.isNameChar, endsName_of_blank hblank]; rfl⟩
  have hprinted : a.chars ++ cs =
      a.gap ++ c :: (name ++ next :: after) := by
    rw [← hnext, WrittenAttribute.chars, hname]
    simp only [List.append_assoc, List.cons_append, List.nil_append]
  rw [hprinted]
  have hlength := congrArg List.length hnext
  simp only [List.length_append, List.length_cons] at hlength
  have htake := takeWhile_append_cons hchars hstop after
  have hdrop := dropWhile_append_cons hchars hstop after
  refine (blanks as h.gap.2).trans (step ?_ fun fuel => ?_)
  · simp only [List.length_append, List.length_cons]
    omega
  · have hread := afterAttributeName_quoted h cs
    rw [hnext, ← hdrop] at hread
    rw [tagRest, if_neg (by simp [hends])]
    · have hread' : afterAttributeName ((name ++ next :: after).dropWhile
          fun c => !(endsName c || decide (c = '='))) = some (decode true a.value, cs) := hread
      dsimp only
      rw [hread']
      change tagRest fuel (addAttribute as (String.ofList ((c ::
        (name ++ next :: after).takeWhile WrittenAttribute.isNameChar).map nameChar), _)) cs = _
      rw [htake, ← hname]
      rfl
    · rintro rfl
      cases hends
    · rintro _ rfl
      cases hends

/-- Attributes are read as they are meant. -/
theorem TagReads.of_forall_sound {attributes : List WrittenAttribute}
    (h : ∀ a ∈ attributes, a.Sound) (as : List (String × String)) (cs : List Char) :
    TagReads as (attributes.flatMap WrittenAttribute.chars ++ cs)
      ((attributes.map WrittenAttribute.entry).foldl addAttribute as) cs := by
  induction attributes generalizing as with
  | nil => exact refl as cs
  | cons a attributes ih =>
    obtain ⟨ha, hrest⟩ := List.forall_mem_cons.1 h
    rw [List.flatMap_cons, List.append_assoc]
    exact (of_sound ha as _).trans (ih hrest _)

/-! ### Names -/

theorem le_toNat_of_isAlpha {c : Char} (h : c.isAlpha = true) : 65 ≤ c.toNat := by
  have hcase : c.isUpper = true ∨ c.isLower = true := Bool.or_eq_true_iff.1 h
  rcases hcase with hupper | hlower
  · exact (of_decide_eq_true hupper).1
  · exact Nat.le_trans (by decide) (of_decide_eq_true (Bool.and_eq_true_iff.1 hlower).1)

theorem not_endsName_of_isAlpha {c : Char} (h : c.isAlpha = true) : endsName c = false := by
  have hle := le_toNat_of_isAlpha h
  rw [← Bool.not_eq_true, endsName, isTagBlank]
  simp only [Bool.or_eq_true, decide_eq_true_eq]
  rintro (((((rfl | rfl) | hc) | rfl) | rfl) | rfl)
  all_goals first | omega | cases h

theorem isAlpha_of_isLower_nameChar {c : Char} (h : (nameChar c).isLower = true) :
    c.isAlpha = true := by
  unfold nameChar withoutNull at h
  split at h
  · cases h
  · unfold Text.lowerChar at h
    split at h
    next hc =>
      have hupper : c.isUpper = true := decide_eq_true hc
      exact Bool.or_eq_true_iff.2 (.inl hupper)
    next => exact Bool.or_eq_true_iff.2 (.inr h)

/-- Whether a tag is a word of small letters. -/
def isWord (tag : String) : Bool :=
  !tag.toList.isEmpty && tag.toList.all Char.isLower

namespace WrittenTag

variable {t : WrittenTag} {tags : List String}

theorem toList_tag (t : WrittenTag) : t.tag.toList = t.name.map nameChar := String.toList_ofList

theorem isAlpha_of_isWord (h : isWord t.tag = true) : ∀ c ∈ t.name, c.isAlpha = true := by
  rw [isWord, Bool.and_eq_true, List.all_eq_true, toList_tag] at h
  exact fun c hc => isAlpha_of_isLower_nameChar (h.2 _ (List.mem_map_of_mem hc))

theorem name_ne_nil (h : isWord t.tag = true) : t.name ≠ [] := by
  rintro hnil
  rw [isWord, toList_tag, hnil] at h
  cases h

/-- What follows the name in a tag begins with a character that ends it. -/
theorem exists_endsName (h : t.Sound tags) (closed : Bool) (rest : List Char) : ∃ c after,
    t.attributes.flatMap WrittenAttribute.chars ++ (t.gap ++ (tagEnd closed ++ rest)) = c :: after ∧
      endsName c = true := by
  cases hattributes : t.attributes with
  | cons a attributes =>
    have ha := h.attributes a (hattributes ▸ List.mem_cons_self)
    obtain ⟨c, gap, hgap⟩ := List.exists_cons_of_ne_nil ha.gap.1
    have hc := endsName_of_blank (ha.gap.2 c (hgap ▸ List.mem_cons_self))
    rw [List.flatMap_cons, WrittenAttribute.chars, hgap]
    exact ⟨c, _, rfl, hc⟩
  | nil =>
    cases hgap : t.gap with
    | cons c gap => exact ⟨c, _, rfl, endsName_of_blank (h.gap c (hgap ▸ List.mem_cons_self))⟩
    | nil => cases closed <;> exact ⟨_, _, rfl, rfl⟩

/-- **A tag is read as it is meant.** -/
theorem tag?_chars (h : t.Sound tags) (hword : isWord t.tag = true) (closed : Bool)
    (rest : List Char) :
    tag? (t.chars ++ (tagEnd closed ++ rest)) = some (⟨t.tag, t.entries, closed⟩, rest) := by
  obtain ⟨c, after, hafter, hends⟩ := exists_endsName h closed rest
  have hname : ∀ c ∈ t.name, (!endsName c) = true := fun c hc => by
    rw [not_endsName_of_isAlpha (isAlpha_of_isWord hword c hc)]
    rfl
  have hstop : (!endsName c) = false := by rw [hends]; rfl
  have htake : (t.name ++ c :: after).takeWhile (!endsName ·) = t.name :=
    takeWhile_append_cons hname hstop after
  have hdrop : (t.name ++ c :: after).dropWhile (!endsName ·) = c :: after :=
    dropWhile_append_cons hname hstop after
  have hreads := (TagReads.of_forall_sound h.attributes [] (t.gap ++ (tagEnd closed ++ rest))).trans
    (TagReads.blanks t.entries h.gap)
  rw [hafter] at hreads
  obtain ⟨fuel, hfuel, heq⟩ := hreads ((t.name ++ c :: after).length + 1) (by
    simp only [List.length_append]
    omega)
  obtain ⟨fuel, rfl⟩ := Nat.exists_eq_add_one.2 (Nat.zero_lt_of_lt hfuel)
  rw [chars, List.append_assoc, List.append_assoc, hafter, tag?, htake, hdrop, heq]
  cases closed <;> rfl

end WrittenTag

/-! ## Comments -/

/-- The end of a comment does not begin in its text. -/
theorem commentRest_append (h : ¬ ['-', '-', '>'] <:+: cs) (h' : ¬ ['-', '-', '!', '>'] <:+: cs)
    (rest : List Char) :
    commentRest (cs ++ '-' :: '-' :: '>' :: rest) = (cs.map withoutNull, rest) := by
  induction cs with
  | nil => rfl
  | cons c cs ih =>
    have hcs : ∀ {word : List Char}, ¬ word <:+: c :: cs → ¬ word <:+: cs := fun hnot hwithin =>
      hnot (hwithin.trans (List.suffix_cons c cs).isInfix)
    have hlong : 3 ≤ (cs ++ '-' :: '-' :: '>' :: rest).length := by
      simp only [List.length_append, List.length_cons]
      omega
    rw [List.cons_append, commentRest, ih (hcs h) (hcs h')]
    · rfl
    · simp
    · rintro - heq
      exact absurd hlong (by rw [heq]; decide)
    · rintro - heq
      exact absurd hlong (by rw [heq]; decide)
    · rintro after rfl heq
      rcases cs with _ | ⟨d, _ | ⟨e, cs⟩⟩ <;> cases heq
      exact h ⟨[], cs, rfl⟩
    · rintro after rfl heq
      rcases cs with _ | ⟨d, _ | ⟨e, _ | ⟨f, cs⟩⟩⟩ <;> cases heq
      exact h' ⟨[], cs, rfl⟩

theorem commentText_append (h : SoundComment cs) (rest : List Char) :
    commentText (cs ++ '-' :: '-' :: '>' :: rest) = (cs.map withoutNull, rest) := by
  obtain ⟨hgreater, hdash, hend, hend'⟩ := h
  rw [commentText, commentRest_append hend hend']
  · rintro after heq
    rcases cs with _ | ⟨c, cs⟩ <;> cases heq
    exact hgreater ⟨cs, rfl⟩
  · rintro after heq
    rcases cs with _ | ⟨c, _ | ⟨d, cs⟩⟩ <;> cases heq
    exact hdash ⟨cs, rfl⟩

/-! ## Raw text -/

theorem beginsWith_cons (w c : Char) (word cs : List Char) :
    beginsWith (w :: word) (c :: cs) = (Text.lowerChar c == w && beginsWith word cs) := rfl

theorem isEndTagOf_cons (w c : Char) (name cs : List Char) :
    isEndTagOf (w :: name) (c :: cs) = (Text.lowerChar c == w && isEndTagOf name cs) := by
  rw [isEndTagOf, beginsWith_cons, Bool.and_assoc]
  rfl

/-- A word does not reach into the tag that follows a text. -/
theorem beginsWith_append {word : List Char} (hword : '<' ∉ word) (cs rest : List Char) :
    beginsWith word (cs ++ '<' :: rest) = beginsWith word cs := by
  induction word generalizing cs with
  | nil => rfl
  | cons w word ih =>
    cases cs with
    | nil =>
      have hw : ('<' == w) = false := beq_false_of_ne fun heq => hword (heq ▸ List.mem_cons_self)
      rw [List.nil_append, beginsWith_cons, show Text.lowerChar '<' = '<' from rfl, hw]
      rfl
    | cons c cs =>
      rw [List.cons_append, beginsWith_cons, beginsWith_cons,
        ih (List.not_mem_of_not_mem_cons hword)]

theorem isEndTagOf_append {name : List Char} (hname : '<' ∉ name) (cs rest : List Char) :
    isEndTagOf name (cs ++ '<' :: rest) = isEndTagOf name cs := by
  induction name generalizing cs with
  | nil => cases cs <;> rfl
  | cons w name ih =>
    cases cs with
    | nil =>
      have hw : ('<' == w) = false := beq_false_of_ne fun heq => hname (heq ▸ List.mem_cons_self)
      rw [List.nil_append, isEndTagOf_cons, show Text.lowerChar '<' = '<' from rfl, hw]
      rfl
    | cons c cs =>
      rw [List.cons_append, isEndTagOf_cons, isEndTagOf_cons,
        ih (List.not_mem_of_not_mem_cons hname)]

theorem beginsEndTag_append (name : List Char) (hname : '<' ∉ name) (c : Char)
    (cs rest : List Char) :
    beginsEndTag name c (cs ++ '<' :: rest) = beginsEndTag name c cs := by
  cases cs with
  | nil => simp [beginsEndTag]
  | cons d cs =>
    rw [beginsEndTag, List.cons_append, List.drop_one, List.tail_cons, isEndTagOf_append hname]
    rfl

/-- The text of an element does not end in it, and ends at the end tag. -/
theorem rawChar_append {name : String} (hname : '<' ∉ name.toList) {c : Char}
    (hc : beginsEndTag name.toList c cs = false) (rest : List Char) :
    rawChar false name c (cs ++ '<' :: rest) = ([.char (withoutNull c)], cs ++ '<' :: rest) := by
  have h := (beginsEndTag_append _ hname c cs rest).trans hc
  unfold beginsEndTag at h
  rw [rawChar, h]
  rfl

theorem Cover.next_append (cover : Cover) (c : Char) (cs rest : List Char) :
    cover.next c (cs ++ '<' :: rest) = cover.next c cs := by
  have hname : isScriptName (cs ++ '<' :: rest) = isScriptName cs :=
    isEndTagOf_append (by decide) cs rest
  have hend : (c = '<' && (cs ++ '<' :: rest).head? = some '/' &&
      isScriptName ((cs ++ '<' :: rest).drop 1)) =
      (c = '<' && cs.head? = some '/' && isScriptName (cs.drop 1)) :=
    beginsEndTag_append "script".toList (by decide) c cs rest
  cases cover with
  | bare => rw [Cover.next, beginsWith_append (by decide)]; rfl
  | comment dashes => rw [Cover.next, hname]; rfl
  | script dashes => rw [Cover.next, hend]; rfl

/-- A script ends at its end tag. -/
theorem scriptRest_append {cover : Cover} (h : soundScript cover cs = true)
    (hrest : isScriptName rest = true) :
    scriptRest cover (cs ++ '<' :: '/' :: rest) = (cs.map withoutNull, '<' :: '/' :: rest) := by
  induction cs generalizing cover with
  | nil =>
    have hsees : cover.seesEnd = true := h
    rw [List.nil_append, scriptRest, hsees, List.drop_one, List.tail_cons, hrest]
    rfl
  | cons c cs ih =>
    rw [soundScript, Bool.and_eq_true, Bool.not_eq_true'] at h
    have hend : (cover.seesEnd && c = '<' && (cs ++ '<' :: '/' :: rest).head? = some '/' &&
        isScriptName ((cs ++ '<' :: '/' :: rest).drop 1)) = false := by
      rw [Bool.and_assoc, Bool.and_assoc, ← Bool.and_assoc (decide (c = '<'))]
      exact (congrArg _ (beginsEndTag_append "script".toList (by decide) c cs _)).trans h.1
    rw [List.cons_append, scriptRest, hend, if_neg Bool.false_ne_true, Cover.next_append, ih h.2]
    rfl

/-! ## Tokens -/

namespace WrittenTag

variable {t : WrittenTag} {tags : List String}

theorem nameChar_of_isAlpha {c : Char} (hc : c.isAlpha = true) : nameChar c = Text.lowerChar c := by
  have := le_toNat_of_isAlpha hc
  rw [nameChar, withoutNull_of_ne_null (by omega)]

theorem isEndTagOf_map {c : Char} {after : List Char} (hc : endsName c = true) :
    ∀ name : List Char, isEndTagOf (name.map Text.lowerChar) (name ++ c :: after) = true
  | [] => hc
  | d :: name => by
    rw [List.map_cons, List.cons_append, isEndTagOf_cons, isEndTagOf_map hc name, Bool.and_true,
      beq_self_eq_true]

/-- What is written as an end tag is one. -/
theorem isEndTagOf_chars (h : t.Sound tags) (hword : isWord t.tag = true) (closed : Bool)
    (rest : List Char) : isEndTagOf t.tag.toList (t.chars ++ (tagEnd closed ++ rest)) = true := by
  obtain ⟨c, after, hafter, hends⟩ := exists_endsName h closed rest
  have hname : t.tag.toList = t.name.map Text.lowerChar := by
    rw [toList_tag]
    exact List.map_congr_left fun c hc => nameChar_of_isAlpha (isAlpha_of_isWord hword c hc)
  rw [chars, List.append_assoc, List.append_assoc, hafter, hname]
  exact isEndTagOf_map hends t.name

/-- The name of a tag begins with a letter. -/
theorem exists_isAlpha (hword : isWord t.tag = true) (rest : List Char) :
    ∃ c after, t.chars ++ rest = c :: after ∧ c.isAlpha = true := by
  obtain ⟨c, name, hname⟩ := List.exists_cons_of_ne_nil (name_ne_nil hword)
  have hc := isAlpha_of_isWord hword c (hname ▸ List.mem_cons_self)
  rw [chars, hname]
  exact ⟨c, _, rfl, hc⟩

/-- A start tag is a token. -/
theorem lex_opening (h : t.Sound tags) (hword : isWord t.tag = true) (closed foreign : Bool)
    (rest : List Char) :
    Token.lex .data foreign ('<' :: (t.chars ++ (tagEnd closed ++ rest))) =
      ([.opening ⟨t.tag, t.entries, closed⟩], rest) := by
  have htag := tag?_chars h hword closed rest
  obtain ⟨c, after, hafter, hc⟩ := exists_isAlpha hword (tagEnd closed ++ rest)
  have hne : c ≠ '!' ∧ c ≠ '/' ∧ c ≠ '?' := by
    refine ⟨?_, ?_, ?_⟩ <;>
    · rintro rfl
      cases hc
  rw [hafter] at htag ⊢
  rw [Token.lex, if_pos rfl, afterLess, if_pos hc, htag]
  exacts [hne.1, fun heq => absurd heq hne.2.1, fun _ heq => absurd heq hne.2.1,
    fun _ _ heq => absurd heq hne.2.1, hne.2.2]

theorem closingTag_chars (h : t.Sound tags) (hword : isWord t.tag = true) (rest : List Char) :
    closingTag (t.chars ++ (tagEnd false ++ rest)) = ([.closing t.tag], rest) := by
  rw [closingTag, tag?_chars h hword]

/-- An end tag is a token. -/
theorem lex_closing (h : t.Sound tags) (hword : isWord t.tag = true) (foreign : Bool)
    (rest : List Char) :
    Token.lex .data foreign ('<' :: '/' :: (t.chars ++ (tagEnd false ++ rest))) =
      ([.closing t.tag], rest) := by
  have hclosing := closingTag_chars h hword rest
  obtain ⟨c, after, hafter, hc⟩ := exists_isAlpha hword (tagEnd false ++ rest)
  have hne : c ≠ '>' := by
    rintro rfl
    cases hc
  rw [hafter] at hclosing ⊢
  rw [Token.lex, if_pos rfl, afterLess, if_pos hc, hclosing]
  exact hne

/-- An end tag is a token in the text of its element. -/
theorem lex_closing_raw (h : t.Sound tags) (hword : isWord t.tag = true) (foreign : Bool)
    (rest : List Char) :
    Token.lex (.raw t.tag) foreign ('<' :: '/' :: (t.chars ++ (tagEnd false ++ rest))) =
      ([.closing t.tag], rest) := by
  have hend := isEndTagOf_chars h hword false rest
  rw [Token.lex, rawChar, List.head?_cons, List.drop_one, List.tail_cons, hend]
  exact closingTag_chars h hword rest

theorem isScriptName_chars (h : t.Sound tags) (hscript : t.tag = "script") (rest : List Char) :
    isScriptName (t.chars ++ (tagEnd false ++ rest)) = true := by
  have hend := isEndTagOf_chars h (hscript ▸ rfl) false rest
  rwa [hscript] at hend

/-- An end tag is a token after a script. -/
theorem lex_closing_script (h : t.Sound tags) (hscript : t.tag = "script") (foreign : Bool)
    (rest : List Char) :
    Token.lex .script foreign ('<' :: '/' :: (t.chars ++ (tagEnd false ++ rest))) =
      ([.closing t.tag], rest) := by
  rw [Token.lex, List.head?_cons, List.drop_one, List.tail_cons, isScriptName_chars h hscript]
  exact closingTag_chars h (hscript ▸ rfl) rest

end WrittenTag

/-- A comment is a token. -/
theorem lex_comment (h : SoundComment cs) (foreign : Bool) (rest : List Char) :
    Token.lex .data foreign ('<' :: '!' :: '-' :: '-' :: (cs ++ '-' :: '-' :: '>' :: rest)) =
      ([.comment (String.ofList (cs.map withoutNull))], rest) := by
  rw [Token.lex, if_pos rfl, afterLess, declaration, commentText_append h]

/-- The text of a script makes one token for each character. -/
theorem lex_script {c : Char} (h : soundScript .bare (c :: cs) = true)
    (hrest : isScriptName rest = true) (foreign : Bool) :
    Token.lex .script foreign (c :: (cs ++ '<' :: '/' :: rest)) =
      (((c :: cs).map withoutNull).map .char, '<' :: '/' :: rest) := by
  have htext := scriptRest_append h hrest
  rw [soundScript, Bool.and_eq_true, Bool.not_eq_true'] at h
  have hend : (c = '<' && (cs ++ '<' :: '/' :: rest).head? = some '/' &&
      isScriptName ((cs ++ '<' :: '/' :: rest).drop 1)) = false :=
    (beginsEndTag_append "script".toList (by decide) c cs ('/' :: rest)).trans h.1
  rw [Token.lex, hend, if_neg Bool.false_ne_true, ← List.cons_append, htext]

/-- A character of text, unless it begins a reference, is a token. -/
theorem lex_char {c : Char} (hless : c ≠ '<') (hand : c ≠ '&') (foreign : Bool) (rest : List Char) :
    Token.lex .data foreign (c :: rest) = ([.char c], rest) := by
  rw [Token.lex, if_neg hless, if_neg hand]

end DataBinding.Markup
