/-
  Written markup as it is written again.

  A document writes its nodes in one way only: names in small letters, one space before an
  attribute, everything escaped, line ends as they are.  Line ends are changed when this is
  read.

  * `Source.rewritten`: a piece in this form;
  * `Source.normalizeNewlines_allChars`: what is written of parsed markup is this form, with
    its line ends changed;
  * `Source.soundAll_rewritten`: each piece ends where it seems to.
-/
import DataBinding.Proofs.Markup.Escaping
import DataBinding.Proofs.Markup.Source
import DataBinding.Proofs.Markup.Lexing

namespace DataBinding.Markup

/-! ## Names -/

/-- The characters that characters of a name are replaced by. -/
def adjustedChars : List Char :=
  replacement :: "abcdefghijklmnopqrstuvwxyz".toList

theorem nameChar_cases (c : Char) : nameChar c = c ∨ nameChar c ∈ adjustedChars := by
  unfold nameChar withoutNull
  split
  · exact .inr (by decide)
  · unfold Text.lowerChar
    split
    next hc =>
      have hletters : ∀ n ≤ 90, 65 ≤ n → Char.ofNat (n + 32) ∈ adjustedChars := by decide
      exact .inr (hletters c.toNat hc.2 hc.1)
    next => exact .inl rfl

/-- A name is read once and for all. -/
theorem nameChar_nameChar (c : Char) : nameChar (nameChar c) = nameChar c := by
  have hadjusted : ∀ c ∈ adjustedChars, nameChar c = c := by decide
  rcases nameChar_cases c with h | h
  · rw [h, h]
  · exact hadjusted _ h

theorem isNameChar_nameChar {c : Char} (h : WrittenAttribute.isNameChar c = true) :
    WrittenAttribute.isNameChar (nameChar c) = true := by
  have hadjusted : ∀ c ∈ adjustedChars, WrittenAttribute.isNameChar c = true := by decide
  rcases nameChar_cases c with heq | hmem
  · rwa [heq]
  · exact hadjusted _ hmem

theorem nameChar_ne_return {c : Char} (h : c ≠ '\r') : nameChar c ≠ '\r' := by
  have hadjusted : ∀ c ∈ adjustedChars, c ≠ '\r' := by decide
  rcases nameChar_cases c with heq | hmem
  · rwa [heq]
  · exact hadjusted _ hmem

/-! ## Attributes -/

/-- A text with single line feeds. -/
def normalized (s : String) : String :=
  String.ofList (normalizeNewlines s.toList)

/-- An attribute as a start tag is read to: reading it again does not change it, but for
    the line ends of its value. -/
structure Settled (entry : String × String) : Prop where
  nonempty : entry.1 ≠ ""
  name : ∀ c ∈ entry.1.toList, nameChar c = c ∧ WrittenAttribute.isNameChar c = true ∧ c ≠ '\r'
  value : ∀ c ∈ entry.2.toList, c.toNat ≠ 0

/-- An attribute as it is written. -/
def WrittenAttribute.ofEntry (entry : String × String) : WrittenAttribute where
  gap := [' ']
  name := entry.1.toList
  before := []
  after := []
  value := escape (normalizeNewlines entry.2.toList)

namespace WrittenAttribute

variable {a : WrittenAttribute} {entry : String × String}

theorem settled_entry (h : a.Sound) (hreturn : '\r' ∉ a.name) : Settled a.entry where
  nonempty := by
    rw [entry, Ne, String.ext_iff, String.toList_ofList]
    exact fun hnil => h.name.1 (List.map_eq_nil_iff.1 hnil)
  name := by
    intro c hc
    rw [entry, String.toList_ofList] at hc
    obtain ⟨c, hmem, rfl⟩ := List.mem_map.1 hc
    exact ⟨nameChar_nameChar c, isNameChar_nameChar (h.name.2 c hmem),
      nameChar_ne_return fun heq => hreturn (heq ▸ hmem)⟩
  value := by
    rw [entry, String.toList_ofList]
    exact decode_ne_null

theorem sound_ofEntry (h : Settled entry) : (ofEntry entry).Sound where
  gap := ⟨List.cons_ne_nil _ _, List.forall_mem_singleton.2 rfl⟩
  name := ⟨fun hnil => h.nonempty (String.toList_eq_nil_iff.1 hnil), fun c hc => (h.name c hc).2.1⟩
  before := nofun
  after := nofun
  value := quote_not_mem_escape _

theorem entry_ofEntry (h : Settled entry) :
    (ofEntry entry).entry = (entry.1, normalized entry.2) := by
  have hname : entry.1.toList.map nameChar = entry.1.toList :=
    (List.map_congr_left fun c hc => (h.name c hc).1).trans (List.map_id _)
  have hvalue : decode true (escape (normalizeNewlines entry.2.toList)) = _ :=
    decode_escape (normalizeNewlines_ne_null h.value)
  rw [WrittenAttribute.entry, ofEntry]
  dsimp only
  rw [hname, hvalue, String.ofList_toList, normalized]

/-- A value that is written again has its line ends changed. -/
theorem normalizeNewlines_attributeChars {rest : List Char} : ∀ {entries : List (String × String)},
    (∀ entry ∈ entries, Settled entry) →
    normalizeNewlines (attributeChars entries ++ rest) =
      (entries.map ofEntry).flatMap chars ++ normalizeNewlines rest
  | [], _ => rfl
  | entry :: entries, h => by
    obtain ⟨hentry, hentries⟩ := List.forall_mem_cons.1 h
    have hname : '\r' ∉ ' ' :: entry.1.toList ++ ['=', '"'] := by
      have : '\r' ∉ entry.1.toList := fun hmem => (hentry.name _ hmem).2.2 rfl
      simp [this]
    have hsplit : attributeChars (entry :: entries) ++ rest =
        (' ' :: entry.1.toList ++ ['=', '"']) ++
          (escape entry.2.toList ++ '"' :: (attributeChars entries ++ rest)) := by
      rw [attributeChars]
      simp only [List.cons_append, List.append_assoc, List.nil_append]
    rw [hsplit, normalizeNewlines_append_of_not_mem hname,
      normalizeNewlines_escape_append (ends_quote _), normalizeNewlines_cons (by decide),
      normalizeNewlines_attributeChars hentries, List.map_cons, List.flatMap_cons, chars, ofEntry]
    simp only [List.cons_append, List.append_assoc, List.nil_append]

end WrittenAttribute

/-! ## Tags -/

theorem keys_nodup_foldl_addAttribute : ∀ {entries done : List (String × String)},
    (Keyed.keys done).Nodup → (Keyed.keys (entries.foldl addAttribute done)).Nodup
  | [], _, h => h
  | entry :: entries, done, h => by
    have hadd : (Keyed.keys (addAttribute done entry)).Nodup := by
      unfold addAttribute
      split
      · exact h
      next hnew =>
        rw [Keyed.contains, Keyed.get?_isSome_iff] at hnew
        rw [Keyed.keys, List.map_append, List.map_singleton, ← List.concat_eq_append]
        exact h.concat hnew
    rw [List.foldl_cons]
    exact keys_nodup_foldl_addAttribute hadd

theorem mem_foldl_addAttribute {entry : String × String} :
    ∀ {entries done : List (String × String)}, entry ∈ entries.foldl addAttribute done →
      entry ∈ done ∨ entry ∈ entries
  | [], _, h => .inl h
  | first :: entries, done, h => by
    rw [List.mem_cons]
    have hmore : entry ∈ addAttribute done first ∨ entry ∈ entries := mem_foldl_addAttribute h
    rcases hmore with hmem | hmem
    · unfold addAttribute at hmem
      split at hmem
      · exact .inl hmem
      · rcases List.mem_append.1 hmem with hmem | hmem
        · exact .inl hmem
        · exact .inr (.inl (List.mem_singleton.1 hmem))
    · exact .inr (.inr hmem)

/-- Attributes of different names are all kept. -/
theorem foldl_addAttribute_of_nodup : ∀ {entries done : List (String × String)},
    (Keyed.keys (done ++ entries)).Nodup → entries.foldl addAttribute done = done ++ entries
  | [], done, _ => (List.append_nil done).symm
  | entry :: entries, done, h => by
    have hnew : Keyed.contains done entry.1 = false := by
      rw [← Bool.not_eq_true, Keyed.contains, Keyed.get?_isSome_iff]
      rw [Keyed.keys, List.map_append, List.map_cons] at h
      exact fun hmem => List.disjoint_of_nodup_append h hmem List.mem_cons_self
    rw [List.append_cons] at h ⊢
    rw [List.foldl_cons, addAttribute, if_neg (by simp [hnew])]
    exact foldl_addAttribute_of_nodup h

/-- An element's tag as it is written. -/
def WrittenTag.ofElement (tag : String) (entries : List (String × String)) (gap : List Char) :
    WrittenTag where
  name := tag.toList
  attributes := entries.map .ofEntry
  gap := gap

namespace WrittenTag

variable {t : WrittenTag} {tags : List String} {tag : String} {gap : List Char}

theorem keys_entries_nodup (t : WrittenTag) : (Keyed.keys t.entries).Nodup :=
  keys_nodup_foldl_addAttribute List.nodup_nil

theorem settled_entries (h : t.Sound tags) (hreturn : '\r' ∉ t.chars) :
    ∀ entry ∈ t.entries, Settled entry := by
  intro entry hentry
  obtain ⟨a, ha, rfl⟩ : ∃ a ∈ t.attributes, a.entry = entry :=
    List.mem_map.1 ((mem_foldl_addAttribute hentry).resolve_left List.not_mem_nil)
  refine WrittenAttribute.settled_entry (h.attributes a ha) fun hmem => hreturn ?_
  rw [chars, List.mem_append, List.mem_append, List.mem_flatMap]
  refine .inl (.inr ⟨a, ha, ?_⟩)
  rw [WrittenAttribute.chars]
  simp [hmem]

theorem tag_ofElement (t : WrittenTag) (entries : List (String × String)) (gap : List Char) :
    (ofElement t.tag entries gap).tag = t.tag := by
  rw [tag, ofElement, toList_tag, List.map_map]
  exact congrArg String.ofList (List.map_congr_left fun c _ => nameChar_nameChar c)

theorem entries_ofElement {entries : List (String × String)} (h : ∀ entry ∈ entries, Settled entry)
    (hnodup : (Keyed.keys entries).Nodup) :
    (ofElement tag entries gap).entries =
      entries.map fun entry => (entry.1, normalized entry.2) := by
  have hmap : (entries.map WrittenAttribute.ofEntry).map WrittenAttribute.entry =
      entries.map fun entry => (entry.1, normalized entry.2) := by
    rw [List.map_map]
    exact List.map_congr_left fun entry hentry => WrittenAttribute.entry_ofEntry (h entry hentry)
  rw [WrittenTag.entries, ofElement, hmap, foldl_addAttribute_of_nodup, List.nil_append]
  rwa [List.nil_append, Keyed.keys, List.map_map]

theorem sound_ofElement (h : t.Sound tags) {entries : List (String × String)}
    (hentries : ∀ entry ∈ entries, Settled entry) (hgap : ∀ c ∈ gap, isTagBlank c = true) :
    (ofElement t.tag entries gap).Sound tags where
  name := (tag_ofElement t entries gap).symm ▸ h.name
  attributes := by
    intro a ha
    obtain ⟨entry, hentry, rfl⟩ := List.mem_map.1 ha
    exact WrittenAttribute.sound_ofEntry (hentries entry hentry)
  gap := hgap

/-- The end tag of an element. -/
theorem sound_ofElement_finish (h : t.Sound tags) (entries : List (String × String)) :
    (ofElement t.tag [] []).Sound [(ofElement t.tag entries gap).tag] := by
  rw [tag_ofElement]
  exact sound_ofElement ⟨List.mem_singleton_self _, h.attributes, h.gap⟩ nofun nofun

end WrittenTag

/-! ## Trees -/

theorem allChars_ofText (cs : List Char) : allChars (ofText (String.ofList cs)) = escape cs := by
  cases cs with
  | nil => rfl
  | cons c cs =>
    rw [ofText, if_neg (by simp), allChars, allChars, chars, String.toList_ofList, List.append_nil]

theorem allChars_append (nodes nodes' : List Markup) :
    allChars (nodes ++ nodes') = allChars nodes ++ allChars nodes' := by
  induction nodes with
  | nil => rfl
  | cons node nodes ih => rw [List.cons_append, allChars, allChars, ih, List.append_assoc]

theorem map_withoutNull_of_ne_null {cs : List Char} (h : ∀ c ∈ cs, c.toNat ≠ 0) :
    cs.map withoutNull = cs :=
  (List.map_congr_left fun c hc => withoutNull_of_ne_null (h c hc)).trans (List.map_id _)

theorem map_withoutNull_ne_null {cs : List Char} : ∀ c ∈ cs.map withoutNull, c.toNat ≠ 0 := by
  intro c hc
  obtain ⟨c, -, rfl⟩ := List.mem_map.1 hc
  exact withoutNull_ne_null c

theorem return_not_mem_map_withoutNull {cs : List Char} (h : '\r' ∉ cs) :
    '\r' ∉ cs.map withoutNull := by
  intro hmem
  obtain ⟨c, hc, heq⟩ := List.mem_map.1 hmem
  unfold withoutNull at heq
  split at heq
  · exact absurd heq (by decide)
  · exact h (heq ▸ hc)

theorem withoutNull_of_ne_replacement {c : Char} (h : withoutNull c ≠ replacement) :
    withoutNull c = c := by
  unfold withoutNull at h ⊢
  split
  next hnull => exact absurd (if_pos hnull) h
  next => rfl

theorem eq_of_map_withoutNull {cs word : List Char} (h : cs.map withoutNull = word)
    (hword : replacement ∉ word) : cs = word := by
  rw [← h]
  refine ((List.map_congr_left fun c hc => ?_).trans (List.map_id _)).symm
  refine withoutNull_of_ne_replacement fun heq => hword ?_
  rw [← h, ← heq]
  exact List.mem_map_of_mem hc

/-- The end of a comment is not put into it. -/
theorem SoundComment.map_withoutNull {cs : List Char} (h : SoundComment cs) :
    SoundComment (cs.map withoutNull) := by
  -- the replacement is in none of these words, so what stands there stood there before
  have hbegins : ∀ {word : List Char}, replacement ∉ word → word <+: cs.map withoutNull →
      word <+: cs := by
    rintro word hword ⟨after, heq⟩
    obtain ⟨first, rest, rfl, hfirst, -⟩ := List.map_eq_append_iff.1 heq.symm
    exact ⟨rest, by rw [eq_of_map_withoutNull hfirst hword]⟩
  have hholds : ∀ {word : List Char}, replacement ∉ word → word <:+: cs.map withoutNull →
      word <:+: cs := by
    rintro word hword ⟨before, after, heq⟩
    obtain ⟨first, rest, rfl, hfirst, -⟩ := List.map_eq_append_iff.1 heq.symm
    obtain ⟨before', middle, rfl, -, hmiddle⟩ := List.map_eq_append_iff.1 hfirst
    exact ⟨before', rest, by rw [eq_of_map_withoutNull hmiddle hword]⟩
  obtain ⟨hgreater, hdash, hend, hend'⟩ := h
  exact ⟨fun hmem => hgreater (hbegins (by decide) hmem),
    fun hmem => hdash (hbegins (by decide) hmem), fun hmem => hend (hholds (by decide) hmem), fun hmem => hend' (hholds (by decide) hmem)⟩

/-- Text without the beginning of a tag does not end early. -/
theorem soundContent_of_less_not_mem {cs : List Char} (h : '<' ∉ cs) (tag : String) :
    soundContent tag cs = true := by
  have hbegins : ∀ {c : Char} (name rest : List Char), c ≠ '<' → beginsEndTag name c rest = false :=
    fun _ _ hc => by rw [beginsEndTag, decide_eq_false hc]; rfl
  have hbare : ∀ {c : Char} (rest : List Char), c ≠ '<' → Cover.bare.next c rest = .bare :=
    fun _ hc => by rw [Cover.next, decide_eq_false hc]; rfl
  unfold soundContent
  split
  · induction cs with
    | nil => rfl
    | cons c cs ih =>
      have hc : c ≠ '<' := fun heq => h (heq ▸ List.mem_cons_self)
      rw [soundScript, hbegins _ _ hc, hbare _ hc, ih (List.not_mem_of_not_mem_cons h)]
      rfl
  · induction cs with
    | nil => rfl
    | cons c cs ih =>
      have hc : c ≠ '<' := fun heq => h (heq ▸ List.mem_cons_self)
      rw [soundRaw, hbegins _ _ hc, ih (List.not_mem_of_not_mem_cons h)]
      rfl

namespace Source

mutual

/-- A piece as it is written again. -/
def rewritten : Source → Source
  | .text cs => .text (escape (normalizeNewlines (decode false cs)))
  | .comment cs => .comment (cs.map withoutNull)
  | .void start _ => .void (.ofElement start.tag start.entries [' ']) true
  | .raw start content _ =>
    .raw (.ofElement start.tag start.entries []) (escape (content.map withoutNull))
      (.ofElement start.tag [] [])
  | .element start children _ =>
    .element (.ofElement start.tag start.entries []) (rewrittenAll children)
      (.ofElement start.tag [] [])

/-- Pieces as they are written again. -/
def rewrittenAll : List Source → List Source
  | [] => []
  | s :: rest => rewritten s :: rewrittenAll rest

end

variable {s : Source} {sources : List Source} {rest : List Char}

theorem isText_rewritten (s : Source) : s.rewritten.isText = s.isText := by
  cases s <;> rfl

theorem ends_forest (h : s.isText = false) (rest : List Char) :
    Ends (Markup.allChars s.forest ++ rest) := by
  cases s with
  | text cs => cases h
  | _ => exact ends_less _

theorem ends_forestAll (h : ∀ next ∈ sources.head?, next.isText = false) (hrest : Ends rest) :
    Ends (Markup.allChars (forestAll sources) ++ rest) := by
  cases sources with
  | nil => exact hrest
  | cons next sources =>
    rw [forestAll, allChars_append, List.append_assoc]
    exact ends_forest (h next rfl) _

section

variable {start : WrittenTag} {tags : List String}

theorem return_not_mem_tag (hword : isWord start.tag = true) : '\r' ∉ start.tag.toList := by
  rw [isWord, Bool.and_eq_true, List.all_eq_true] at hword
  exact fun hmem => absurd (hword.2 _ hmem) (by decide)

/-- A start tag is written as it is meant. -/
theorem normalizeNewlines_start (h : start.Sound tags) (hword : isWord start.tag = true)
    (hreturn : '\r' ∉ start.chars) (rest : List Char) :
    normalizeNewlines ('<' :: (start.tag.toList ++ (attributeChars start.entries ++ rest))) =
      '<' :: (start.tag.toList ++ ((start.entries.map WrittenAttribute.ofEntry).flatMap
        WrittenAttribute.chars ++ normalizeNewlines rest)) := by
  have htag : '\r' ∉ '<' :: start.tag.toList :=
    List.not_mem_cons_of_ne_of_not_mem (by decide) (return_not_mem_tag hword)
  rw [← List.cons_append, normalizeNewlines_append_of_not_mem htag,
    WrittenAttribute.normalizeNewlines_attributeChars (WrittenTag.settled_entries h hreturn)]
  rfl

/-- An element is written as it is meant, if what is in it is. -/
theorem normalizeNewlines_element (h : start.Sound tags) (hword : isWord start.tag = true)
    (hvoid : isVoid start.tag = false) (hreturn : '\r' ∉ start.chars) {nodes : List Markup}
    {cs : List Char} (hnodes : ∀ rest, Ends rest →
      normalizeNewlines (Markup.allChars nodes ++ rest) = cs ++ normalizeNewlines rest)
    (rest : List Char) :
    normalizeNewlines (Markup.allChars [.element start.tag start.entries nodes] ++ rest) =
      '<' :: ((WrittenTag.ofElement start.tag start.entries []).chars ++ (tagEnd false ++
        (cs ++ '<' :: '/' :: ((WrittenTag.ofElement start.tag [] []).chars ++
          (tagEnd false ++ normalizeNewlines rest))))) := by
  have hfinish : '\r' ∉ '<' :: '/' :: (start.tag.toList ++ ['>']) := by
    simp [return_not_mem_tag hword]
  have hend : normalizeNewlines ('<' :: '/' :: (start.tag.toList ++ '>' :: rest)) =
      '<' :: '/' :: (start.tag.toList ++ '>' :: normalizeNewlines rest) := by
    have := normalizeNewlines_append_of_not_mem hfinish rest
    simpa only [List.cons_append, List.append_assoc, List.nil_append] using this
  rw [Markup.allChars, Markup.allChars, List.append_nil, Markup.chars_element_append, bodyChars,
    if_neg (by simp [hvoid]), normalizeNewlines_start h hword hreturn,
    normalizeNewlines_cons (by decide), hnodes _ (ends_less _), hend]
  simp only [WrittenTag.chars, WrittenTag.ofElement, List.map_nil, List.flatMap_nil,
    List.append_nil, List.append_assoc, tagEnd, Bool.false_eq_true, if_false, List.cons_append, List.nil_append]

end

mutual

theorem normalizeNewlines_chars : ∀ {s : Source} {rest : List Char}, s.Sound → '\r' ∉ s.chars →
    (s.isText = true → Ends rest) →
    normalizeNewlines (Markup.allChars s.forest ++ rest) =
      s.rewritten.chars ++ normalizeNewlines rest
  | .text cs, rest, _, _, hends => by
    rw [forest, allChars_ofText, normalizeNewlines_escape_append (hends rfl)]
    rfl
  | .comment cs, rest, _, hreturn, _ => by
    have hwritten : '\r' ∉ '<' :: '!' :: '-' :: '-' :: (cs.map withoutNull ++ ['-', '-', '>']) := by
      have : '\r' ∉ cs := fun hmem => hreturn (by simp [chars, hmem])
      simp [return_not_mem_map_withoutNull this]
    have hsplit : Markup.allChars (Source.comment cs).forest ++ rest =
        '<' :: '!' :: '-' :: '-' :: (cs.map withoutNull ++ ['-', '-', '>']) ++ rest := by
      simp only [forest, Markup.allChars, Markup.chars, String.toList_ofList, List.append_nil,
        List.cons_append]
    rw [hsplit, normalizeNewlines_append_of_not_mem hwritten]
    rfl
  | .void start closed, rest, h, hreturn, _ => by
    have hall : ∀ tag ∈ emptyTags, isWord tag = true ∧ isVoid tag = true := by decide
    obtain ⟨hword, hvoid⟩ := hall _ h.name
    have hstart := not_mem_void hreturn
    have hend : normalizeNewlines (' ' :: '/' :: '>' :: rest) =
        ' ' :: '/' :: '>' :: normalizeNewlines rest :=
      normalizeNewlines_append_of_not_mem (by decide : '\r' ∉ [' ', '/', '>']) rest
    rw [forest, Markup.allChars, Markup.allChars, List.append_nil, Markup.chars_element_append,
      bodyChars, if_pos hvoid, normalizeNewlines_start h hword hstart, hend, rewritten,
      chars_void_append, WrittenTag.chars, List.append_assoc, List.append_assoc]
    rfl
  | .raw start content finish, rest, ⟨hstart, _, _⟩, hreturn, _ => by
    have hall : ∀ tag ∈ rawTextTags, isWord tag = true ∧ isVoid tag = false := by decide
    obtain ⟨hword, hvoid⟩ := hall _ hstart.name
    have hnot := not_mem_raw hreturn
    have hcontent := normalizeNewlines_eq_iff.2 (return_not_mem_map_withoutNull hnot.2)
    rw [rewritten, chars_raw_append]
    refine normalizeNewlines_element hstart hword hvoid hnot.1 (fun rest hrest => ?_) rest
    rw [allChars_ofText, normalizeNewlines_escape_append hrest, hcontent]
  | .element start children finish, rest, ⟨hstart, hchildren, _⟩, hreturn, _ => by
    have hall : ∀ tag ∈ contentTags, isWord tag = true ∧ isVoid tag = false := by decide
    obtain ⟨hword, hvoid⟩ := hall _ hstart.name
    have hnot := not_mem_element hreturn
    rw [rewritten, chars_element_append]
    exact normalizeNewlines_element hstart hword hvoid hnot.1
      (fun rest hrest => normalizeNewlines_allChars hchildren hnot.2 hrest) rest

/-- What is written of parsed markup, with its line ends changed, is written markup. -/
theorem normalizeNewlines_allChars : ∀ {sources : List Source} {rest : List Char},
    SoundAll sources → '\r' ∉ allChars sources → Ends rest →
    normalizeNewlines (Markup.allChars (forestAll sources) ++ rest) =
      allChars (rewrittenAll sources) ++ normalizeNewlines rest
  | [], rest, _, _, _ => rfl
  | s :: sources, rest, ⟨h, hnext, hsources⟩, hreturn, hrest => by
    rw [allChars, List.mem_append, not_or] at hreturn
    rw [forestAll, allChars_append, List.append_assoc,
      normalizeNewlines_chars h hreturn.1 fun htext => ends_forestAll (hnext htext) hrest,
      normalizeNewlines_allChars hsources hreturn.2 hrest, rewrittenAll, allChars,
      List.append_assoc]

end

mutual

theorem sound_rewritten : ∀ {s : Source}, s.Sound → '\r' ∉ s.chars → s.rewritten.Sound
  | .text _, _, _ => less_not_mem_escape _
  | .comment _, h, _ => h.map_withoutNull
  | .void _ _, h, hreturn =>
    WrittenTag.sound_ofElement h (WrittenTag.settled_entries h (not_mem_void hreturn))
      (List.forall_mem_singleton.2 rfl)
  | .raw start _ _, ⟨h, _, _⟩, hreturn =>
    ⟨WrittenTag.sound_ofElement h (WrittenTag.settled_entries h (not_mem_raw hreturn).1) nofun,
      soundContent_of_less_not_mem (less_not_mem_escape _) _,
      WrittenTag.sound_ofElement_finish h start.entries⟩
  | .element start _ _, ⟨h, hchildren, _⟩, hreturn =>
    have hnot := not_mem_element hreturn
    ⟨WrittenTag.sound_ofElement h (WrittenTag.settled_entries h hnot.1) nofun,
      soundAll_rewritten hchildren hnot.2, WrittenTag.sound_ofElement_finish h start.entries⟩

/-- What is written again is sound. -/
theorem soundAll_rewritten : ∀ {sources : List Source}, SoundAll sources →
    '\r' ∉ allChars sources → SoundAll (rewrittenAll sources)
  | [], _, _ => trivial
  | s :: sources, ⟨h, hnext, hsources⟩, hreturn => by
    rw [allChars, List.mem_append, not_or] at hreturn
    refine ⟨sound_rewritten h hreturn.1, fun htext => ?_, soundAll_rewritten hsources hreturn.2⟩
    rw [isText_rewritten] at htext
    cases sources with
    | nil => nofun
    | cons next sources =>
      rintro _ ⟨⟩
      rw [isText_rewritten]
      exact hnext htext next rfl

end

end Source

end DataBinding.Markup
