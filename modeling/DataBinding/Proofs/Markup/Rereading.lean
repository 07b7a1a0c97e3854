/-
  Written markup that is parsed, written and parsed again.

  * `Faithful`: a node does not change on the way; a text or a value does if it holds a
    carriage return, raw text if it holds a character that is escaped;
  * `Durable`: nodes do not change, and no mark is dropped at their front;
  * `Source.forestAll_reread_eq_iff`: which nodes are the same when they are read again;
  * `Document.parse_toHtml_iff`: the same for documents.
-/
import DataBinding.Proofs.Document.Rooted
import DataBinding.Proofs.Markup.Parsing
import DataBinding.Proofs.Markup.Rewriting

namespace DataBinding

namespace Markup

/-! ## What survives -/

mutual

/-- A node that does not change when it is written and read again: no carriage return
    stands in a text or a value, and no character that is escaped in raw text. -/
def Faithful : Markup → Prop
  | .text s => '\r' ∉ s.toList
  | .comment _ => True
  | .element tag attributes children =>
    (∀ a ∈ attributes, '\r' ∉ a.2.toList) ∧
      (tag ∈ rawTextTags → ∀ c ∈ allTextChars children, c ∉ markupChars) ∧
      FaithfulAll children

/-- Nodes that do not change when they are written and read again. -/
def FaithfulAll : List Markup → Prop
  | [] => True
  | node :: rest => Faithful node ∧ FaithfulAll rest

end

mutual

instance decidableFaithful : ∀ node : Markup, Decidable node.Faithful
  | .text _ => inferInstanceAs (Decidable (¬ _))
  | .comment _ => .isTrue trivial
  | .element _ _ children =>
    have := decidableFaithfulAll children
    inferInstanceAs (Decidable (_ ∧ (_ → _) ∧ _))

instance decidableFaithfulAll : ∀ nodes : List Markup, Decidable (FaithfulAll nodes)
  | [] => .isTrue trivial
  | node :: rest =>
    have := decidableFaithful node
    have := decidableFaithfulAll rest
    inferInstanceAs (Decidable (_ ∧ _))

end

theorem faithfulAll_append {nodes nodes' : List Markup} :
    FaithfulAll (nodes ++ nodes') ↔ FaithfulAll nodes ∧ FaithfulAll nodes' := by
  induction nodes with
  | nil => exact iff_of_eq (true_and _).symm
  | cons node nodes ih => rw [List.cons_append, FaithfulAll, FaithfulAll, ih, and_assoc]

theorem faithfulAll_singleton {node : Markup} : FaithfulAll [node] ↔ node.Faithful :=
  iff_of_eq (and_true _)

theorem faithfulAll_ofText {cs : List Char} :
    FaithfulAll (ofText (String.ofList cs)) ↔ '\r' ∉ cs := by
  cases cs with
  | nil => exact iff_of_true trivial List.not_mem_nil
  | cons c cs =>
    rw [ofText, if_neg (by simp), faithfulAll_singleton, Faithful, String.toList_ofList]

theorem allTextChars_ofText (cs : List Char) : allTextChars (ofText (String.ofList cs)) = cs := by
  cases cs with
  | nil => rfl
  | cons c cs =>
    rw [ofText, if_neg (by simp), allTextChars, allTextChars, textChars, String.toList_ofList,
      List.append_nil]

theorem length_ofText (cs : List Char) :
    (ofText (String.ofList cs)).length = if cs.isEmpty then 0 else 1 := by
  cases cs with
  | nil => rfl
  | cons c cs =>
    rw [ofText, if_neg (by simp)]
    rfl

theorem ofText_inj {cs cs' : List Char} :
    ofText (String.ofList cs) = ofText (String.ofList cs') ↔ cs = cs' := by
  refine ⟨fun h => ?_, fun h => h ▸ rfl⟩
  rw [← allTextChars_ofText cs, h, allTextChars_ofText]

theorem normalized_eq_iff {s : String} : normalized s = s ↔ '\r' ∉ s.toList := by
  rw [← String.toList_inj, normalized, String.toList_ofList, normalizeNewlines_eq_iff]

theorem map_normalized_eq_iff {entries : List (String × String)} :
    (entries.map fun entry => (entry.1, normalized entry.2)) = entries ↔
      ∀ entry ∈ entries, '\r' ∉ entry.2.toList := by
  have hmap : (entries.map fun entry => (entry.1, normalized entry.2)) = entries ↔
      ∀ entry ∈ entries, (entry.1, normalized entry.2) = id entry := by
    rw [← List.map_inj_left, List.map_id]
  rw [hmap]
  refine forall₂_congr fun entry _ => ?_
  rw [Prod.ext_iff, ← normalized_eq_iff]
  exact and_iff_right rfl

namespace Source

variable {s : Source} {sources : List Source}

theorem length_forest_rewritten (s : Source) : s.rewritten.forest.length = s.forest.length := by
  cases s with
  | text cs =>
    have hempty : (normalizeNewlines (decode false cs)).isEmpty = (decode false cs).isEmpty := by
      rw [Bool.eq_iff_iff, List.isEmpty_iff, List.isEmpty_iff, normalizeNewlines_eq_nil]
    rw [rewritten, forest, forest, decode_escape (normalizeNewlines_ne_null decode_ne_null),
      length_ofText, length_ofText, hempty]
  | _ => rfl

/-- An element does not change if neither its attributes nor the nodes in it do. -/
theorem element_rewritten_eq_iff {start : WrittenTag} {tags : List String} (h : start.Sound tags)
    (hreturn : '\r' ∉ start.chars) (gap : List Char) {nodes nodes' : List Markup}
    (hnodes : nodes' = nodes ↔ (start.tag ∈ rawTextTags →
      ∀ c ∈ allTextChars nodes, c ∉ markupChars) ∧ FaithfulAll nodes) :
    [Markup.element (WrittenTag.ofElement start.tag start.entries gap).tag
        (WrittenTag.ofElement start.tag start.entries gap).entries nodes'] =
      [Markup.element start.tag start.entries nodes] ↔
      FaithfulAll [.element start.tag start.entries nodes] := by
  rw [WrittenTag.tag_ofElement, WrittenTag.entries_ofElement (WrittenTag.settled_entries h hreturn)
    start.keys_entries_nodup, faithfulAll_singleton, Faithful, ← map_normalized_eq_iff, ← hnodes,
    List.cons.injEq, Markup.element.injEq]
  exact ⟨fun ⟨⟨_, he, hn⟩, _⟩ => ⟨he, hn⟩, fun ⟨he, hn⟩ => ⟨⟨rfl, he, hn⟩, rfl⟩⟩

mutual

theorem forest_rewritten_eq_iff : ∀ {s : Source}, s.Sound → '\r' ∉ s.chars →
    (s.rewritten.forest = s.forest ↔ FaithfulAll s.forest)
  | .text cs, _, _ => by
    rw [rewritten, forest, forest, decode_escape (normalizeNewlines_ne_null decode_ne_null),
      ofText_inj, faithfulAll_ofText, normalizeNewlines_eq_iff]
  | .comment cs, _, _ => by
    rw [rewritten, forest, forest, map_withoutNull_of_ne_null map_withoutNull_ne_null]
    exact iff_of_true rfl ⟨trivial, trivial⟩
  | .void start closed, h, hreturn =>
    element_rewritten_eq_iff h (not_mem_void hreturn) _ (iff_of_true rfl ⟨fun _ => nofun, trivial⟩)
  | .raw start content finish, ⟨h, _, _⟩, hreturn => by
    have hnot := not_mem_raw hreturn
    refine element_rewritten_eq_iff h hnot.1 _ ?_
    rw [map_withoutNull_of_ne_null (escape_ne_null map_withoutNull_ne_null), ofText_inj,
      escape_eq_iff, allTextChars_ofText, faithfulAll_ofText]
    exact ⟨fun hplain => ⟨fun _ => hplain, return_not_mem_map_withoutNull hnot.2⟩,
      fun hplain => hplain.1 h.name⟩
  | .element start children finish, ⟨h, hchildren, _⟩, hreturn => by
    have hnot := not_mem_element hreturn
    have hall : ∀ tag ∈ contentTags, tag ∉ rawTextTags := by decide
    refine element_rewritten_eq_iff h hnot.1 _ ?_
    rw [forestAll_rewritten_eq_iff hchildren hnot.2]
    exact ⟨fun hf => ⟨fun hmem => absurd hmem (hall _ h.name), hf⟩, And.right⟩

theorem forestAll_rewritten_eq_iff : ∀ {sources : List Source}, SoundAll sources →
    '\r' ∉ allChars sources →
    (forestAll (rewrittenAll sources) = forestAll sources ↔ FaithfulAll (forestAll sources))
  | [], _, _ => iff_of_true rfl trivial
  | s :: sources, ⟨h, _, hsources⟩, hreturn => by
    rw [allChars, List.mem_append, not_or] at hreturn
    rw [rewrittenAll, forestAll, forestAll, faithfulAll_append,
      ← forest_rewritten_eq_iff h hreturn.1, ← forestAll_rewritten_eq_iff hsources hreturn.2]
    exact ⟨fun heq => List.append_inj heq (length_forest_rewritten s),
      fun ⟨hs, hrest⟩ => by rw [hs, hrest]⟩

end

end Source

/-! ## The mark at the front -/

/-- Whether a text begins with the mark that is dropped there. -/
def hasMark (cs : List Char) : Bool :=
  cs.head?.any fun c => c.toNat = 0xFEFF

/-- Whether the first node is text that begins with the mark. -/
def beginsWithMark : List Markup → Bool
  | .text s :: _ => hasMark s.toList
  | _ => false

/-- Nodes that are the same after they are written and read again. -/
def Durable (nodes : List Markup) : Prop :=
  FaithfulAll nodes ∧ beginsWithMark nodes = false

instance (nodes : List Markup) : Decidable (Durable nodes) :=
  inferInstanceAs (Decidable (_ ∧ _))

section

variable {cs rest : List Char}

theorem withoutMark_of_not_hasMark (h : hasMark cs = false) : withoutMark cs = cs := by
  cases cs with
  | nil => rfl
  | cons c cs => rw [withoutMark, if_neg fun hc => by simp [hasMark, hc] at h]

theorem withoutMark_of_hasMark (h : hasMark cs = true) : ∃ c, cs = c :: withoutMark cs := by
  cases cs with
  | nil => cases h
  | cons c cs => exact ⟨c, by rw [withoutMark, if_pos (of_decide_eq_true h)]⟩

theorem withoutMark_suffix (cs : List Char) : withoutMark cs <:+ cs := by
  cases cs with
  | nil => exact List.suffix_refl _
  | cons c cs =>
    rw [withoutMark]
    split
    · exact List.suffix_cons c cs
    · exact List.suffix_refl _

theorem hasMark_of_ends (h : Ends cs) : hasMark cs = false := by
  obtain rfl | ⟨_, rfl⟩ | ⟨_, rfl⟩ := h.cases <;> rfl

theorem withoutMark_append_of_ends (h : Ends rest) :
    withoutMark (cs ++ rest) = withoutMark cs ++ rest := by
  cases cs with
  | nil => exact withoutMark_of_not_hasMark (hasMark_of_ends h)
  | cons c cs =>
    rw [List.cons_append, withoutMark, withoutMark]
    split <;> rfl

theorem normalizeNewlines_withoutMark (cs : List Char) :
    normalizeNewlines (withoutMark cs) = withoutMark (normalizeNewlines cs) := by
  fun_cases normalizeNewlines cs with
  | case1 => rfl
  | case2 rest =>
    rw [withoutMark, if_neg (by decide), normalizeNewlines]
    rfl
  | case3 rest hrest =>
    rw [withoutMark, if_neg (by decide), normalizeNewlines]
    · rfl
    · exact hrest
  | case4 c rest hpair hc =>
    rw [withoutMark, withoutMark]
    split
    · rfl
    · exact normalizeNewlines_cons hc rest

theorem withoutMark_escape (cs : List Char) :
    withoutMark (escape cs) = escape (withoutMark cs) := by
  cases cs with
  | nil => rfl
  | cons c cs =>
    rw [escape, List.flatMap_cons, withoutMark]
    rcases escapeChar_cases c with ⟨-, heq⟩ | ⟨hmem, ⟨next, more, heq⟩, -⟩
    · rw [heq, List.singleton_append, withoutMark]
      split
      · rfl
      · rw [escape, List.flatMap_cons, heq, List.singleton_append]
    · have hmarkup : ∀ c ∈ markupChars, c.toNat ≠ 0xFEFF := by decide
      rw [if_neg (hmarkup c hmem), heq, escape, List.flatMap_cons, heq]
      rfl

/-- Only text without mark and carriage returns stays as it is. -/
theorem normalizeNewlines_withoutMark_eq_iff :
    normalizeNewlines (withoutMark cs) = cs ↔ '\r' ∉ cs ∧ hasMark cs = false := by
  cases hmark : hasMark cs with
  | false => rw [withoutMark_of_not_hasMark hmark, normalizeNewlines_eq_iff, and_iff_left rfl]
  | true =>
    -- the text is shorter without the mark, and line ends do not make it longer
    refine iff_of_false (fun h => ?_) fun h => by cases h.2
    obtain ⟨c, hc⟩ := withoutMark_of_hasMark hmark
    have hlength := congrArg List.length hc
    have hle := normalizeNewlines_length_le (withoutMark cs)
    rw [h] at hle
    rw [List.length_cons] at hlength
    omega

end

namespace Source

variable {sources : List Source}

/-- Pieces of which the first does not begin with the mark. -/
def withoutMarkAll : List Source → List Source
  | .text cs :: rest => .text (withoutMark cs) :: rest
  | sources => sources

theorem withoutMarkAll_of_not_isText (h : ∀ s ∈ sources.head?, s.isText = false) :
    withoutMarkAll sources = sources := by
  rcases sources with _ | ⟨s, rest⟩
  · rfl
  · cases s with
    | text cs => cases h _ rfl
    | _ => rfl

theorem beginsWithMark_of_not_isText (h : ∀ s ∈ sources.head?, s.isText = false) :
    beginsWithMark (forestAll sources) = false := by
  rcases sources with _ | ⟨s, rest⟩
  · rfl
  · cases s with
    | text cs => cases h _ rfl
    | _ => rfl

theorem beginsWithMark_text {cs : List Char} (h : SoundAll (.text cs :: sources)) :
    beginsWithMark (forestAll (.text cs :: sources)) = hasMark (decode false cs) := by
  rw [forestAll, forest]
  cases decode false cs with
  | nil => exact beginsWithMark_of_not_isText (h.2.1 rfl)
  | cons c v =>
    rw [ofText, if_neg (by simp), List.singleton_append, beginsWithMark, String.toList_ofList]

theorem allChars_withoutMarkAll (h : SoundAll sources) :
    allChars (withoutMarkAll sources) = withoutMark (allChars sources) := by
  by_cases hs : ∀ s ∈ sources.head?, s.isText = false
  · have hends := ends_allChars hs ends_nil
    rw [List.append_nil] at hends
    rw [withoutMarkAll_of_not_isText hs, withoutMark_of_not_hasMark (hasMark_of_ends hends)]
  · rcases sources with _ | ⟨_ | _ | _ | _ | _, rest⟩
    case cons.text cs =>
      have hends := ends_allChars (h.2.1 rfl) ends_nil
      rw [List.append_nil] at hends
      exact (withoutMark_append_of_ends hends).symm
    case nil => exact absurd nofun hs
    all_goals exact absurd (fun _ heq => Option.some.inj heq ▸ rfl) hs

theorem soundAll_withoutMarkAll (h : SoundAll sources) : SoundAll (withoutMarkAll sources) := by
  rcases sources with _ | ⟨_ | _ | _ | _ | _, rest⟩
  case cons.text cs =>
    refine ⟨fun hmem => h.1 ?_, h.2⟩
    exact (withoutMark_suffix cs).subset hmem
  all_goals exact h

theorem length_forestAll_rewritten (sources : List Source) :
    (forestAll (rewrittenAll sources)).length = (forestAll sources).length := by
  induction sources with
  | nil => rfl
  | cons s sources ih =>
    rw [rewrittenAll, forestAll, forestAll, List.length_append, List.length_append, ih,
      length_forest_rewritten]

/-- **Markup that is written and read again** is the same exactly if it is durable. -/
theorem forestAll_reread_eq_iff (h : SoundAll sources) (hreturn : '\r' ∉ allChars sources) :
    forestAll (withoutMarkAll (rewrittenAll sources)) = forestAll sources ↔
      Durable (forestAll sources) := by
  rcases sources with _ | ⟨s, rest⟩
  · exact iff_of_true rfl ⟨trivial, rfl⟩
  · cases s with
    | text cs =>
      rw [allChars, List.mem_append, not_or] at hreturn
      have hrest := forestAll_rewritten_eq_iff h.2.2 hreturn.2
      have hlength := length_forestAll_rewritten rest
      -- the mark is not escaped, so it is dropped from the text itself
      have htext :
          (Source.text (withoutMark (escape (normalizeNewlines (decode false cs))))).forest =
            ofText (String.ofList (normalizeNewlines (withoutMark (decode false cs)))) := by
        rw [forest, withoutMark_escape, ← normalizeNewlines_withoutMark, decode_escape]
        exact normalizeNewlines_ne_null fun c hc =>
          decode_ne_null c ((withoutMark_suffix _).subset hc)
      rw [Durable, beginsWithMark_text h, rewrittenAll, rewritten, withoutMarkAll, forestAll, htext,
        forestAll, forest, faithfulAll_append, faithfulAll_ofText, ← hrest, and_right_comm,
        ← normalizeNewlines_withoutMark_eq_iff, ← ofText_inj]
      exact ⟨fun heq => List.append_inj' heq hlength, fun ⟨hv, hr⟩ => by rw [hv, hr]⟩
    | _ =>
      exact (forestAll_rewritten_eq_iff h hreturn).trans ⟨fun hf => ⟨hf, rfl⟩, And.left⟩

end Source

/-- What is written of parsed markup is written markup. -/
theorem Writes.renderAll {sources : List Source} {m : String} (h : Writes sources m) :
    Writes (Source.withoutMarkAll (Source.rewrittenAll sources))
      (renderAll (Source.forestAll sources)) := by
  obtain ⟨hsound, hm⟩ := h
  have hreturn : '\r' ∉ Source.allChars sources := hm ▸ not_mem_normalizeNewlines _
  have hwritten := Source.soundAll_rewritten hsound hreturn
  have hchars := Source.normalizeNewlines_allChars hsound hreturn ends_nil
  rw [List.append_nil, normalizeNewlines, List.append_nil] at hchars
  refine ⟨Source.soundAll_withoutMarkAll hwritten, ?_⟩
  rw [Source.allChars_withoutMarkAll hwritten, Markup.renderAll, String.toList_ofList,
    normalizeNewlines_withoutMark, hchars]

end Markup

namespace Document

variable {L : Type}

/-- **Written markup is parsed to what it stands for, and its tree is the same after it is
    written and parsed again** exactly if no character that is escaped stands in raw text, no
    carriage return in a text or a value, and no mark at the front. -/
theorem parse_toHtml_iff {sources : List Markup.Source} {m : String}
    (h : Markup.Writes sources m) :
    (parse m : Document L).innerMarkup root = Markup.Source.forestAll sources ∧
      ((parse (parse m : Document L).toHtml : Document L).innerMarkup root =
          (parse m : Document L).innerMarkup root ↔
        Markup.Durable ((parse m : Document L).innerMarkup root)) := by
  have hparse : (parse m : Document L).innerMarkup root = Markup.Source.forestAll sources := by
    rw [parse, innerMarkup_ofForest, h.parseFragment_eq]
  have hreparse : (parse (parse m : Document L).toHtml : Document L).innerMarkup root =
      Markup.Source.forestAll
        (Markup.Source.withoutMarkAll (Markup.Source.rewrittenAll sources)) := by
    rw [toHtml, hparse, parse, innerMarkup_ofForest, h.renderAll.parseFragment_eq]
  have hreturn : '\r' ∉ Markup.Source.allChars sources :=
    h.2 ▸ Markup.not_mem_normalizeNewlines _
  rw [hreparse, hparse]
  exact ⟨rfl, Markup.Source.forestAll_reread_eq_iff h.1 hreturn⟩

/-- A page with a piece of each kind. -/
def page : List Markup.Source :=
  [.element ⟨"DIV".toList, [⟨[' '], "id".toList, [], [], "a&amp;b".toList⟩], [' ']⟩
    [.text "x &lt; y".toList, .void ⟨"br".toList, [], []⟩ true, .comment " c ".toList,
      .raw ⟨"style".toList, [], []⟩ "@import url(a.css);".toList ⟨"style".toList, [], []⟩]
    ⟨"div".toList, [], []⟩]

/-- The written form of the page. -/
def pageHtml : String :=
  "<DIV id=\"a&amp;b\" >x &lt; y<br/><!-- c --><style>@import url(a.css);</style></div>"

/-- The page is the same after it is written and parsed again. -/
theorem parse_toHtml_page : Markup.Writes page pageHtml ∧
    (parse (parse pageHtml : Document Unit).toHtml : Document Unit).innerMarkup root =
      (parse pageHtml : Document Unit).innerMarkup root := by
  have hpage : Markup.Writes page pageHtml := by decide +kernel
  have hdurable : Markup.Durable (Markup.Source.forestAll page) := by decide +kernel
  obtain ⟨hparse, hiff⟩ := parse_toHtml_iff (L := Unit) hpage
  exact ⟨hpage, hiff.2 (hparse ▸ hdurable)⟩

/-- The tree of a style sheet with a greater-than sign is another one. -/
theorem toHtml_of_style :
    Markup.Writes [.raw ⟨"style".toList, [], []⟩ "a > b".toList ⟨"style".toList, [], []⟩]
        "<style>a > b</style>" ∧
      (parse (parse "<style>a > b</style>" : Document Unit).toHtml : Document Unit).innerMarkup
        root ≠ (parse "<style>a > b</style>" : Document Unit).innerMarkup root := by
  -- trees that are written in different ways are different
  have hhtml :
      (parse (parse "<style>a > b</style>" : Document Unit).toHtml : Document Unit).toHtml ≠
        (parse "<style>a > b</style>" : Document Unit).toHtml := by decide +kernel
  exact ⟨by decide +kernel, fun h => hhtml (congrArg Markup.renderAll h)⟩

end Document

end DataBinding
