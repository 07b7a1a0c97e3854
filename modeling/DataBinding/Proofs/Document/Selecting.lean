/-
  What a selector finds.

  `Selects` says which elements a selector matches, and `InOrder` lists nodes with
  everything below them in document order, both by rules.

  * `InOrder.unique` and `InOrder.mem_iff`: there is one such list at most, and in it is
    what walks down come to; `Acyclic.exists_inOrder`: in a document without loops there
    is one, and no node is in it twice;
  * `Becomes.kind?_eq`: a node that a change leaves there is of the kind it was, so that
    the handle of the document node does not come to stand for an element
    (`element?_root`);
  * `querySelector?_first`: in every document without loops that a run leads to, a
    selector finds the first node that it selects of those attached below the document
    node.
-/
import Mathlib.Data.List.Induction
import DataBinding.Proofs.Document.Leaves
import DataBinding.Proofs.Document.Numbering
import DataBinding.Proofs.Document.Rooted

namespace DataBinding

/-! ## Selectors -/

/-- The runs outside a class of characters are the pieces between these that are not
    empty. -/
theorem Text.runsOutside_eq (p : Char → Bool) : ∀ (cs current : List Char),
    runsOutside p current cs = (cs.splitOnPPrepend p current).filter fun piece => !piece.isEmpty
  | [], current => by
    rw [runsOutside, List.splitOnPPrepend]
    cases current <;> simp
  | c :: cs, current => by
    rw [runsOutside, List.splitOnPPrepend_cons_eq_if, runsOutside_eq p cs, runsOutside_eq p cs,
      ← List.splitOnP_eq_splitOnPPrepend]
    split
    · cases current <;> simp
    · rfl

/-- A word of a text is a piece between blanks that is not empty. -/
theorem Text.mem_words_iff {w s : String} :
    w ∈ words s ↔ w ≠ "" ∧ w.toList ∈ s.toList.splitOnP isBlank := by
  rw [words, runsOutside_eq, ← List.splitOnP_eq_splitOnPPrepend, List.mem_map]
  constructor
  · rintro ⟨piece, hpiece, rfl⟩
    obtain ⟨hmem, hne⟩ := List.mem_filter.1 hpiece
    rw [String.toList_ofList]
    exact ⟨fun h => by simp_all, hmem⟩
  · rintro ⟨hne, hmem⟩
    exact ⟨w.toList, List.mem_filter.2 ⟨hmem, by simpa using hne⟩, String.ofList_toList⟩

/-- The elements that a selector matches, by the characters of the selector without the
    blanks at either end. -/
inductive Selects : List Char → Element → Prop where
  /-- The id is the text after `#`. -/
  | id {s : List Char} {e : Element}
    (hid : Keyed.get? e.attributes "id" = some (String.ofList s)) : Selects ('#' :: s) e
  /-- The text after `.` is a word of the class: a piece of it between white space. -/
  | word {s : List Char} {e : Element} {words : String} (hs : s ≠ [])
    (hwords : Keyed.get? e.attributes "class" = some words)
    (hmem : s ∈ words.toList.splitOnP Text.isBlank) : Selects ('.' :: s) e
  /-- The tag is the selector, but for the case of ASCII letters. -/
  | tag {s : List Char} {e : Element} (hs : s ≠ []) (hid : s.head? ≠ some '#')
    (hword : s.head? ≠ some '.') (htag : Text.lower e.tag = Text.lower (String.ofList s)) :
    Selects s e

/-- A selector is read as what it selects. -/
theorem selects_iff {text : String} {e : Element} :
    Selects (Text.trimChars text.toList) e ↔
      ∃ selector, Selector.ofText? text = some selector ∧ selector.matchesElement e = true := by
  unfold Selector.ofText?
  generalize Text.trimChars text.toList = cs
  split
  next =>
    refine ⟨fun h => ?_, nofun⟩
    cases h with
    | tag hs => exact absurd rfl hs
  next s =>
    simp only [Option.some.injEq, exists_eq_left', Selector.matchesElement, beq_iff_eq]
    refine ⟨fun h => ?_, .id⟩
    cases h with
    | id hid => exact hid
    | tag _ hid => exact absurd rfl hid
  next s =>
    simp only [Option.some.injEq, exists_eq_left', Selector.matchesElement, Option.any_eq_true,
      List.contains_iff_mem, Text.mem_words_iff, String.toList_ofList]
    constructor
    · intro h
      cases h with
      | word hs hwords hmem => exact ⟨_, hwords, fun h => hs (by simpa using h), hmem⟩
      | tag _ _ hword => exact absurd rfl hword
    · rintro ⟨words, hwords, hs, hmem⟩
      exact .word (fun h => hs (by rw [h])) hwords hmem
  next hs hid hword =>
    simp only [Option.some.injEq, exists_eq_left', Selector.matchesElement, beq_iff_eq]
    constructor
    · intro h
      cases h with
      | id => exact absurd rfl (hid _)
      | word => exact absurd rfl (hword _)
      | tag _ _ _ htag => exact htag
    · refine .tag hs (fun h => ?_) fun h => ?_
      · obtain ⟨rest, hrest⟩ := List.head?_eq_some_iff.1 h
        exact hid rest hrest
      · obtain ⟨rest, hrest⟩ := List.head?_eq_some_iff.1 h
        exact hword rest hrest

namespace Document

open Relation (ReflTransGen TransGen)
open Outline (preorderAll)

variable {L : Type} {d d' : Document L} {x p : NodeId}

/-! ## Document order -/

/-- Nodes with everything below them, in document order: each before what is below it,
    and all of this before the next one. -/
inductive InOrder (d : Document L) : List NodeId → List NodeId → Prop
  /-- No nodes. -/
  | nil : InOrder d [] []
  /-- A node, what is below its children, and the nodes after it. -/
  | cons {x : NodeId} {rest below after : List NodeId} (hbelow : d.InOrder (d.children x) below)
    (hafter : d.InOrder rest after) : d.InOrder (x :: rest) (x :: below ++ after)

namespace InOrder

variable {ids more nodes others : List NodeId}

/-- There is one list at most. -/
theorem unique (h : d.InOrder ids nodes) (h' : d.InOrder ids others) : others = nodes := by
  induction h generalizing others with
  | nil =>
    cases h'
    rfl
  | cons _ _ ihbelow ihafter =>
    cases h' with
    | cons hbelow hafter => rw [ihbelow hbelow, ihafter hafter]

theorem append (h : d.InOrder ids nodes) (h' : d.InOrder more others) :
    d.InOrder (ids ++ more) (nodes ++ others) := by
  induction h with
  | nil => exact h'
  | cons hbelow _ _ ihafter =>
    rw [List.append_assoc]
    exact .cons hbelow ihafter

/-- What is in the list are the nodes that walks down come to. -/
theorem mem_iff (h : d.InOrder ids nodes) :
    x ∈ nodes ↔ ∃ a ∈ ids, ReflTransGen d.Child a x := by
  induction h with
  | nil => simp
  | @cons a rest below after _ _ ihbelow ihafter =>
    have hfirst : ReflTransGen d.Child a x ↔ x = a ∨ x ∈ below := by
      rw [ReflTransGen.cases_head_iff, ihbelow, eq_comm]
      rfl
    rw [List.mem_append, List.mem_cons, ihafter, List.exists_mem_cons_iff, hfirst]

/-- The nodes of outlines, if those of each of them are in order. -/
theorem preorderAll {os : List Outline} (h : ∀ o ∈ os, d.InOrder [o.id] o.preorder) :
    d.InOrder (os.map Outline.id) (preorderAll os) := by
  induction os with
  | nil => exact .nil
  | cons o os ih =>
    obtain ⟨hfirst, hrest⟩ := List.forall_mem_cons.1 h
    exact hfirst.append (ih hrest)

/-- A single node is listed before what is below it. -/
theorem of_singleton (h : d.InOrder [x] nodes) :
    ∃ below, nodes = x :: below ∧ d.InOrder (d.children x) below := by
  cases h with
  | cons hbelow hafter =>
    cases hafter
    exact ⟨_, List.append_nil _, hbelow⟩

/-- What is below a node. -/
theorem mem_children_iff (h : d.InOrder (d.children p) nodes) :
    x ∈ nodes ↔ TransGen d.Child p x := by
  rw [h.mem_iff, TransGen.head'_iff]
  rfl

end InOrder

/-- The nodes of an outline are in document order. -/
theorem Reads.inOrder {o : Outline} (h : d.Reads o) : d.InOrder [o.id] o.preorder := by
  induction h with
  | @node id parent content children listeners hnode hchildren ih =>
    have hbelow : d.InOrder (d.children id) (preorderAll children) := by
      rw [children_eq hnode]
      exact .preorderAll ih
    have hnode := InOrder.cons hbelow .nil
    rwa [List.append_nil] at hnode

/-- In a document without loops the nodes below a node can be listed, and no node is
    listed twice. -/
theorem Acyclic.exists_inOrder (h : d.Acyclic) (hd : d.Linked) (x : NodeId) :
    ∃ o below, d.outline? x = some o ∧ o.preorder = x :: below ∧
      d.InOrder (d.children x) below ∧ below.Nodup := by
  by_cases hx : d.Live x
  · obtain ⟨o, ho⟩ := Option.isSome_iff_exists.1 (h.readable x)
    obtain ⟨hreads, rfl⟩ := hd.reads hx ho
    obtain ⟨below, hpreorder, hbelow⟩ := hreads.inOrder.of_singleton
    have hnodup := hreads.nodup_preorder hd
    rw [hpreorder] at hnodup
    exact ⟨o, below, ho, hpreorder, hbelow, (List.nodup_cons.1 hnodup).2⟩
  · have hnone := not_live_iff.1 hx
    refine ⟨.node x none [], [], ?_, rfl, ?_, List.nodup_nil⟩
    · rw [outline?, outlineWithin?, hnone]
    · rw [children, hnone]
      exact .nil

/-! ## Nodes keep their kind -/

theorem kind?_alloc (h : d.Pooled) (hx : d.Live x) (content : NodeContent) :
    (d.alloc content).2.kind? x = d.kind? x := by
  have hne : x ≠ (d.alloc content).1 := fun heq => h.not_live_alloc content (heq ▸ hx)
  rw [kind?, h.node?_alloc, if_neg hne, kind?]

theorem kind?_append (h : d.Linked) (parent child : NodeId) :
    (d.append parent child).2.kind? x = d.kind? x := by
  obtain ⟨e, he⟩ | ⟨-, d', -, -, -, hd', -, hmoved⟩ := append_cases h parent child
  · rw [he]
  · rw [hd', kind?, hmoved, Option.map_map]
    rfl

theorem live_of_kind?_eq (hx : d.Live x) (h : d'.kind? x = d.kind? x) : d'.Live x := by
  rw [kind?, kind?] at h
  rw [Live, ← Option.isSome_map, h, Option.isSome_map]
  exact hx

mutual

theorem kind?_insertNode (parent : NodeId) : ∀ (m : Markup) {d : Document L}, d.Joined →
    d.Live x → (d.insertNode parent m).2.kind? x = d.kind? x
  | .text s, d, hd, hx => by
    rw [insertNode, kind?_append (hd.alloc (.text s)).linked, kind?_alloc hd.pooled hx]
  | .comment s, d, hd, hx => by
    rw [insertNode, kind?_append (hd.alloc (.comment s)).linked, kind?_alloc hd.pooled hx]
  | .element tag attributes children, d, hd, hx => by
    have hmade := kind?_alloc hd.pooled hx (.element ⟨tag, attributes, none⟩)
    have hjoined := hd.alloc (.element ⟨tag, attributes, none⟩)
    have hforest := kind?_insertForest (d.alloc (.element ⟨tag, attributes, none⟩)).1 children
      hjoined (live_of_kind?_eq hx hmade)
    have hjoined' := hjoined.insertForest (d.alloc (.element ⟨tag, attributes, none⟩)).1 children
    rw [insertNode_element]
    split
    next d₁ heq =>
      rw [heq] at hforest hjoined'
      exact (kind?_append hjoined'.linked parent _).trans (hforest.trans hmade)
    next => exact hforest.trans hmade

/-- Adding nodes of markup leaves the kinds of the nodes that are there. -/
theorem kind?_insertForest (parent : NodeId) : ∀ (forest : List Markup) {d : Document L},
    d.Joined → d.Live x → (d.insertForest parent forest).2.kind? x = d.kind? x
  | [], d, _, _ => rfl
  | m :: rest, d, hd, hx => by
    have hnode := kind?_insertNode parent m hd hx
    have hjoined := hd.insertNode parent m
    rw [insertForest]
    split
    next d₁ heq =>
      rw [heq] at hnode hjoined
      exact (kind?_insertForest parent rest hjoined (live_of_kind?_eq hx hnode)).trans hnode
    next => exact hnode

end

/-- Clearing the children of a node leaves the kinds of the nodes that are not under it. -/
theorem kind?_clearChildren (h : d.Linked) {node : Node L} (hp : d.node? p = some node)
    (hx : ¬ d.Under p x) : (d.clearChildren p).kind? x = d.kind? x := by
  obtain ⟨gone, hlive, hgone, heq, -⟩ := clearChildren_eq h hp
  have hlive' : (d.childless p).AllLive gone :=
    ⟨hlive.1, fun y hy => (live_childless y).2 (hlive.2 y hy)⟩
  rw [kind?, heq, node?_vacateAll hlive', if_neg fun hmem => hx ((hgone x).1 hmem), childless,
    node?_update, kind?]
  split
  next hxp =>
    rw [hxp, Option.map_map]
    rfl
  next => rfl

/-- **A node** that is there before a change other than a move and after it is of the same
    kind. -/
theorem Becomes.kind?_eq (hb : Becomes d d') (hd : d.Joined) (hx : d.Live x) (hx' : d'.Live x) :
    d'.kind? x = d.kind? x := by
  cases hb with
  | refused => rfl
  | made content => exact kind?_alloc hd.pooled hx content
  | @changed id f _ _ hkind _ =>
    rw [kind?, node?_update, kind?]
    split
    next heq =>
      subst heq
      obtain ⟨node, hnode⟩ := live_iff.1 hx
      rw [hnode, Option.map_some, Option.map_some, Option.map_some, hkind node hnode]
    next => rfl
  | @refilled p node hp hholds forest =>
    by_cases hu : d.Under p x
    · -- its slot is vacated once, and so the handle stale
      have htrace := (trace_clearChildren hd p).trans
        (trace_insertForest p forest (d.clearChildren p))
      refine absurd hx' (htrace.not_live hd.pooled hx ?_)
      rw [vacations_append, vacations_clearEvents hd.linked hu, vacations_forestEvents]
    · have hcleared := kind?_clearChildren hd.linked hp hu
      rw [kind?_insertForest p forest (hd.clear p) (live_of_kind?_eq hx hcleared), hcleared]

theorem kind?_apply (hd : d.Joined) (e : Edit L) (hx : d.Live x) (hx' : (e.apply d).2.Live x) :
    (e.apply d).2.kind? x = d.kind? x := by
  cases e with
  | append parent child => exact kind?_append hd.linked parent child
  | _ =>
    refine (Edit.becomes d _ ?_).kind?_eq hd hx hx'
    nofun

/-! ## The document node -/

/-- The handle of the document node resolves as long as its slot is not vacated, and no
    longer, unless it is vacated very often. -/
theorem live_root_iff {forest : List Markup} {edits : List (Edit L)}
    (hfew : vacations root.index (events forest edits) < UInt32.size) :
    ((ofForest forest).run edits).Live root ↔ vacations root.index (events forest edits) = 0 := by
  have hrecorded := (trace_events forest edits).recorded
  have hevents : events forest edits = [] ++ .taken root ::
      (forestEvents root forest (empty : Document L) ++ (ofForest forest).runEvents edits) := rfl
  rw [hevents, List.nil_append, vacations_taken] at hfew ⊢
  constructor
  · intro hlive
    exact Nat.eq_zero_of_dvd_of_lt ((hrecorded.live_iff hevents).1 hlive).2 hfew
  · exact fun hzero => ((hrecorded.taken [] root _ hevents).2 hzero).1

/-- **The handle of the document node** stands for the document node or for nothing, unless
    its slot was vacated very often. -/
theorem kind?_root (forest : List Markup) (edits : List (Edit L))
    (hfew : vacations root.index (events forest edits) < UInt32.size)
    (hlive : ((ofForest forest).run edits).Live root) :
    ((ofForest forest).run edits).kind? root = some .document := by
  induction edits using List.reverseRecOn with
  | nil => exact (treelike_ofForest forest).kind
  | append_singleton edits e ih =>
    have hzero := (live_root_iff hfew).1 hlive
    rw [events_append, vacations_append, Nat.add_eq_zero_iff] at hzero
    have hfew' : vacations root.index (events forest edits) < UInt32.size := by
      rw [hzero.1]
      exact Nat.zero_lt_of_lt hfew
    have hlive' := (live_root_iff hfew').2 hzero.1
    rw [run_concat] at hlive ⊢
    exact (kind?_apply ((joined_ofForest forest).run edits) e hlive' hlive).trans (ih hfew' hlive')

theorem element?_root (h : d.Live root → d.kind? root = some .document) :
    d.element? root = none := by
  by_cases hlive : d.Live root
  · obtain ⟨node, hnode, hkind⟩ := kind?_eq_some.1 (h hlive)
    rw [element?, hnode, Option.bind_some]
    cases hcontent : node.content with
    | document => rfl
    | _ => rw [hcontent] at hkind; cases hkind
  · rw [element?, not_live_iff.1 hlive, Option.bind_none]

/-! ## Searches -/

/-- The node is an element that the selector matches. -/
def Selected (d : Document L) (text : String) (x : NodeId) : Prop :=
  ∃ e, d.element? x = some e ∧ Selects (Text.trimChars text.toList) e

theorem selected_iff {text : String} : d.Selected text x ↔
    ∃ selector, Selector.ofText? text = some selector ∧ d.matchesNode selector x = true := by
  simp only [Selected, selects_iff, matchesNode, Option.any_eq_true]
  constructor
  · rintro ⟨e, he, selector, hselector, hmatch⟩
    exact ⟨selector, hselector, e, he, hmatch⟩
  · rintro ⟨selector, hselector, e, he, hmatch⟩
    exact ⟨e, he, selector, hselector, hmatch⟩

/-- What a selector finds among nodes: the first of them that it selects. -/
structure FindsFirst (d : Document L) (nodes : List NodeId) (text : String) : Prop where
  /-- A blank selector finds nothing. -/
  blank : Text.trim text = "" → d.querySelector? text = none
  /-- The node that is found is selected, and none before it is. -/
  found : ∀ x, d.querySelector? text = some x ↔ ∃ before after,
    nodes = before ++ x :: after ∧ d.Selected text x ∧ ∀ y ∈ before, ¬ d.Selected text y
  /-- Nothing is found if nothing is selected, and only then. -/
  missed : d.querySelector? text = none ↔ ∀ x ∈ nodes, ¬ d.Selected text x

/-- The nodes attached below the document node, in document order. -/
structure Attached (d : Document L) (nodes : List NodeId) : Prop where
  /-- They are in document order. -/
  order : d.InOrder (d.children root) nodes
  /-- No other list of them is. -/
  only : ∀ others, d.InOrder (d.children root) others → others = nodes
  /-- No node is there twice. -/
  nodup : nodes.Nodup
  /-- They are what is below the document node. -/
  mem_iff : ∀ x, x ∈ nodes ↔ TransGen d.Child root x
  /-- Their handles resolve. -/
  live : ∀ x ∈ nodes, d.Live x

/-- A blank selector selects nothing. -/
theorem not_selected_of_blank {text : String} (h : Text.trim text = "") : ¬ d.Selected text x := by
  rintro ⟨e, -, hselects⟩
  rw [String.ofList_eq_empty_iff.1 h] at hselects
  cases hselects with
  | tag hs => exact hs rfl

/-- Where there is an outline, the search ends with the first node in it that is
    selected. -/
theorem querySelector?_eq_find? {o : Outline} (ho : d.outline? root = some o) (text : String) :
    ∃ p : NodeId → Bool, (∀ x, p x = true ↔ d.Selected text x) ∧
      d.querySelector? text = o.preorder.find? p := by
  simp only [selected_iff]
  unfold querySelector?
  cases Selector.ofText? text with
  | none => exact ⟨fun _ => false, by simp, (List.find?_eq_none.2 (by simp)).symm⟩
  | some selector =>
    refine ⟨d.matchesNode selector, by simp, ?_⟩
    rw [Option.bind_some, search?_eq ho, Option.join_some]

theorem findsFirst_of_find? {nodes : List NodeId} {text : String} {p : NodeId → Bool}
    (hp : ∀ x, p x = true ↔ d.Selected text x) (hquery : d.querySelector? text = nodes.find? p) :
    d.FindsFirst nodes text := by
  refine ⟨fun hblank => ?_, fun x => ?_, ?_⟩
  · rw [hquery, List.find?_eq_none]
    exact fun x _ hx => not_selected_of_blank hblank ((hp x).1 hx)
  · have hnone : ∀ before : List NodeId, (∀ y ∈ before, (!p y) = true) ↔
        ∀ y ∈ before, ¬ d.Selected text y := fun before => by simp [← hp]
    rw [hquery, List.find?_eq_some_iff_append]
    constructor
    · rintro ⟨hx, before, after, heq, hbefore⟩
      exact ⟨before, after, heq, (hp x).1 hx, (hnone before).1 hbefore⟩
    · rintro ⟨before, after, heq, hx, hbefore⟩
      exact ⟨(hp x).2 hx, before, after, heq, (hnone before).2 hbefore⟩
  · rw [hquery, List.find?_eq_none]
    simp only [hp]

/-- **A selector finds the first match in document order.**  In every document without
    loops that a run leads to, the nodes attached below the document node are listed in
    document order, and every selector finds the first node that it selects of the document
    node and these, and nothing else.  Unless its slot was vacated very often, the handle
    of the document node stands for no element, so that only the nodes below it are
    found. -/
theorem querySelector?_first (forest : List Markup) (edits : List (Edit L))
    (hacyclic : ((ofForest forest).run edits).Acyclic) :
    ∃ nodes, ((ofForest forest).run edits).Attached nodes ∧
      (∀ text, ((ofForest forest).run edits).FindsFirst (root :: nodes) text) ∧
      (vacations root.index (events forest edits) < UInt32.size →
        (((ofForest forest).run edits).Live root →
          ((ofForest forest).run edits).kind? root = some .document) ∧
        ∀ text, ((ofForest forest).run edits).FindsFirst nodes text) := by
  have hlinked := ((joined_ofForest forest).run edits).linked
  have hkind := kind?_root forest edits
  generalize (ofForest forest).run edits = d at *
  obtain ⟨o, nodes, ho, hpreorder, horder, hnodup⟩ := hacyclic.exists_inOrder hlinked root
  have hmem : ∀ x, x ∈ nodes ↔ TransGen d.Child root x := fun x => horder.mem_children_iff
  have hlive : ∀ x ∈ nodes, d.Live x := fun x hx => by
    obtain ⟨a, -, hax⟩ := TransGen.tail'_iff.1 ((hmem x).1 hx)
    exact hlinked.live_child hax
  have hquery := querySelector?_eq_find? ho
  rw [hpreorder] at hquery
  refine ⟨nodes, ⟨horder, fun _ => horder.unique, hnodup, hmem, hlive⟩, fun text => ?_,
    fun hfew => ⟨hkind hfew, fun text => ?_⟩⟩
  · obtain ⟨p, hp, hquery⟩ := hquery text
    exact findsFirst_of_find? hp hquery
  · obtain ⟨p, hp, hquery⟩ := hquery text
    have hnot : ¬ p root = true := fun hroot => by
      obtain ⟨e, he, -⟩ := (hp root).1 hroot
      rw [element?_root (hkind hfew)] at he
      cases he
    rw [List.find?_cons_of_neg hnot] at hquery
    exact findsFirst_of_find? hp hquery

/-- Two items, the first of them found by its tag, and an element in nothing that is not
    found. -/
theorem querySelector?_first_of_items :
    let forest := [Markup.element "ul" [] [.element "li" [("class", "a b")] []],
      Markup.element "li" [("id", "b")] []]
    let edits : List (Edit Unit) := [.createElement "b"]
    let d := (ofForest forest).run edits
    d.Acyclic ∧ vacations root.index (events forest edits) < UInt32.size ∧
      d.Attached [⟨1, 0⟩, ⟨2, 0⟩, ⟨3, 0⟩] ∧ d.FindsFirst [⟨1, 0⟩, ⟨2, 0⟩, ⟨3, 0⟩] " LI " ∧
      d.querySelector? " LI " = some ⟨2, 0⟩ ∧ d.querySelector? "#b" = some ⟨3, 0⟩ ∧
      (d.element? ⟨4, 0⟩).isSome ∧ d.querySelector? "b" = none := by
  intro forest edits d
  have hacyclic : d.Acyclic := by
    refine acyclic_run fun before e after heq => ?_
    rcases before with _ | ⟨e₁, before⟩
    · obtain ⟨rfl, -⟩ := List.cons.inj heq
      exact id
    · simp [edits] at heq
  have hfew : vacations root.index (events forest edits) < UInt32.size := by decide
  obtain ⟨nodes, hattached, -, hfinds⟩ := querySelector?_first forest edits hacyclic
  have hleaf : ∀ x, d.children x = [] → d.InOrder [x] ([x] ++ []) := fun x hx =>
    .cons (by rw [hx]; exact .nil) .nil
  have hlist : d.InOrder (d.children ⟨1, 0⟩) [⟨2, 0⟩] := hleaf ⟨2, 0⟩ rfl
  have horder : d.InOrder (d.children root) ([⟨1, 0⟩, ⟨2, 0⟩] ++ [⟨3, 0⟩]) :=
    .cons hlist (hleaf ⟨3, 0⟩ rfl)
  obtain rfl := hattached.only _ horder
  refine ⟨hacyclic, hfew, hattached, (hfinds hfew).2 " LI ", ?_⟩
  decide

end Document

end DataBinding
