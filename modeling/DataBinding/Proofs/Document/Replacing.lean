/-
  What is below a node, replaced by nodes of markup.

  A document is `Forested` if its nodes form trees, with texts and comments as leaves.
  A document is `Replaced` from another one if what was below a node has been replaced:
  exactly the nodes that were there are released, and everything else is as it was.

  * `forested_run`: the documents of a run are forested as long as it moves no node to
    itself or to what is below it;
  * `Forested.refill`: the children of a node are cleared and nodes of markup are added;
    the slots of what was released are used again, and no handle is;
  * `setInnerHtml_replaces`: so are those of an element when markup is written to it,
    and those of the document node of a document that is made from markup.
-/
import DataBinding.Proofs.Document.Acyclic
import DataBinding.Proofs.Document.Leaves
import DataBinding.Proofs.Document.Numbering

namespace DataBinding.Document

open Relation (ReflTransGen TransGen)
open Outline (preorderAll mem_preorderAll StandAll)

variable {L : Type} {d d' : Document L} {n : NodeId} {node : Node L} {os os' : List Outline}

/-! ## Trees -/

/-- A document in which slots and links are sound, no node is below itself, and texts
    and comments have nothing below them. -/
structure Forested (d : Document L) : Prop extends Joined d where
  leafy : d.Leafy
  acyclic : d.Acyclic

namespace Forested

theorem empty : (empty : Document L).Forested where
  toJoined := joined_nil.alloc .document
  leafy := Leafy.alloc (fun _ _ hx => by cases hx) joined_nil.pooled .document
  acyclic := acyclic_empty

/-- One change that does not move a node to itself or to what is below it. -/
theorem apply (h : d.Forested) {e : Edit L} (he : ¬ e.Loops d) : (e.apply d).2.Forested where
  toJoined := h.toJoined.apply e
  leafy := h.leafy.apply h.toJoined e
  acyclic := h.acyclic.apply h.toJoined he

/-- The outline of a node that is there. -/
theorem outline (h : d.Forested) (hn : d.node? n = some node) :
    ∃ os, d.outline? n = some (.node n (some node.content) os) ∧
      d.Reads (.node n (some node.content) os) := by
  obtain ⟨o, ho⟩ := Option.isSome_iff_exists.1 (h.acyclic.readable n)
  obtain ⟨hreads, hid⟩ := h.linked.reads (.of_eq hn) ho
  have hread := hreads
  obtain ⟨hnode, -⟩ := hreads
  obtain rfl := hid
  rw [Outline.id, hnode, Option.some.injEq] at hn
  subst hn
  exact ⟨_, ho, hread⟩

end Forested

/-- There is one answer to what is below a node. -/
theorem below_unique {content content' : Option NodeContent}
    (h : d.outline? n = some (.node n content os))
    (h' : d.outline? n = some (.node n content' os')) : os = os' := by
  rw [h, Option.some.injEq, Outline.node.injEq] at h'
  exact h'.2.2

/-- **A run** on a document of markup leaves trees, if it does not move a node to itself
    or to what is below it. -/
theorem forested_run {forest : List Markup} {edits : List (Edit L)}
    (hedits : ∀ before e after, edits = before ++ e :: after →
      ¬ e.Loops ((ofForest forest).run before)) : ((ofForest forest).run edits).Forested where
  toJoined := (joined_ofForest forest).run edits
  leafy := (leafy_ofForest forest).run (joined_ofForest forest) edits
  acyclic := acyclic_run hedits

/-! ## What has been replaced -/

/-- A document in which what was below a node, `os`, has been replaced by `os'`, and
    nothing else is changed. -/
structure Replaced (d d' : Document L) (n : NodeId) (node : Node L) (os os' : List Outline) :
    Prop where
  /-- Slots and links are sound. -/
  joined : d'.Joined
  /-- This was below the node. -/
  before : d.outline? n = some (.node n (some node.content) os)
  /-- These were its descendants, -/
  descendants : ∀ x, x ∈ preorderAll os ↔ TransGen d.Child n x
  /-- each listed once. -/
  nodup : (preorderAll os).Nodup
  /-- This is below it now. -/
  after : d'.outline? n = some (.node n (some node.content) os')
  /-- The node itself has other children, and is as it was otherwise. -/
  here : d'.node? n = some { node with children := os'.map Outline.id }
  /-- All other nodes that were not below it are as they were. -/
  elsewhere : ∀ x, d.Live x → x ≠ n → x ∉ preorderAll os → d'.node? x = d.node? x
  /-- The nodes that have become stale are those that were below it and are no longer. -/
  released : ∀ x, d.Live x → (d'.Stale x ↔ x ∈ preorderAll os ∧ x ∉ preorderAll os')
  /-- The new nodes are those that are below it and were not. -/
  added : ∀ x, d'.Live x → (¬ d.Live x ↔ x ∈ preorderAll os' ∧ x ∉ preorderAll os)
  /-- The number of nodes changes accordingly. -/
  count : d'.nodeCount + (preorderAll os).length = d.nodeCount + (preorderAll os').length

/-- Outlines of new nodes that stand for nodes of markup. -/
structure Sown (d d' : Document L) (os : List Outline) (forest : List Markup) : Prop where
  /-- They are those of the markup, apart from the handles. -/
  stands : StandAll os forest
  /-- Nothing listens on the nodes, and nothing is below texts and comments. -/
  fresh : ∀ o ∈ os, d'.Fresh o
  /-- Their handles did not resolve before. -/
  new : ∀ x ∈ preorderAll os, ¬ d.Live x

/-! ## Children replaced by nodes of markup -/

section

variable {gone new : List NodeId}

/-- Nodes are released, and others are added. -/
theorem Trace.nodeCount_replaced (h : Trace d (gone.map .vacated ++ new.map .taken) d')
    (hd : d.Pooled) : d'.nodeCount + gone.length = d.nodeCount + new.length := by
  have hcount := h.nodeCount_eq hd
  rw [List.countP_append, List.countP_append] at hcount
  simpa [List.countP_map, Function.comp_def, SlotEvent.taken?] using hcount

/-- A slot is vacated once at most, so what was below the node is not there again. -/
theorem Trace.not_live_of_under (h : Trace d (d.clearEvents n ++ new.map .taken) d')
    (hd : d.Joined) {x : NodeId} (hx : d.Under n x) : ¬ d'.Live x := by
  have hnone : ∀ ids : List NodeId, vacations x.index (ids.map .taken) = 0 := by
    intro ids
    induction ids with
    | nil => rfl
    | cons id rest ih => rw [List.map_cons, vacations_taken, ih]
  refine h.not_live hd.pooled (hx.live hd.linked) ?_
  rw [vacations_append, vacations_clearEvents hd.linked hx, hnone]

end

/-- Nodes of markup are added where the children of a node have been cleared. -/
theorem Joined.refill (h : d.Joined) (hn : d.node? n = some node)
    (hholds : node.content.holdsChildren = true) (hself : ¬ d.Under n n) (forest : List Markup) :
    ∃ d' os', (d.clearChildren n).insertForest n forest = (.ok (), d') ∧
      Grafted (d.clearChildren n) d' n { node with children := [] } os' ∧
      StandAll os' forest ∧
      forestEvents n forest (d.clearChildren n) = (preorderAll os').map .taken ∧
      Trace d (d.clearEvents n ++ (preorderAll os').map .taken) d' := by
  obtain ⟨hjoined, hhere, -⟩ := h.clearChildren hn hself
  obtain ⟨d', os', hd', hg, hstand⟩ := insertForest_grafted forest hjoined hhere hholds
  have hevents := forestEvents_eq forest hjoined hhere hholds hd' hg
  have hinsert := trace_insertForest n forest (d.clearChildren n)
  rw [hevents, hd'] at hinsert
  exact ⟨d', os', hd', hg, hstand, hevents, (trace_clearChildren h n).trans hinsert⟩

/-- **The children of a node are cleared**, and nodes of markup are added: the document
    reads as these, and only what was there is gone. -/
theorem Forested.refill (h : d.Forested) (hn : d.node? n = some node)
    (hholds : node.content.holdsChildren = true) (forest : List Markup) :
    ∃ d' os os', (d.clearChildren n).insertForest n forest = (.ok (), d') ∧
      Replaced d d' n node os os' ∧ Sown d d' os' forest ∧
      forestEvents n forest (d.clearChildren n) = (preorderAll os').map .taken := by
  have hself := h.acyclic.not_under n
  obtain ⟨-, hhere, hdead, -, helse⟩ := h.toJoined.clearChildren hn hself
  obtain ⟨d', os', hd', hg, hstand, hevents, htrace⟩ := h.toJoined.refill hn hholds hself forest
  obtain ⟨os, hos, hreads⟩ := h.outline hn
  have hunder : ∀ x, d.Under n x ↔ x ∈ preorderAll os := fun x => hreads.under_node_iff
  have hgone : ∀ x ∈ preorderAll os, ¬ d'.Live x := fun x hx =>
    htrace.not_live_of_under h.toJoined ((hunder x).2 hx)
  have hkept : ∀ x, d.Live x → x ≠ n → x ∉ preorderAll os →
      (d.clearChildren n).Live x ∧ d'.node? x = d.node? x := by
    intro x hlive hxn hx
    have hsame := helse x hxn fun hu => hx ((hunder x).1 hu)
    have hlive' : (d.clearChildren n).Live x := by rwa [Live, hsame]
    exact ⟨hlive', (hg.elsewhere x hlive' hxn).trans hsame⟩
  have hnew : ∀ x ∈ preorderAll os', ¬ d.Live x := by
    intro x hx hlive
    obtain ⟨o, ho, hxo⟩ := mem_preorderAll.1 hx
    by_cases hxn : x = n
    · subst hxn
      exact hg.new x hx (.of_eq hhere)
    by_cases hxos : x ∈ preorderAll os
    · exact hgone x hxos ((hg.fresh o ho).reads.live_of_mem hxo)
    · exact hg.new x hx (hkept x hlive hxn hxos).1
  have hacyclic : d'.Acyclic := by
    have := (Becomes.refilled hn hholds forest).acyclic h.acyclic h.toJoined
    rwa [hd'] at this
  have hnodup : (preorderAll os).Nodup :=
    (List.nodup_cons.1 (hreads.nodup_preorder h.linked)).2
  have hcount :
      d'.nodeCount + (preorderAll os).length = d.nodeCount + (preorderAll os').length := by
    have hperm : (d.released n).Perm (preorderAll os) :=
      (List.perm_ext_iff_of_nodup (allLive_released h.linked n).1 hnodup).2 fun x =>
        (mem_released h.linked).trans (hunder x)
    rw [← hperm.length_eq]
    exact htrace.nodeCount_replaced h.pooled
  refine ⟨d', os, os', hd', ⟨hg.joined, hos, fun x => ?_, hnodup, ?_, hg.here, ?_, ?_, ?_, hcount⟩,
    ⟨hstand, hg.fresh, hnew⟩, hevents⟩
  · rw [← hunder, h.acyclic.under_iff]
  · exact hacyclic.outline?_eq hg.joined.linked (.node hg.here fun o ho => (hg.fresh o ho).reads)
  · exact fun x hlive hxn hx => (hkept x hlive hxn hx).2
  · refine fun x hlive => ⟨fun hstale => ⟨?_, fun hx => hnew x hx hlive⟩, fun hx => ?_⟩
    · by_contra hx
      by_cases hxn : x = n
      · exact hstale.live (hxn ▸ .of_eq hg.here)
      · exact hstale.live (by rwa [Live, (hkept x hlive hxn hx).2])
    · exact stale_of_not_live (hgone x hx.1)
  · refine fun x hlive => ⟨fun hnot => ⟨?_, fun hx => hgone x hx hlive⟩, fun hx => hnew x hx.1⟩
    exact (hg.only x hlive).resolve_left fun hcleared => hdead x hnot hcleared

/-- Everything below an element is replaced by nodes of markup. -/
theorem Forested.setInner (h : d.Forested) (hn : d.node? n = some node)
    (hkind : node.content.kind = .element) (forest : List Markup) :
    ∃ d' os os', d.setInner n forest = (.ok (), d') ∧ Replaced d d' n node os os' ∧
      Sown d d' os' forest ∧ ∀ x ∈ preorderAll os', .taken x ∈ d.innerEvents n forest := by
  obtain ⟨parent, children, content, listeners⟩ := node
  cases content with
  | element e =>
    obtain ⟨d', os, os', hd', hreplaced, hsown, hevents⟩ := h.refill hn rfl forest
    refine ⟨d', os, os', ?_, hreplaced, hsown, fun x hx => ?_⟩
    · rw [Document.setInner, hn]
      exact hd'
    · rw [innerEvents, element?, hn, Option.bind_some, NodeContent.element?, Option.elim_some,
        hevents]
      exact List.mem_append_right _ (List.mem_map_of_mem hx)
  | _ => cases hkind

/-! ## Documents of markup -/

/-- The nodes of a document of markup are below its document node, and have the first
    handles in document order. -/
theorem ofForest_sown (forest : List Markup) :
    ∃ os, Replaced (empty : Document L) (ofForest forest) root (isolated .document) [] os ∧
      Sown (empty : Document L) (ofForest forest) os forest ∧
      preorderAll os = (List.range' 1 (Markup.sizeAll forest)).map fun i => ⟨i, 0⟩ := by
  have hroot : (empty : Document L).node? root = some (isolated .document) := rfl
  obtain ⟨d', os, os', hd', hreplaced, hsown, hevents⟩ := Forested.empty.refill hroot rfl forest
  have hclear : (empty : Document L).clearChildren root = empty := by rfl
  rw [hclear] at hd' hevents
  obtain rfl : ofForest forest = d' := congrArg Prod.snd hd'
  have hbefore : (empty : Document L).outline? root = some (.node root (some .document) []) := rfl
  obtain rfl := below_unique hbefore hreplaced.before
  refine ⟨os', hreplaced, hsown, ?_⟩
  have htrace := trace_insertForest root forest (empty : Document L)
  rw [hevents] at htrace
  obtain ⟨-, -, hnumbers⟩ := htrace.numbered rfl fun e he => by
    obtain ⟨x, -, rfl⟩ := List.mem_map.1 he
    rfl
  rw [List.length_map, Outline.length_of_standAll hsown.stands] at hnumbers
  refine List.map_injective_iff.2 (fun _ _ heq => SlotEvent.taken.inj heq) (hnumbers.trans ?_)
  rw [List.map_map]
  rfl

/-- **Markup is written exactly.**  A document that is made from markup has the nodes of
    the markup below its document node, and nothing else; their handles are the first, in
    document order.  Whatever has been done to a document, if no node was moved to itself
    or to what is below it, writing markup to an element succeeds and puts new nodes, which
    stand for the markup, in the place of everything that was below it; their handles have
    not been given out before, unless a slot was vacated very often. -/
theorem setInnerHtml_replaces (markup : String) :
    (∃ os, Replaced (empty : Document L) (parse markup) root (isolated .document) [] os ∧
      Sown (empty : Document L) (parse markup) os (Markup.parseFragment markup) ∧
      preorderAll os =
        (List.range' 1 (Markup.sizeAll (Markup.parseFragment markup))).map fun i => ⟨i, 0⟩) ∧
    ∀ (forest : List Markup) (edits : List (Edit L)),
      (∀ before e after, edits = before ++ e :: after → ¬ e.Loops ((ofForest forest).run before)) →
      ∀ n node, ((ofForest forest).run edits).node? n = some node → node.content.kind = .element →
        ∃ d' os os', ((ofForest forest).run edits).setInnerHtml n markup = (.ok (), d') ∧
          Replaced ((ofForest forest).run edits) d' n node os os' ∧
          Sown ((ofForest forest).run edits) d' os' (Markup.parseFragment markup) ∧
          d'.nodeCount + (preorderAll os).length =
            ((ofForest forest).run edits).nodeCount + Markup.sizeAll (Markup.parseFragment markup) ∧
          ((∀ i, vacations i (events forest
              (edits ++ [.setInner n (Markup.parseFragment markup)])) < UInt32.size) →
            ∀ x ∈ preorderAll os', .taken x ∉ events forest edits) := by
  refine ⟨ofForest_sown _, fun forest edits hedits n node hn hkind => ?_⟩
  obtain ⟨d', os, os', hd', hreplaced, hsown, htaken⟩ :=
    (forested_run hedits).setInner hn hkind (Markup.parseFragment markup)
  refine ⟨d', os, os', hd', hreplaced, hsown, ?_, fun hfew x hx => ?_⟩
  · rw [hreplaced.count, Outline.length_of_standAll hsown.stands]
  · exact not_taken_before hfew (htaken x hx)

/-- A text and an element with a listener are replaced, after a node has been moved into
    that element. -/
theorem setInnerHtml_replaces_of_listened :
    let forest := [Markup.element "p" [] [.text "a", .element "b" [] [.text "c"]]]
    let edits : List (Edit Unit) :=
      [.addListener ⟨3, 0⟩ "click" (), .createElement "i", .append ⟨3, 0⟩ ⟨5, 0⟩]
    (∀ before e after, edits = before ++ e :: after →
      ¬ e.Loops ((ofForest forest).run before)) ∧
      ∃ d' os', ((ofForest forest).run edits).setInnerHtml ⟨1, 0⟩ "<em>x</em>" = (.ok (), d') ∧
        StandAll os' [.element "em" [] [.text "x"]] ∧
        d'.outline? ⟨1, 0⟩ = some (.node ⟨1, 0⟩ (some (.element ⟨"p", [], none⟩)) os') ∧
        d'.nodeCount = 4 ∧ d'.Stale ⟨3, 0⟩ ∧
        d'.node? root = ((ofForest forest).run edits).node? root := by
  intro forest edits
  have hedits : ∀ before e after, edits = before ++ e :: after →
      ¬ e.Loops ((ofForest forest).run before) := by
    intro before e after heq
    rcases before with _ | ⟨e₁, _ | ⟨e₂, _ | ⟨e₃, before⟩⟩⟩
    · obtain ⟨rfl, -⟩ := List.cons.inj heq
      exact id
    · obtain ⟨-, heq⟩ := List.cons.inj heq
      obtain ⟨rfl, -⟩ := List.cons.inj heq
      exact id
    · -- the element that is moved is new, and has no children
      simp only [edits, List.cons_append, List.nil_append, List.cons.injEq] at heq
      obtain ⟨rfl, rfl, rfl, -⟩ := heq
      rintro ⟨-, hreach⟩
      rcases ReflTransGen.cases_head hreach with heq | ⟨c, hc, -⟩
      · exact absurd heq (by decide)
      · exact absurd hc (List.not_mem_nil : c ∉ [])
    · simp [edits] at heq
  have hnode : ((ofForest forest).run edits).node? ⟨1, 0⟩ =
      some ⟨some root, [⟨2, 0⟩, ⟨3, 0⟩], .element ⟨"p", [], none⟩, []⟩ := by rfl
  have hparsed : Markup.parseFragment "<em>x</em>" = [.element "em" [] [.text "x"]] := by rfl
  obtain ⟨d', os, os', hd', hreplaced, hsown, hcount, -⟩ :=
    (setInnerHtml_replaces "<em>x</em>").2 forest edits hedits ⟨1, 0⟩ _ hnode rfl
  have hbefore : (((ofForest forest).run edits).outline? ⟨1, 0⟩).map Outline.preorder =
      some [⟨1, 0⟩, ⟨2, 0⟩, ⟨3, 0⟩, ⟨4, 0⟩, ⟨5, 0⟩] := by decide +kernel
  rw [hreplaced.before, Option.map_some, Option.some.injEq] at hbefore
  have hos : preorderAll os = [⟨2, 0⟩, ⟨3, 0⟩, ⟨4, 0⟩, ⟨5, 0⟩] := (List.cons.inj hbefore).2
  rw [hparsed] at hsown hcount
  have hlive : ∀ x ∈ [root, ⟨3, 0⟩], ((ofForest forest).run edits).Live x := by
    unfold Live
    decide
  refine ⟨hedits, d', os', hd', hsown.stands, hreplaced.after, ?_, ?_, ?_⟩
  · have hold : ((ofForest forest).run edits).nodeCount = 6 := by decide
    rw [hold, hos] at hcount
    exact Nat.add_right_cancel hcount
  · have hthere := hlive ⟨3, 0⟩ (by decide)
    refine (hreplaced.released _ hthere).2 ⟨?_, fun hmem => hsown.new _ hmem hthere⟩
    rw [hos]
    decide
  · refine hreplaced.elsewhere _ (hlive root (by decide)) (by decide) ?_
    rw [hos]
    decide

end DataBinding.Document
