/-
  What writing to a node changes, and what it leaves alone.

  A change of one node in its place leaves a document that is `Altered` there and
  nowhere else.  Setting the text of an element releases what was under it, at
  most: afterwards there is nothing below it but the text (`TextOnly`), and nodes
  that were not under it are as before (`setText_element`).

  `Becomes` says in general what a change that is not a move can do to a document, and
  `Edit.becomes` that it does one of these things.
-/
import DataBinding.Proofs.Document.Graft

namespace DataBinding.Document

open Relation (ReflTransGen)
open Outline (mem_preorderAll)

variable {L : Type} {d d' : Document L} {n : NodeId}

/-! ## One node changed in its place -/

/-- A document in which one node is another one, and everything else as
    before. -/
structure Altered (d d' : Document L) (n : NodeId) (node : Node L) : Prop where
  joined : d'.Joined
  here : d'.node? n = some node
  elsewhere : ∀ x, x ≠ n → d'.node? x = d.node? x

theorem Altered.live {node : Node L} (h : Altered d d' n node) {x : NodeId} (hx : d.Live x) :
    d'.Live x := by
  by_cases hn : x = n
  · exact hn ▸ .of_eq h.here
  · rwa [Live, h.elsewhere x hn]

theorem Altered.trans {d'' : Document L} {node node' : Node L} (h : Altered d d' n node)
    (h' : Altered d' d'' n node') : Altered d d'' n node' where
  joined := h'.joined
  here := h'.here
  elsewhere x hx := (h'.elsewhere x hx).trans (h.elsewhere x hx)

theorem Joined.altered (h : d.Joined) {node : Node L} {f : Node L → Node L}
    (hn : d.node? n = some node) (hp : ∀ node, (f node).parent = node.parent)
    (hch : ∀ node, (f node).children = node.children) :
    Altered d (d.update n f) n (f node) where
  joined := h.update hp hch
  here := by rw [node?_update, if_pos rfl, hn, Option.map_some]
  elsewhere x hx := by rw [node?_update, if_neg hx]

variable {parent : Option NodeId} {children : List NodeId} {listeners : List (String × L)}

theorem updateElement_altered (h : d.Joined) {e : Element}
    (hn : d.node? n = some ⟨parent, children, .element e, listeners⟩) (operation : NodeOperation)
    (f : Element → Element) :
    ∃ d', d.updateElement n operation f = (.ok (), d') ∧
      Altered d d' n ⟨parent, children, .element (f e), listeners⟩ := by
  rw [updateElement, hn]
  refine ⟨_, rfl, h.altered hn (fun node => ?_) fun node => ?_⟩
  · cases node.content <;> rfl
  · cases node.content <;> rfl

theorem addListener_altered (h : d.Joined) {e : Element}
    (hn : d.node? n = some ⟨parent, children, .element e, listeners⟩) (eventType : String)
    (listener : L) :
    ∃ d', d.addListener n eventType listener = (.ok (), d') ∧
      Altered d d' n ⟨parent, children, .element e, listeners ++ [(eventType, listener)]⟩ := by
  rw [addListener, hn]
  refine ⟨_, rfl, h.altered hn (fun _ => rfl) fun _ => rfl⟩

/-- A text is set in its place. -/
theorem setText_eq_of_text {node : Node L} (hn : d.node? n = some node)
    (hkind : node.content.kind = .text) (s : String) :
    d.setText n s = (.ok (), d.update n fun node => { node with content := .text s }) := by
  obtain ⟨parent, children, content, listeners⟩ := node
  cases content with
  | text t => rw [setText, hn]
  | _ => cases hkind

theorem setText_altered (h : d.Joined) {t : String}
    (hn : d.node? n = some ⟨parent, children, .text t, listeners⟩) (s : String) :
    ∃ d', d.setText n s = (.ok (), d') ∧
      Altered d d' n ⟨parent, children, .text s, listeners⟩ := by
  refine ⟨_, setText_eq_of_text hn rfl s, h.altered hn (fun _ => rfl) fun _ => rfl⟩

/-! ## The text of an element -/

/-- The children of a node are those that a text leaves: one for the text, or
    none, if the text is empty. -/
def TextOnly (d : Document L) (n : NodeId) (children : List NodeId) (s : String) : Prop :=
  s = "" ∧ children = [] ∨ ∃ c, children = [c] ∧ d.node? c = some ⟨some n, [], .text s, []⟩

/-- A document after the children of a node have been cleared. -/
theorem Joined.clearChildren (h : d.Joined) {node : Node L} (hn : d.node? n = some node)
    (hself : ¬ d.Under n n) :
    Joined (d.clearChildren n) ∧ (d.clearChildren n).node? n = some { node with children := [] } ∧
      (∀ x, ¬ d.Live x → ¬ (d.clearChildren n).Live x) ∧
      (∀ x, d.Under n x → ¬ (d.clearChildren n).Live x) ∧
      ∀ x, x ≠ n → ¬ d.Under n x → (d.clearChildren n).node? x = d.node? x := by
  obtain ⟨gone, hlive, hgone, heq, -⟩ := clearChildren_eq h.linked hn
  have hlive' : (d.childless n).AllLive gone :=
    ⟨hlive.1, fun y hy => (live_childless y).2 (hlive.2 y hy)⟩
  have hnode : ∀ x, (d.clearChildren n).node? x =
      if x ∈ gone then none else (d.childless n).node? x := fun x => by
    rw [heq, node?_vacateAll hlive']
  refine ⟨?_, ?_, fun x hx hl => ?_, fun x hx hl => ?_, fun x hx hu => ?_⟩
  · rw [heq]
    exact ⟨(h.pooled.update n _).vacateAll hlive', h.linked.clear hlive hgone⟩
  · rw [hnode, if_neg fun hm => hself ((hgone n).1 hm), childless, node?_update, if_pos rfl, hn]
    rfl
  · rw [Live, hnode] at hl
    split at hl
    · cases hl
    · exact hx ((live_childless x).1 hl)
  · rw [Live, hnode, if_pos ((hgone x).2 hx)] at hl
    cases hl
  · rw [hnode, if_neg fun hm => hu ((hgone x).1 hm), childless, node?_update, if_neg hx]

/-- The result of setting the text of an element that had one text as its only
    child, or had its children released. -/
structure Retexted (d d' : Document L) (n : NodeId) (node : Node L) (s : String) : Prop where
  joined : d'.Joined
  here : ∃ children, d'.node? n = some { node with children := children } ∧
    d'.TextOnly n children s ∧ ∀ c ∈ children, d.Live c → d.Under n c
  elsewhere : ∀ x, d.Live x → x ≠ n → ¬ d.Under n x → d'.node? x = d.node? x

theorem replaceByText_eq (d : Document L) (id : NodeId) (s : String) :
    d.replaceByText id s = insertForest id (Markup.ofText s) (d.clearChildren id) := by
  rw [replaceByText, Markup.ofText]
  split
  · rw [insertForest]
  · rw [insertForest, insertNode]
    dsimp only
    rcases (((d.clearChildren id).alloc (.text s)).2.append id _) with ⟨result, d'⟩
    cases result <;> rfl

theorem replaceByText_retexted (h : d.Joined) {node : Node L} (hn : d.node? n = some node)
    (hholds : node.content.holdsChildren = true) (hself : ¬ d.Under n n) (s : String) :
    ∃ d', d.replaceByText n s = (.ok (), d') ∧ Retexted d d' n node s := by
  obtain ⟨hjoined, hhere, -, -, helse⟩ := h.clearChildren hn hself
  obtain ⟨d', os, hd', hg, hstand⟩ := insertForest_grafted (Markup.ofText s) hjoined hhere hholds
  have hkept : ∀ x, d.Live x → x ≠ n → ¬ d.Under n x → (d.clearChildren n).Live x :=
    fun x hlive hxn hu => by rwa [Live, helse x hxn hu]
  rw [replaceByText_eq]
  refine ⟨d', hd', hg.joined, ⟨os.map Outline.id, hg.here, ?_, ?_⟩, ?_⟩
  · rcases Outline.standAll_ofText hstand with ⟨rfl, rfl⟩ | ⟨c, rfl⟩
    · exact .inl ⟨rfl, rfl⟩
    · obtain @⟨_, parent, _, _, hnode, -, -⟩ := hg.fresh _ List.mem_cons_self
      have hparent := (hg.joined.linked.mem_children n c).1 (by
        rw [children_eq hg.here]
        exact List.mem_singleton_self c)
      rw [parent?_eq hnode] at hparent
      obtain rfl : parent = some n := hparent
      exact .inr ⟨c, rfl, hnode⟩
  · intro c hc hlive
    by_contra hu
    obtain ⟨o, ho, rfl⟩ := List.mem_map.1 hc
    have hnew := hg.new o.id (mem_preorderAll.2 ⟨o, ho, o.id_mem_preorder⟩)
    refine hnew (hkept o.id hlive (fun heq => ?_) hu)
    rw [heq] at hnew
    exact hnew (.of_eq hhere)
  · intro x hlive hxn hu
    rw [hg.elsewhere x (hkept x hlive hxn hu) hxn, helse x hxn hu]

theorem loneText?_eq_some {node : Node L} {c : NodeId} (h : d.loneText? node = some c) :
    node.children = [c] ∧ ∃ p cs t ls, d.node? c = some ⟨p, cs, .text t, ls⟩ := by
  unfold loneText? at h
  split at h
  next x hx =>
    split at h
    next p cs t ls hc =>
      obtain rfl := Option.some.inj h
      exact ⟨hx, p, cs, t, ls, hc⟩
    next => cases h
  next => cases h

theorem loneText?_eq {node : Node L} {c : NodeId} {t : String} (hchildren : node.children = [c])
    (hc : d.node? c = some ⟨parent, children, .text t, listeners⟩) :
    d.loneText? node = some c := by
  rw [loneText?, hchildren]
  dsimp only
  rw [hc]

/-- The children of a node are replaced by a text, unless there is a text alone that can be
    rewritten. -/
theorem setText_cases {node : Node L} (hn : d.node? n = some node)
    (hholds : node.content.holdsChildren = true) (s : String) :
    ((d.loneText? node = none ∨ s = "") ∧ d.setText n s = d.replaceByText n s) ∨
      ∃ c, s ≠ "" ∧ d.loneText? node = some c ∧
        d.setText n s = (.ok (), d.update c fun node => { node with content := .text s }) := by
  obtain ⟨parent, children, content, listeners⟩ := node
  cases content with
  | document | element e =>
    rw [setText, hn]
    dsimp only
    cases d.loneText? ⟨parent, children, _, listeners⟩ with
    | none => exact .inl ⟨.inl rfl, rfl⟩
    | some c =>
      by_cases hs : s = ""
      · exact .inl ⟨.inr hs, if_pos (String.isEmpty_iff.2 hs)⟩
      · exact .inr ⟨c, hs, rfl, if_neg fun hempty => hs (String.isEmpty_iff.1 hempty)⟩
  | text t | comment t => cases hholds

/-- **Setting the text of an element** leaves the text alone below it, and leaves
    alone what was not under it. -/
theorem setText_element (h : d.Joined) {e : Element}
    (hn : d.node? n = some ⟨parent, children, .element e, listeners⟩) (hself : ¬ d.Under n n)
    (hleaf : ∀ c ∈ children, ∀ m, d.node? c = some m → m.content.holdsChildren = false →
      m.children = [] ∧ m.listeners = []) (s : String) :
    ∃ d', d.setText n s = (.ok (), d') ∧
      Retexted d d' n ⟨parent, children, .element e, listeners⟩ s := by
  rcases setText_cases hn rfl s with ⟨-, hset⟩ | ⟨c, -, hlone, hset⟩
  · rw [hset]
    exact replaceByText_retexted h hn rfl hself s
  · obtain ⟨rfl, p, cs, t, ls, hc⟩ := loneText?_eq_some hlone
    obtain ⟨rfl, rfl⟩ := hleaf c (List.mem_singleton_self c) _ hc rfl
    have hmem : c ∈ d.children n := by
      rw [children_eq hn]
      exact List.mem_singleton_self c
    have hunder : d.Under n c := ⟨c, hmem, .refl⟩
    have hp := (h.linked.mem_children n c).1 hmem
    rw [parent?_eq hc] at hp
    obtain rfl : p = some n := hp
    have ha := h.altered (f := fun node => { node with content := .text s }) hc (fun _ => rfl)
      fun _ => rfl
    refine ⟨_, hset, ha.joined, ⟨[c], ?_, .inr ⟨c, rfl, ha.here⟩, ?_⟩, fun x _ _ hu => ?_⟩
    · rw [ha.elsewhere n fun e => hself (e ▸ hunder), hn]
    · intro y hy _
      exact List.mem_singleton.1 hy ▸ hunder
    · exact ha.elsewhere x fun e => hu (e ▸ hunder)

/-! ## Reading texts back -/

/-- The text of a text is its own. -/
theorem textContent_text {s : String} (hn : d.node? n = some ⟨parent, [], .text s, listeners⟩) :
    d.textContent n = s := by
  rw [textContent, markup, outline?, outlineWithin?, hn]
  simp [Outline.markup, Markup.allTextChars, Markup.textChars]

/-- The text of a node with nothing but a text below it. -/
theorem TextOnly.textContent_eq {e : Element} {s : String}
    (hn : d.node? n = some ⟨parent, children, .element e, listeners⟩)
    (h : d.TextOnly n children s) : d.textContent n = s := by
  rw [textContent, markup, outline?, outlineWithin?, hn]
  rcases h with ⟨rfl, rfl⟩ | ⟨c, rfl, hc⟩
  · simp [Outline.markup, Outline.markupAll, Markup.allTextChars, Markup.textChars]
  · obtain ⟨size, hsize⟩ : ∃ size, d.slots.size = size + 1 :=
      Nat.exists_eq_succ_of_ne_zero (Nat.ne_of_gt (Nat.zero_lt_of_lt (index_lt (.of_eq hn))))
    simp [hsize, outlineWithin?, hc, Outline.markup, Outline.markupAll, Markup.allTextChars,
      Markup.textChars]

/-- Nothing but its children is under a node with a text only. -/
theorem TextOnly.mem_of_under {node : Node L} {s : String} (hn : d.node? n = some node)
    (h : d.TextOnly n node.children s) {x : NodeId} (hx : d.Under n x) : x ∈ node.children := by
  obtain ⟨c, hc, hcx⟩ := hx
  rw [children_eq hn] at hc
  rcases h with ⟨-, hnil⟩ | ⟨c', hsingle, hc'⟩
  · rw [hnil] at hc
    cases hc
  · rw [hsingle] at hc ⊢
    obtain rfl := List.mem_singleton.1 hc
    rcases ReflTransGen.cases_head hcx with rfl | ⟨y, hy, -⟩
    · exact List.mem_singleton_self c
    · have := hy.2
      rw [children_eq hc'] at this
      cases this

/-! ## What a change comes to -/

/-- What a change that is not a move can do to a document. -/
inductive Becomes (d : Document L) : Document L → Prop
  /-- Nothing: it is refused. -/
  | refused : Becomes d d
  /-- A node is made. -/
  | made (content : NodeContent) : Becomes d (d.alloc content).2
  /-- A node is changed in its place: its links and its kind stay, and no text or comment
      gets a listener. -/
  | changed {id : NodeId} {f : Node L → Node L} (hp : ∀ node, (f node).parent = node.parent)
      (hch : ∀ node, (f node).children = node.children)
      (hkind : ∀ node, d.node? id = some node → (f node).content.kind = node.content.kind)
      (hlisteners : ∀ node, d.node? id = some node → node.content.holdsChildren = false →
        (f node).listeners = node.listeners) :
      Becomes d (d.update id f)
  /-- The children of a node are replaced by nodes of markup. -/
  | refilled {p : NodeId} {node : Node L} (hp : d.node? p = some node)
      (hholds : node.content.holdsChildren = true) (forest : List Markup) :
      Becomes d ((d.clearChildren p).insertForest p forest).2

theorem becomes_setText (d : Document L) (id : NodeId) (s : String) :
    Becomes d (d.setText id s).2 := by
  have hset : ∀ {x : NodeId} {content content' : NodeContent} {parent children listeners},
      d.node? x = some ⟨parent, children, content, listeners⟩ → content'.kind = content.kind →
        Becomes d (d.update x fun node => { node with content := content' }) := by
    intro x content content' parent children listeners hx hkind
    refine .changed (fun _ => rfl) (fun _ => rfl) (fun node hnode => ?_) fun _ _ _ => rfl
    rw [hx, Option.some.injEq] at hnode
    rw [← hnode]
    exact hkind
  have hholds : ∀ {node : Node L}, d.node? id = some node → node.content.holdsChildren = true →
      Becomes d (d.setText id s).2 := by
    intro node hn hholds
    rcases setText_cases hn hholds s with ⟨-, heq⟩ | ⟨c, -, hlone, heq⟩
    · rw [heq, replaceByText_eq]
      exact .refilled hn hholds _
    · obtain ⟨-, parent, children, t, listeners, hc⟩ := loneText?_eq_some hlone
      rw [heq]
      exact hset hc rfl
  cases hn : d.node? id with
  | none =>
    rw [setText, hn]
    exact .refused
  | some node =>
    obtain ⟨parent, children, content, listeners⟩ := node
    cases content with
    | document | element e => exact hholds hn rfl
    | text t | comment t =>
      rw [setText, hn]
      exact hset hn rfl

theorem becomes_setInner (d : Document L) (id : NodeId) (forest : List Markup) :
    Becomes d (d.setInner id forest).2 := by
  rw [setInner]
  cases hn : d.node? id with
  | none => exact .refused
  | some node =>
    obtain ⟨parent, children, content, listeners⟩ := node
    cases content with
    | element e => exact .refilled hn rfl forest
    | _ => exact .refused

theorem becomes_updateElement (d : Document L) (id : NodeId) (operation : NodeOperation)
    (f : Element → Element) : Becomes d (d.updateElement id operation f).2 := by
  rw [updateElement]
  split
  · exact .refused
  · split
    · refine .changed (fun node => ?_) (fun node => ?_) (fun node _ => ?_) fun node _ _ => ?_ <;>
        cases hc : node.content <;> simp [hc, NodeContent.kind]
    · exact .refused

theorem becomes_addListener (d : Document L) (id : NodeId) (eventType : String) (listener : L) :
    Becomes d (d.addListener id eventType listener).2 := by
  rw [addListener]
  cases hn : d.node? id with
  | none => exact .refused
  | some node =>
    obtain ⟨parent, children, content, listeners⟩ := node
    cases content with
    | element e =>
      refine .changed (fun _ => rfl) (fun _ => rfl) (fun _ _ => rfl) fun node hnode hnot => ?_
      rw [hn, Option.some.injEq] at hnode
      rw [← hnode] at hnot
      cases hnot
    | _ => exact .refused

/-- **A change** that is not a move does one of these things. -/
theorem Edit.becomes (d : Document L) (e : Edit L) (he : ∀ parent child, e ≠ .append parent child) :
    Becomes d (e.apply d).2 := by
  cases e with
  | append parent child => exact absurd rfl (he parent child)
  | createElement tag => exact .made _
  | createText s => exact .made _
  | setText id s => exact becomes_setText d id s
  | setInner id forest => exact becomes_setInner d id forest
  | setAttribute id name value => exact becomes_updateElement d id _ _
  | removeAttribute id name => exact becomes_updateElement d id _ _
  | setValue id value => exact becomes_updateElement d id _ _
  | addListener id eventType listener => exact becomes_addListener d id eventType listener

end DataBinding.Document
