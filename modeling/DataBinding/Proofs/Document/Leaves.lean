/-
  Texts and comments as leaves.

  * `Leafy`: texts and comments have nothing below them, and nothing listens on
    them;
  * `Leafy.run` and `leafy_ofForest`: every document of markup is so, and stays so
    whatever is done to it.
-/
import DataBinding.Proofs.Document.Writing

namespace DataBinding

variable {L : Type}

/-- A node that may have children, or has none and nothing that listens on it. -/
def Node.Leafy (node : Node L) : Prop :=
  node.content.holdsChildren = false → node.children = [] ∧ node.listeners = []

/-- The kind of a node tells whether it may have children. -/
theorem NodeContent.holdsChildren_eq {content content' : NodeContent}
    (h : content.kind = content'.kind) : content.holdsChildren = content'.holdsChildren := by
  cases content <;> cases content' <;> first | rfl | cases h

namespace Document

variable {d : Document L}

/-- Texts and comments have nothing below them, and nothing listens on them. -/
def Leafy (d : Document L) : Prop := ∀ x node, d.node? x = some node → node.Leafy

namespace Leafy

theorem alloc (h : d.Leafy) (hd : d.Pooled) (content : NodeContent) :
    (d.alloc content).2.Leafy := by
  intro x node hx
  rw [hd.node?_alloc] at hx
  split at hx
  · obtain rfl := Option.some.inj hx
    exact fun _ => ⟨rfl, rfl⟩
  · exact h x node hx

theorem update (h : d.Leafy) {id : NodeId} {f : Node L → Node L}
    (hf : ∀ node, d.node? id = some node → node.Leafy → (f node).Leafy) : (d.update id f).Leafy := by
  intro x node hx
  rw [node?_update] at hx
  split at hx
  · obtain ⟨m, hm, rfl⟩ := Option.map_eq_some_iff.1 hx
    exact hf m hm (h id m hm)
  · exact h x node hx

theorem append (h : d.Leafy) (hd : d.Linked) (parent child : NodeId) :
    (d.append parent child).2.Leafy := by
  obtain ⟨e, he⟩ | ⟨node, d', hp, hholds, -, hd', -, hx⟩ := append_cases hd parent child
  · rw [he]
    exact h
  · rw [hd']
    intro x m hm hnot
    rw [hx] at hm
    obtain ⟨m', hm', rfl⟩ := Option.map_eq_some_iff.1 hm
    obtain ⟨hchildren, hlisteners⟩ := h x m' hm' hnot
    have hne : x ≠ parent := by
      rintro rfl
      rw [hp, Option.some.injEq] at hm'
      rw [hm'] at hholds
      exact absurd (hholds.symm.trans hnot) (by decide)
    rw [Node.moved, hchildren, if_neg hne]
    exact ⟨rfl, hlisteners⟩

mutual

theorem insertNode (parent : NodeId) : ∀ (m : Markup) {d : Document L}, d.Leafy → d.Joined →
    (d.insertNode parent m).2.Leafy
  | .text s, d, h, hd => by
    rw [Document.insertNode]
    exact (h.alloc hd.pooled (.text s)).append (hd.alloc (.text s)).linked parent _
  | .comment s, d, h, hd => by
    rw [Document.insertNode]
    exact (h.alloc hd.pooled (.comment s)).append (hd.alloc (.comment s)).linked parent _
  | .element tag attributes children, d, h, hd => by
    have hjoined := hd.alloc (.element ⟨tag, attributes, none⟩)
    have hforest := insertForest (d.alloc (.element ⟨tag, attributes, none⟩)).1 children
      (h.alloc hd.pooled (.element ⟨tag, attributes, none⟩)) hjoined
    have hjoined' := hjoined.insertForest (d.alloc (.element ⟨tag, attributes, none⟩)).1 children
    rw [insertNode_element]
    split
    next d₁ heq =>
      rw [heq] at hforest hjoined'
      exact hforest.append hjoined'.linked parent _
    next => exact hforest

theorem insertForest (parent : NodeId) : ∀ (forest : List Markup) {d : Document L}, d.Leafy →
    d.Joined → (d.insertForest parent forest).2.Leafy
  | [], d, h, _ => h
  | m :: rest, d, h, hd => by
    have hnode := insertNode parent m h hd
    have hjoined := hd.insertNode parent m
    rw [Document.insertForest]
    split
    next d₁ heq =>
      rw [heq] at hnode hjoined
      exact insertForest parent rest hnode hjoined
    next => exact hnode

end

theorem clearChildren (h : d.Leafy) (hd : d.Joined) (id : NodeId) : (d.clearChildren id).Leafy := by
  cases hn : d.node? id with
  | none =>
    rw [Document.clearChildren, hn]
    exact h
  | some node =>
    obtain ⟨gone, hlive, -, heq, -⟩ := clearChildren_eq hd.linked hn
    have hlive' : (d.childless id).AllLive gone :=
      ⟨hlive.1, fun y hy => (live_childless y).2 (hlive.2 y hy)⟩
    have hchildless : (d.childless id).Leafy :=
      h.update fun _ _ hnode hnot => ⟨rfl, (hnode hnot).2⟩
    intro x m hm
    rw [heq, node?_vacateAll hlive'] at hm
    split at hm
    · cases hm
    · exact hchildless x m hm

end Leafy

/-- A change that is not a move keeps leaves as they are. -/
theorem Becomes.leafy {d' : Document L} (hb : Becomes d d') (h : d.Leafy) (hd : d.Joined) :
    d'.Leafy := by
  cases hb with
  | refused => exact h
  | made content => exact h.alloc hd.pooled content
  | @changed id f _ hch hkind hlisteners =>
    refine h.update fun node hnode hleafy hnot => ?_
    have hnot' : node.content.holdsChildren = false := by
      rw [NodeContent.holdsChildren_eq (hkind node hnode)] at hnot
      exact hnot
    rw [hch, hlisteners node hnode hnot']
    exact hleafy hnot'
  | @refilled p node hp hholds forest =>
    exact Leafy.insertForest p forest (h.clearChildren hd p) (hd.clear p)

namespace Leafy

theorem setText (h : d.Leafy) (hd : d.Joined) (id : NodeId) (s : String) :
    (d.setText id s).2.Leafy :=
  (becomes_setText d id s).leafy h hd

theorem setInner (h : d.Leafy) (hd : d.Joined) (id : NodeId) (forest : List Markup) :
    (d.setInner id forest).2.Leafy :=
  (becomes_setInner d id forest).leafy h hd

theorem updateElement (h : d.Leafy) (hd : d.Joined) (id : NodeId) (operation : NodeOperation)
    (f : Element → Element) : (d.updateElement id operation f).2.Leafy :=
  (becomes_updateElement d id operation f).leafy h hd

theorem addListener (h : d.Leafy) (hd : d.Joined) (id : NodeId) (eventType : String) (listener : L) :
    (d.addListener id eventType listener).2.Leafy :=
  (becomes_addListener d id eventType listener).leafy h hd

/-- One change, done or refused, keeps leaves as they are. -/
theorem apply (h : d.Leafy) (hd : d.Joined) (e : Edit L) : (e.apply d).2.Leafy := by
  cases e with
  | append parent child => exact h.append hd.linked parent child
  | _ =>
    refine (Edit.becomes d _ ?_).leafy h hd
    nofun

end Leafy

theorem Joined.run (h : d.Joined) (edits : List (Edit L)) : (d.run edits).Joined := by
  induction edits generalizing d with
  | nil => exact h
  | cons e rest ih => exact ih (h.apply e)

theorem Leafy.run (h : d.Leafy) (hd : d.Joined) (edits : List (Edit L)) : (d.run edits).Leafy := by
  induction edits generalizing d with
  | nil => exact h
  | cons e rest ih => exact ih (h.apply hd e) (hd.apply e)

theorem leafy_ofForest (forest : List Markup) : (ofForest forest : Document L).Leafy := by
  have hnone : Leafy (⟨#[], []⟩ : Document L) := fun _ _ hx => by cases hx
  exact Leafy.insertForest root forest (hnone.alloc joined_nil.pooled .document)
    (joined_nil.alloc .document)

end Document

end DataBinding
