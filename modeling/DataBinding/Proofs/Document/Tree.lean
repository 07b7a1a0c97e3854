/-
  Documents of markup as trees.

  An outline is `Fresh` in a document if the document reads as it, texts in it
  have nothing below them, and nothing listens on its nodes.

  * `Planted.fresh`: in a document of markup every outline is fresh;
  * `planted_ofForest`: in a document of markup nothing listens on any node, and
    texts have nothing below them.
-/
import DataBinding.Proofs.Document.Arena
import DataBinding.Proofs.Document.Reading

namespace DataBinding

variable {L : Type}

namespace Document

open Outline (preorderAll mem_preorder mem_preorderAll)

variable {d d' : Document L}

/-! ## Fresh outlines -/

/-- The nodes of an outline are in the document as the outline has them, texts
    without children, and nothing listens on them. -/
inductive Fresh (d : Document L) : Outline → Prop
  /-- A node, and everything below it. -/
  | node {id : NodeId} {parent : Option NodeId} {content : NodeContent} {children : List Outline}
      (hnode : d.node? id = some ⟨parent, children.map Outline.id, content, []⟩)
      (hleaf : content.holdsChildren = false → children = [])
      (hchildren : ∀ o ∈ children, d.Fresh o) : d.Fresh (.node id (some content) children)

namespace Fresh

theorem congr {o : Outline} (h : d.Fresh o)
    (hx : ∀ x ∈ o.preorder, d'.node? x = d.node? x) : d'.Fresh o := by
  induction h with
  | @node id parent content children hnode hleaf hchildren ih =>
    refine .node (?_ : d'.node? id = some ⟨parent, _, _, _⟩) hleaf fun o ho =>
      ih o ho fun x hxo => ?_
    · rw [hx id (mem_preorder.2 (.inl rfl)), hnode]
    · exact hx x (mem_preorder.2 (.inr ⟨o, ho, hxo⟩))

/-- A document reads as what is fresh in it. -/
theorem reads {o : Outline} (h : d.Fresh o) : d.Reads o := by
  induction h with
  | node hnode _ _ ih => exact .node hnode ih

end Fresh

end Document

/-! ## Documents of markup -/

namespace Markup

mutual

/-- A condition on the attributes of every element in a node. -/
def Every (A : List (String × String) → Prop) : Markup → Prop
  | .text _ => True
  | .comment _ => True
  | .element _ attributes children => A attributes ∧ EveryOf A children

/-- A condition on the attributes of every element in a forest. -/
def EveryOf (A : List (String × String) → Prop) : List Markup → Prop
  | [] => True
  | node :: rest => Every A node ∧ EveryOf A rest

end

end Markup

/-- A node that nothing listens on, with nothing below it if it is text, whose
    attributes satisfy a condition if it is an element. -/
structure Node.Planted (A : List (String × String) → Prop) (node : Node L) : Prop where
  listeners : node.listeners = []
  leaf : node.content.holdsChildren = false → node.children = []
  attributes : ∀ e, node.content = .element e → A e.attributes

namespace Document

variable {A : List (String × String) → Prop} {d : Document L}

/-- A document of planted nodes. -/
structure Planted (A : List (String × String) → Prop) (d : Document L) : Prop extends Joined d where
  nodes : ∀ x node, d.node? x = some node → node.Planted A

namespace Planted

theorem alloc (h : d.Planted A) {content : NodeContent}
    (hc : ∀ e, content = .element e → A e.attributes) : (d.alloc content).2.Planted A where
  toJoined := h.toJoined.alloc content
  nodes x node hx := by
    rw [h.pooled.node?_alloc] at hx
    split at hx
    · obtain rfl := Option.some.inj hx
      exact ⟨rfl, fun _ => rfl, hc⟩
    · exact h.nodes x node hx

theorem append (h : d.Planted A) (parent child : NodeId) : (d.append parent child).2.Planted A := by
  obtain ⟨e, he⟩ | ⟨node, d', hp, hholds, hc, hd', hr, hx⟩ := append_cases h.linked parent child
  · rw [he]
    exact h
  · rw [hd']
    refine ⟨h.toJoined.moved hp hc hr hx, fun x m hm => ?_⟩
    rw [hx] at hm
    obtain ⟨m', hm', rfl⟩ := Option.map_eq_some_iff.1 hm
    obtain ⟨hlisteners, hleaf, hattributes⟩ := h.nodes x m' hm'
    refine ⟨hlisteners, fun hnot => ?_, hattributes⟩
    have hne : x ≠ parent := by
      rintro rfl
      rw [hp, Option.some.injEq] at hm'
      rw [hm'] at hholds
      exact absurd (hholds.symm.trans hnot) (by decide)
    rw [Node.moved, hleaf hnot, if_neg hne]
    rfl

mutual

theorem insertNode (parent : NodeId) : ∀ (m : Markup) {d : Document L}, d.Planted A → m.Every A →
    (d.insertNode parent m).2.Planted A
  | .text s, d, h, _ => by
    rw [Document.insertNode]
    exact (h.alloc fun _ he => by cases he).append _ _
  | .comment s, d, h, _ => by
    rw [Document.insertNode]
    exact (h.alloc fun _ he => by cases he).append _ _
  | .element tag attributes children, d, h, hm => by
    rw [Markup.Every] at hm
    have hd : (d.alloc (.element ⟨tag, attributes, none⟩)).2.Planted A := h.alloc fun e he => by
      cases he
      exact hm.1
    have hforest := insertForest (d.alloc (.element ⟨tag, attributes, none⟩)).1 children hd hm.2
    rw [insertNode_element]
    split
    next d' heq =>
      rw [heq] at hforest
      exact hforest.append _ _
    next => exact hforest

theorem insertForest (parent : NodeId) : ∀ (forest : List Markup) {d : Document L}, d.Planted A →
    Markup.EveryOf A forest → (d.insertForest parent forest).2.Planted A
  | [], d, h, _ => h
  | m :: rest, d, h, hm => by
    rw [Markup.EveryOf] at hm
    have hnode := insertNode parent m h hm.1
    rw [Document.insertForest]
    split
    next d' heq =>
      rw [heq] at hnode
      exact insertForest parent rest hnode hm.2
    next => exact hnode

end

/-- What a planted document reads as is fresh. -/
theorem fresh (h : d.Planted A) {o : Outline} (ho : d.Reads o) : d.Fresh o := by
  induction ho with
  | @node id parent content children listeners hnode hchildren ih =>
    obtain ⟨hlisteners, hleaf, -⟩ := h.nodes id _ hnode
    obtain rfl : listeners = [] := hlisteners
    exact .node hnode (fun hnot => List.map_eq_nil_iff.1 (hleaf hnot)) ih

/-- The elements of a fresh outline satisfy the condition. -/
theorem every (h : d.Planted A) {o : Outline} (ho : d.Fresh o) : o.Every A := by
  induction ho with
  | @node id parent content children hnode hleaf hchildren ih =>
    refine ⟨fun e he => ?_, Outline.everyOf_iff.2 ih⟩
    exact (h.nodes id _ hnode).attributes e (Option.some.inj he)

end Planted

/-- A document of markup is planted. -/
theorem planted_ofForest {forest : List Markup} (hforest : Markup.EveryOf A forest) :
    (ofForest forest : Document L).Planted A := by
  have h0 : Planted A (⟨#[], []⟩ : Document L) := ⟨joined_nil, fun x node hx => by cases hx⟩
  exact Planted.insertForest root forest (h0.alloc fun e he => by cases he) hforest

end Document

end DataBinding
