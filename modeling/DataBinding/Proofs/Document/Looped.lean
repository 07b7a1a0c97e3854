/-
  Nodes that are below themselves.

  A move may put a node below itself.  Reading what is below it does not end then, and
  replacing what is below it releases the node itself.

  * `looped_of_outline?`: a node below which reading does not end is below itself;
  * `Looping.not_live_setText` and `Looping.not_live_setInner`: an element below itself
    is gone once its text or its markup has been set;
  * `Looping.render`: rendering to it leaves it below itself, or gone.
-/
import DataBinding.Proofs.Document.Leaves
import DataBinding.Proofs.Document.Numbering
import DataBinding.Proofs.Document.Retexting
import DataBinding.Proofs.Document.Rooted

namespace DataBinding.Document

open Relation (ReflTransGen TransGen)

variable {L : Type} {d d' : Document L} {x y p : NodeId}

/-! ## Walks that come back -/

/-- A node is below itself. -/
def Looped (d : Document L) (x : NodeId) : Prop := TransGen d.Child x x

/-- A node above one that is below itself is one of those on the way. -/
theorem Looped.of_reach (h : d.Linked) (hy : d.Looped y) (hxy : ReflTransGen d.Child x y) :
    d.Looped x := by
  induction hxy using ReflTransGen.head_induction_on with
  | refl => exact hy
  | @head x z hxz _ ih =>
    obtain ⟨w, hzw, hwz⟩ := TransGen.tail'_iff.1 ih
    have hsame : some w = some x := by
      rw [← (h.mem_children w z).1 hwz, (h.mem_children x z).1 hxz]
    exact TransGen.head' hxz (Option.some.inj hsame ▸ hzw)

/-- **A node below which reading does not end** is below itself. -/
theorem looped_of_outline? (h : d.Linked) (hx : d.outline? x = none) : d.Looped x := by
  by_contra hnot
  have hsome := outline?_isSome fun y hxy hy => hnot (Looped.of_reach h hy hxy)
  rw [hx] at hsome
  cases hsome

namespace Looped

theorem live (h : d.Looped x) : d.Live x := by
  obtain ⟨c, hc, -⟩ := TransGen.head'_iff.1 h
  exact live_of_mem_children hc

/-- Such a node is under itself. -/
theorem under (h : d.Looped x) : d.Under x x := by
  have hwalk : ∀ y, ReflTransGen d.Child y x → ReflTransGen (d.Step x) y x := fun y hyx => by
    induction hyx using ReflTransGen.head_induction_on with
    | refl => exact .refl
    | @head a b hab _ ih =>
      by_cases ha : a = x
      · exact ha ▸ .refl
      · exact .head ⟨ha, hab⟩ ih
  obtain ⟨c, hc, hcx⟩ := TransGen.head'_iff.1 h
  exact ⟨c, hc, hwalk c hcx⟩

/-- The links of the nodes on the way decide. -/
theorem congr (h : d.Looped x) (hsame : ∀ y, d.Looped y → d'.children y = d.children y) :
    d'.Looped x := by
  have hwalk : ∀ y, TransGen d.Child x y → ReflTransGen d.Child y x → TransGen d'.Child x y := by
    intro y hxy
    induction hxy with
    | @single y hxy =>
      intro _
      refine .single ?_
      rw [Child, hsame x h]
      exact hxy
    | @tail y z hxy hyz ih =>
      intro hzx
      refine (ih (.head hyz hzx)).tail ?_
      have hy : d.Looped y := TransGen.trans_left (.head' hyz hzx) hxy.to_reflTransGen
      rw [Child, hsame y hy]
      exact hyz
  exact hwalk x h .refl

/-- A node changed in its place. -/
theorem altered {node : Node L} (h : d.Looped x) (ha : Altered d d' y node)
    (hchildren : node.children = d.children y) : d'.Looped x := by
  refine h.congr fun z _ => ?_
  by_cases hz : z = y
  · rw [hz, children_eq ha.here, hchildren]
  · rw [children, ha.elsewhere z hz, children]

end Looped

/-! ## Elements that are below themselves -/

/-- A document with an element that is below itself. -/
structure Looping (d : Document L) (x : NodeId) : Prop where
  /-- Slots and links are sound. -/
  joined : d.Joined
  /-- Texts have nothing below them. -/
  leafy : d.Leafy
  /-- The element is below itself. -/
  looped : d.Looped x
  /-- It is an element. -/
  element : d.kind? x = some .element

namespace Looping

theorem node (h : d.Looping x) : ∃ parent children e listeners,
    d.node? x = some ⟨parent, children, .element e, listeners⟩ := by
  obtain ⟨⟨parent, children, content, listeners⟩, hnode, hkind⟩ := Option.map_eq_some_iff.1 h.element
  cases content with
  | element e => exact ⟨parent, children, e, listeners, hnode⟩
  | _ => cases hkind

/-- Its only child, if it has only one, is no text. -/
theorem loneText?_eq_none (h : d.Looping x) {node : Node L} (hnode : d.node? x = some node) :
    d.loneText? node = none := by
  by_contra hsome
  obtain ⟨c, hlone⟩ := Option.ne_none_iff_exists'.1 hsome
  obtain ⟨hchildren, parent, children, s, listeners, hc⟩ := loneText?_eq_some hlone
  obtain ⟨y, hy, hyx⟩ := TransGen.head'_iff.1 h.looped
  rw [Child, children_eq hnode, hchildren, List.mem_singleton] at hy
  subst hy
  obtain rfl : children = [] := (h.leafy _ _ hc rfl).1
  rcases ReflTransGen.cases_head hyx with rfl | ⟨z, hz, -⟩
  · have helement := h.element
    rw [kind?, hc] at helement
    cases helement
  · rw [Child, children_eq hc] at hz
    cases hz

theorem not_live_setText (h : d.Looping x) (s : String) : ¬ (d.setText x s).2.Live x := by
  obtain ⟨parent, children, e, listeners, hnode⟩ := h.node
  refine (trace_setText h.joined x s).not_live h.joined.pooled h.looped.live ?_
  have hclear := vacations_clearEvents h.joined.linked h.looped.under
  rw [textEvents, hnode, Option.elim_some]
  dsimp only
  rw [h.loneText?_eq_none hnode, Option.isSome_none, Bool.false_and, if_neg Bool.false_ne_true,
    replaceEvents, vacations_append, hclear]
  split
  · rfl
  · rw [vacations_taken, vacations_nil]

theorem not_live_setInner (h : d.Looping x) (forest : List Markup) :
    ¬ (d.setInner x forest).2.Live x := by
  obtain ⟨parent, children, e, listeners, hnode⟩ := h.node
  refine (trace_setInner h.joined x forest).not_live h.joined.pooled h.looped.live ?_
  rw [innerEvents, element?, hnode, Option.bind_some, NodeContent.element?, Option.elim_some,
    vacations_append, vacations_clearEvents h.joined.linked h.looped.under, vacations_forestEvents]

/-- An element changed in its place. -/
theorem altered (h : d.Looping x) (hleafy : d'.Leafy) {parent : Option NodeId}
    {children : List NodeId} {e e' : Element} {listeners listeners' : List (String × L)}
    (hnode : d.node? x = some ⟨parent, children, .element e, listeners⟩)
    (ha : Altered d d' x ⟨parent, children, .element e', listeners'⟩) : d'.Looping x where
  joined := ha.joined
  leafy := hleafy
  looped := h.looped.altered ha (children_eq hnode).symm
  element := by rw [kind?, ha.here]; rfl

theorem updateElement (h : d.Looping x) (operation : NodeOperation) (f : Element → Element) :
    (d.updateElement x operation f).2.Looping x := by
  obtain ⟨parent, children, e, listeners, hnode⟩ := h.node
  obtain ⟨d', hd', ha⟩ := updateElement_altered h.joined hnode operation f
  have hleafy := h.leafy.updateElement h.joined x operation f
  rw [hd'] at hleafy ⊢
  exact h.altered hleafy hnode ha

theorem addListener (h : d.Looping x) (eventType : String) (listener : L) :
    (d.addListener x eventType listener).2.Looping x := by
  obtain ⟨parent, children, e, listeners, hnode⟩ := h.node
  obtain ⟨d', hd', ha⟩ := addListener_altered h.joined hnode eventType listener
  have hleafy := h.leafy.addListener h.joined x eventType listener
  rw [hd'] at hleafy ⊢
  exact h.altered hleafy hnode ha

/-- **Rendering** to an element below itself leaves it there, or it is gone. -/
theorem render (h : d.Looping x) (facet : Facet) (v : Value) :
    (d.render x facet v).2.Looping x ∨ ¬ (d.render x facet v).2.Live x := by
  cases facet with
  | text => exact .inr (h.not_live_setText _)
  | html => exact .inr (h.not_live_setInner _)
  | model => exact .inl (h.updateElement _ _)
  | «attribute» name => exact .inl (h.updateElement _ _)

end Looping

end DataBinding.Document
