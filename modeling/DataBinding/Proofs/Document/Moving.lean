/-
  What a move does, and nothing else.

  * `Transferred`: a node has gone to the end of another one; the list that it was in has
    lost it, and all other nodes are as they were, with everything below the one that was
    moved;
  * `Transferred.of_append`: this is so after a move that leads to no loop, wherever the node
    was: in another node, in the same one, or in none;
  * `append_transfers`: in every document without loops that a run leads to, such a move
    succeeds.
-/
import DataBinding.Proofs.Document.Acyclic
import DataBinding.Proofs.Document.Leaves

namespace DataBinding.Document

open Relation (ReflTransGen TransGen)

variable {L : Type} {d d' : Document L} {p c x : NodeId}

/-! ## Reading what is the same -/

/-- What a node contains and the children that it has are as they were. -/
def Undisturbed (d d' : Document L) (x : NodeId) : Prop :=
  (d'.node? x).map (fun node => (node.content, node.children)) =
    (d.node? x).map fun node => (node.content, node.children)

theorem mapM_congr {α β : Type} {f g : α → Option β} : ∀ {xs : List α},
    (∀ x ∈ xs, f x = g x) → xs.mapM f = xs.mapM g
  | [], _ => rfl
  | x :: xs, h => by
    rw [List.mapM_cons, List.mapM_cons, h x List.mem_cons_self,
      mapM_congr fun y hy => h y (List.mem_cons_of_mem _ hy)]

/-- What is read at a node depends on the nodes that walks down from it come to. -/
theorem outlineWithin?_congr (fuel : Nat) (x : NodeId)
    (h : ∀ y, ReflTransGen d.Child x y → Undisturbed d d' y) :
    d'.outlineWithin? fuel x = d.outlineWithin? fuel x := by
  induction fuel generalizing x with
  | zero => rfl
  | succ fuel ih =>
    have hx := h x .refl
    rw [outlineWithin?, outlineWithin?]
    cases hn : d.node? x with
    | none =>
      rw [Undisturbed, hn, Option.map_none, Option.map_eq_none_iff] at hx
      rw [hx]
    | some node =>
      rw [Undisturbed, hn, Option.map_some, Option.map_eq_some_iff] at hx
      obtain ⟨node', hn', heq⟩ := hx
      obtain ⟨hcontent, hchildren⟩ := Prod.mk.inj heq
      have hbelow : node.children.mapM (d'.outlineWithin? fuel) =
          node.children.mapM (d.outlineWithin? fuel) := by
        refine mapM_congr fun y hy => ih y fun z hyz => h z (.head ?_ hyz)
        rwa [Child, children_eq hn]
      rw [hn']
      dsimp only
      rw [hcontent, hchildren, hbelow]

/-! ## Moves -/

/-- A document in which a node has been moved to the end of another one, and nothing else
    has been changed. -/
structure Transferred (d d' : Document L) (p c : NodeId) : Prop where
  joined : d'.Joined
  acyclic : d'.Acyclic
  reshaped : Reshaped d d'
  /-- The node has another parent; its content, children and listeners are as before. -/
  moved : d'.node? c = (d.node? c).map fun node => { node with parent := some p }
  /-- The other one has the node as its last child, and no longer where it had it. -/
  receiver : d'.node? p =
    (d.node? p).map fun node => { node with children := node.children.erase c ++ [c] }
  /-- A former parent loses exactly the node, and keeps the order of the rest. -/
  former : ∀ q, d.parent? c = some q → q ≠ p →
    d'.node? q = (d.node? q).map fun node => { node with children := node.children.erase c }
  elsewhere : ∀ x, x ≠ c → x ≠ p → d.parent? c ≠ some x → d'.node? x = d.node? x
  /-- Everything below the node is as before. -/
  below : ∀ x, TransGen d.Child c x → d'.node? x = d.node? x
  /-- So is what is read at a node with neither parent below it. -/
  apart : ∀ x, ¬ ReflTransGen d.Child x p →
    (∀ q, d.parent? c = some q → ¬ ReflTransGen d.Child x q) → d'.outline? x = d.outline? x
  /-- The node itself is one. -/
  outline : d'.outline? c = d.outline? c

section Moved

variable (hx : ∀ x, d'.node? x = (d.node? x).map (Node.moved p c x)) (hd : d.Linked)

include hx hd

/-- What becomes of a node by a move: it lists no child twice. -/
theorem node?_moved (x : NodeId) : d'.node? x = (d.node? x).map fun node =>
    { node with
      parent := if x = c then some p else node.parent
      children := node.children.erase c ++ if x = p then [c] else [] } := by
  rw [hx]
  refine Option.map_congr fun node hn => ?_
  have hnodup := hd.children_nodup x
  rw [children_eq hn] at hnodup
  have herase : node.children.filter (· ≠ c) = node.children.erase c := by
    rw [hnodup.erase_eq_filter]
    exact List.filter_congr fun y _ => by rw [Bool.eq_iff_iff]; simp
  rw [Node.moved, herase]

/-- A node other than the one that is moved keeps all but its children. -/
theorem node?_moved_of_ne {x : NodeId} (hxc : x ≠ c) : d'.node? x = (d.node? x).map fun node =>
    { node with children := node.children.erase c ++ if x = p then [c] else [] } := by
  rw [node?_moved hx hd]
  simp only [if_neg hxc]

/-- A node with neither parent below it is read as it was. -/
theorem outline?_moved (hsize : d'.slots.size = d.slots.size) {x : NodeId}
    (hxp : ¬ ReflTransGen d.Child x p)
    (hxq : ∀ q, d.parent? c = some q → ¬ ReflTransGen d.Child x q) :
    d'.outline? x = d.outline? x := by
  rw [outline?, outline?, hsize]
  refine outlineWithin?_congr _ _ fun y hxy => ?_
  have hyp : y ≠ p := fun heq => hxp (heq ▸ hxy)
  have hyq : d.parent? c ≠ some y := fun hq => hxq y hq hxy
  rw [Undisturbed, node?_moved_of_unlinked hd hx hyp hyq, Option.map_map]
  rfl

end Moved

namespace Transferred

/-- **A move that leads to no loop** transfers its node. -/
theorem of_append (hd : d.Joined) (hacyclic : d.Acyclic) (hnot : ¬ ReflTransGen d.Child c p)
    (happend : d.append p c = (.ok (), d')) : Transferred d d' p c := by
  obtain ⟨-, -, hr, hx⟩ := moved_of_append hd.linked happend
  have hcp : c ≠ p := fun heq => hnot (heq ▸ .refl)
  -- what is below the node does not hold the parent that it is in
  have hunder : ∀ q, d.parent? c = some q → ¬ ReflTransGen d.Child c q := fun q hq hcq =>
    hacyclic c (.tail' hcq ((hd.linked.mem_children q c).2 hq))
  have hjoined := hd.append p c
  rw [happend] at hjoined
  refine ⟨hjoined, (append_acyclic_iff hacyclic hd.linked happend).2 hnot, hr, ?_, ?_,
    fun q hq hqp => ?_, fun x => node?_moved_elsewhere hd.linked hx, fun x hcx => ?_,
    fun x => outline?_moved hx hd.linked hr.size_eq,
    outline?_moved hx hd.linked hr.size_eq hnot hunder⟩
  · have hmoved := node?_moved_of_unlinked hd.linked hx hcp fun hc => hunder c hc .refl
    simpa only [if_pos] using hmoved
  · simpa only [if_pos] using node?_moved_of_ne hx hd.linked hcp.symm
  · have hqc : q ≠ c := fun heq => hunder q hq (heq ▸ .refl)
    simpa only [if_neg hqp, List.append_nil] using node?_moved_of_ne hx hd.linked hqc
  · refine node?_moved_elsewhere hd.linked hx ?_ ?_ fun hq => hunder x hq hcx.to_reflTransGen
    · rintro rfl
      exact hacyclic x hcx
    · rintro rfl
      exact hnot hcx.to_reflTransGen

theorem nodeCount_eq (h : Transferred d d' p c) : d'.nodeCount = d.nodeCount := by
  rw [nodeCount, nodeCount, h.reshaped.size_eq, h.reshaped.free_eq]

end Transferred

/-- **Nodes are moved exactly.**  Whatever has been done to a document, if no node of it is
    below itself, a node that is there can be moved to the end of every element and of the
    document node, unless this is the node itself or below it.  The node is then the last
    child there; the list that it was in, which may be the same one, has lost it and keeps
    its order; everything below the node and all other nodes are as they were, there are as
    many of them, and still none is below itself. -/
theorem append_transfers {forest : List Markup} {edits : List (Edit L)}
    (hacyclic : ((ofForest forest).run edits).Acyclic) {p c : NodeId} {kind : NodeKind}
    (hp : ((ofForest forest).run edits).kind? p = some kind)
    (hkind : kind = .document ∨ kind = .element) (hc : ((ofForest forest).run edits).Live c)
    (hnot : ¬ ReflTransGen ((ofForest forest).run edits).Child c p) :
    ∃ d', ((ofForest forest).run edits).append p c = (.ok (), d') ∧
      Transferred ((ofForest forest).run edits) d' p c ∧
      d'.nodeCount = ((ofForest forest).run edits).nodeCount := by
  have hd := (joined_ofForest forest).run edits
  generalize (ofForest forest).run edits = d at *
  obtain ⟨node, hn, rfl⟩ := kind?_eq_some.1 hp
  obtain ⟨d', hd', -⟩ := node?_append hd.linked hn (holdsChildren_iff.2 hkind) hc
  have htransferred := Transferred.of_append hd hacyclic hnot hd'
  exact ⟨d', hd', htransferred, htransferred.nodeCount_eq⟩

/-- A list item with a text goes from its list to the end of a new one. -/
theorem append_transfers_of_item :
    let forest := [Markup.element "ul" [] [.element "li" [] [.text "a"], .element "li" [] []]]
    let d : Document Unit := (ofForest forest).run [.createElement "ol"]
    d.Acyclic ∧ d.kind? ⟨5, 0⟩ = some .element ∧ d.Live ⟨2, 0⟩ ∧
      ¬ ReflTransGen d.Child ⟨2, 0⟩ ⟨5, 0⟩ ∧
      ∃ d', d.append ⟨5, 0⟩ ⟨2, 0⟩ = (.ok (), d') ∧ d'.children ⟨5, 0⟩ = [⟨2, 0⟩] ∧
        d'.children ⟨1, 0⟩ = [⟨4, 0⟩] ∧ d'.node? ⟨3, 0⟩ = d.node? ⟨3, 0⟩ ∧ d'.nodeCount = 6 := by
  intro forest d
  have hacyclic : d.Acyclic := by
    refine acyclic_run fun before e after heq => ?_
    rcases before with _ | ⟨e₁, before⟩
    · obtain ⟨rfl, -⟩ := List.cons.inj heq
      exact id
    · simp at heq
  have hkind : d.kind? ⟨5, 0⟩ = some .element := by rfl
  have hlive : d.Live ⟨2, 0⟩ := by
    unfold Live
    decide
  have hitem : d.children ⟨2, 0⟩ = [⟨3, 0⟩] := by rfl
  have htext : d.children ⟨3, 0⟩ = [] := by rfl
  have hbelow : d.Child ⟨2, 0⟩ ⟨3, 0⟩ := by
    rw [Child, hitem]
    exact List.mem_singleton_self _
  have hnot : ¬ ReflTransGen d.Child ⟨2, 0⟩ ⟨5, 0⟩ := by
    intro hreach
    rcases ReflTransGen.cases_head hreach with heq | ⟨x, hx, hreach⟩
    · exact absurd heq (by decide)
    rw [Child, hitem, List.mem_singleton] at hx
    subst hx
    rcases ReflTransGen.cases_head hreach with heq | ⟨x, hx, -⟩
    · exact absurd heq (by decide)
    · rw [Child, htext] at hx
      cases hx
  obtain ⟨d', hd', htransferred, hcount⟩ := append_transfers hacyclic hkind (.inr rfl) hlive hnot
  refine ⟨hacyclic, hkind, hlive, hnot, d', hd', ?_, ?_, ?_, ?_⟩
  · rw [children, htransferred.receiver]
    rfl
  · rw [children, htransferred.former ⟨1, 0⟩ rfl (by decide)]
    rfl
  · exact htransferred.below ⟨3, 0⟩ (.single hbelow)
  · exact hcount.trans (by decide)

end DataBinding.Document
