/-
  What a forest of markup adds to a document.

  A document is `Grafted` from another one if outlines of new nodes have been put
  at the end of a node, and everything else is as it was.

  * `Outline.StandAll`: outlines are those of a forest, apart from the handles;
  * `Grafted.link`: a new node, once everything below it is there, is put at the
    end of its parent;
  * `insertForest_grafted`: adding a forest succeeds, and what it adds stands for
    the forest.
-/
import DataBinding.Proofs.Document.Tree

namespace DataBinding

namespace Outline

mutual

/-- An outline is that of a node of markup, apart from the handles. -/
def Stands : Outline → Markup → Prop
  | node _ content children, .text s => content = some (.text s) ∧ children = []
  | node _ content children, .comment s => content = some (.comment s) ∧ children = []
  | node _ content children, .element tag attributes forest =>
    content = some (.element ⟨tag, attributes, none⟩) ∧ StandAll children forest

/-- Outlines are those of a forest, apart from the handles. -/
def StandAll : List Outline → List Markup → Prop
  | [], [] => True
  | o :: os, m :: rest => Stands o m ∧ StandAll os rest
  | [], _ :: _ | _ :: _, [] => False

end

mutual

theorem markup_of_stands : ∀ {o : Outline} {m : Markup}, o.Stands m → o.markup = [m]
  | node _ _ _, .text _, ⟨rfl, _⟩ => rfl
  | node _ _ _, .comment _, ⟨rfl, _⟩ => rfl
  | node _ _ _, .element _ _ _, ⟨rfl, h⟩ => by rw [markup, markupAll_of_standAll h]

theorem markupAll_of_standAll : ∀ {os : List Outline} {forest : List Markup},
    StandAll os forest → markupAll os = forest
  | [], [], _ => rfl
  | _ :: _, _ :: _, ⟨h, h'⟩ => by
    rw [markupAll, markup_of_stands h, markupAll_of_standAll h']
    rfl

end

end Outline

/-- The nodes of markup that stand for a text. -/
def Markup.ofText (s : String) : List Markup :=
  if s.isEmpty then [] else [.text s]

/-- Outlines are a piece of text, or nothing if the text is empty. -/
def Outline.TextOnly (os : List Outline) (s : String) : Prop :=
  s = "" ∧ os = [] ∨ ∃ n, os = [.node n (some (.text s)) []]

/-- Nothing stands for the empty text, and a piece of text for any other. -/
theorem Outline.standAll_ofText {os : List Outline} {s : String}
    (h : StandAll os (Markup.ofText s)) : TextOnly os s := by
  unfold Markup.ofText at h
  split at h
  next hs =>
    cases os with
    | nil => exact .inl ⟨String.isEmpty_iff.1 hs, rfl⟩
    | cons o rest => exact h.elim
  next =>
    rcases os with _ | ⟨⟨n, content, children⟩, _ | ⟨o, rest⟩⟩
    · exact h.elim
    · obtain ⟨⟨rfl, rfl⟩, -⟩ := h
      exact .inr ⟨n, rfl⟩
    · exact h.2.elim

namespace Document

open Outline (preorderAll mem_preorder mem_preorderAll)

variable {L : Type} {d d' d'' : Document L} {p : NodeId} {node : Node L} {os : List Outline}

/-- A document in which fresh outlines of new nodes have been put at the end of a
    node, and which is otherwise as it was. -/
structure Grafted (d d' : Document L) (p : NodeId) (node : Node L) (os : List Outline) :
    Prop where
  /-- Slots and links are sound. -/
  joined : d'.Joined
  /-- The node has more children at the end. -/
  here : d'.node? p = some { node with children := node.children ++ os.map Outline.id }
  /-- The other nodes are as they were. -/
  elsewhere : ∀ x, d.Live x → x ≠ p → d'.node? x = d.node? x
  /-- What is added is fresh. -/
  fresh : ∀ o ∈ os, d'.Fresh o
  /-- It consists of new nodes. -/
  new : ∀ x ∈ preorderAll os, ¬ d.Live x
  /-- There are no other new nodes. -/
  only : ∀ x, d'.Live x → d.Live x ∨ x ∈ preorderAll os

namespace Grafted

theorem refl (h : d.Joined) (hp : d.node? p = some node) : Grafted d d p node [] where
  joined := h
  here := by rw [hp, List.map_nil, List.append_nil]
  elsewhere _ _ _ := rfl
  fresh _ ho := absurd ho List.not_mem_nil
  new _ hx := absurd hx List.not_mem_nil
  only _ hx := .inl hx

theorem live (h : Grafted d d' p node os) {x : NodeId} (hx : d.Live x) : d'.Live x := by
  by_cases hxp : x = p
  · exact hxp ▸ .of_eq h.here
  · rwa [Live, h.elsewhere x hx hxp]

/-- More outlines after the first. -/
theorem trans {o : Outline} (hp : d.node? p = some node) (h : Grafted d d' p node [o])
    (h' : Grafted d' d'' p { node with children := node.children ++ [o.id] } os) :
    Grafted d d'' p node (o :: os) where
  joined := h'.joined
  here := by rw [h'.here, List.map_cons, List.append_assoc, List.singleton_append]
  elsewhere x hx hxp := by rw [h'.elsewhere x (h.live hx) hxp, h.elsewhere x hx hxp]
  fresh := by
    refine List.forall_mem_cons.2 ⟨?_, h'.fresh⟩
    have ho := h.fresh o List.mem_cons_self
    refine ho.congr fun x hx => h'.elsewhere x (ho.reads.live_of_mem hx) ?_
    rintro rfl
    exact h.new x (mem_preorderAll.2 ⟨o, List.mem_cons_self, hx⟩) (.of_eq hp)
  new x hmem := by
    rw [Outline.preorderAll, List.mem_append] at hmem
    rcases hmem with hxo | hmem
    · exact h.new x (mem_preorderAll.2 ⟨o, List.mem_cons_self, hxo⟩)
    · exact fun hlive => h'.new x hmem (h.live hlive)
  only x hx := by
    rw [Outline.preorderAll, List.mem_append]
    rcases h'.only x hx with hx | hx
    · refine (h.only x hx).imp_right fun hx => .inl ?_
      simpa [mem_preorderAll] using hx
    · exact .inr (.inr hx)

/-- A new node, with what has been added below it, is put at the end of a node. -/
theorem link {content : NodeContent} (h : d.Joined) (hp : d.node? p = some node)
    (hholds : node.content.holdsChildren = true)
    (hleaf : content.holdsChildren = false → os = [])
    (hg : Grafted (d.alloc content).2 d' (d.alloc content).1 (isolated content) os) :
    ∃ d'', d'.append p (d.alloc content).1 = (.ok (), d'') ∧
      Grafted d d'' p node [.node (d.alloc content).1 (some content) os] := by
  have hnew := h.pooled.not_live_alloc content
  have hlive := h.pooled.live_alloc content
  have halloc := h.pooled.node?_alloc content
  generalize d.alloc content = made at *
  obtain ⟨id, d₁⟩ := made
  dsimp only at *
  have hplive : d.Live p := .of_eq hp
  have hpid : p ≠ id := fun heq => hnew (heq ▸ hplive)
  have hold : ∀ x, d.Live x → x ≠ id := fun x hx heq => hnew (heq ▸ hx)
  have hsame : ∀ x, d.Live x → d'.node? x = d.node? x := fun x hx => by
    rw [hg.elsewhere x ((hlive x).2 (.inr hx)) (hold x hx), halloc, if_neg (hold x hx)]
  have hid : d'.node? id = some ⟨none, os.map Outline.id, content, []⟩ := hg.here
  -- nothing lists the new node yet
  have hunlinked : ∀ x, d'.parent? id ≠ some x := fun x => by
    rw [parent?_eq hid]
    nofun
  have hunlisted : id ∉ node.children := by
    rw [← children_eq ((hsame p hplive).trans hp), hg.joined.linked.mem_children]
    exact hunlinked p
  obtain ⟨d₃, hd₃, hr, hx⟩ :=
    node?_append hg.joined.linked ((hsame p hplive).trans hp) hholds (.of_eq hid)
  have hother : ∀ x, x ≠ p → x ≠ id → d₃.node? x = d'.node? x := fun x hxp hxid =>
    node?_moved_elsewhere hg.joined.linked hx hxid hxp (hunlinked x)
  have hinner : ∀ x ∈ preorderAll os, x ≠ p ∧ x ≠ id := fun x hmem =>
    ⟨fun heq => hg.new x hmem ((hlive x).2 (.inr (heq ▸ hplive))),
      fun heq => hg.new x hmem ((hlive x).2 (.inl heq))⟩
  exact ⟨d₃, hd₃, {
    joined := hg.joined.moved ((hsame p hplive).trans hp) (.of_eq hid) hr hx
    here := by
      rw [hx, hsame p hplive, hp, Option.map_some, Node.moved_of_not_mem hunlisted, if_neg hpid,
        if_pos rfl]
      rfl
    elsewhere := fun x hlive hxp => (hother x hxp (hold x hlive)).trans (hsame x hlive)
    fresh := by
      refine List.forall_mem_singleton.2
        (.node (?_ : d₃.node? id = some ⟨some p, _, _, _⟩) hleaf fun o ho => ?_)
      · rw [node?_moved_of_unlinked hg.joined.linked hx hpid.symm (hunlinked id), hid,
          Option.map_some, if_pos rfl]
      · refine (hg.fresh o ho).congr fun x hxo => ?_
        obtain ⟨hxp, hxid⟩ := hinner x (mem_preorderAll.2 ⟨o, ho, hxo⟩)
        exact hother x hxp hxid
    new := fun x hmem hxlive => by
      obtain ⟨o, ho, hxo⟩ := mem_preorderAll.1 hmem
      obtain rfl := List.mem_singleton.1 ho
      rcases mem_preorder.1 hxo with rfl | hbelow
      · exact hnew hxlive
      · exact hg.new x (mem_preorderAll.2 hbelow) ((hlive x).2 (.inr hxlive))
    only := fun x hxlive => by
      rw [Live, hx, Option.isSome_map] at hxlive
      rw [mem_preorderAll]
      rcases hg.only x hxlive with hx₁ | hmem
      · rcases (hlive x).1 hx₁ with rfl | hx₁
        · exact .inr ⟨_, List.mem_cons_self, mem_preorder.2 (.inl rfl)⟩
        · exact .inl hx₁
      · exact .inr ⟨_, List.mem_cons_self, mem_preorder.2 (.inr (mem_preorderAll.1 hmem))⟩ }⟩

end Grafted

mutual

/-- Adding a node of markup succeeds, and what it adds stands for the node. -/
theorem insertNode_grafted : ∀ (m : Markup) {d : Document L} {p : NodeId} {node : Node L},
    d.Joined → d.node? p = some node → node.content.holdsChildren = true →
      ∃ d' o, d.insertNode p m = (.ok (), d') ∧ Grafted d d' p node [o] ∧ o.Stands m
  | .text s, d, p, node, h, hp, hholds => by
    have hg : Grafted (d.alloc (.text s)).2 _ _ _ [] := .refl (h.alloc (.text s))
      ((h.pooled.node?_alloc (.text s) _).trans (if_pos rfl))
    obtain ⟨d', hd', hg'⟩ := Grafted.link h hp hholds (fun _ => rfl) hg
    exact ⟨d', _, hd', hg', rfl, rfl⟩
  | .comment s, d, p, node, h, hp, hholds => by
    have hg : Grafted (d.alloc (.comment s)).2 _ _ _ [] := .refl (h.alloc (.comment s))
      ((h.pooled.node?_alloc (.comment s) _).trans (if_pos rfl))
    obtain ⟨d', hd', hg'⟩ := Grafted.link h hp hholds (fun _ => rfl) hg
    exact ⟨d', _, hd', hg', rfl, rfl⟩
  | .element tag attributes children, d, p, node, h, hp, hholds => by
    obtain ⟨d₁, os, hd₁, hg, hstand⟩ := insertForest_grafted children
      (h.alloc (.element ⟨tag, attributes, none⟩))
      ((h.pooled.node?_alloc (.element ⟨tag, attributes, none⟩) _).trans (if_pos rfl)) rfl
    obtain ⟨d', hd', hg'⟩ := Grafted.link h hp hholds (fun hnot => by cases hnot) hg
    refine ⟨d', _, ?_, hg', rfl, hstand⟩
    rw [insertNode_element, hd₁]
    exact hd'

/-- **Adding a forest of markup succeeds**, and what it adds stands for the
    forest. -/
theorem insertForest_grafted : ∀ (forest : List Markup) {d : Document L} {p : NodeId}
    {node : Node L}, d.Joined → d.node? p = some node → node.content.holdsChildren = true →
      ∃ d' os, d.insertForest p forest = (.ok (), d') ∧ Grafted d d' p node os ∧
        Outline.StandAll os forest
  | [], d, p, node, h, hp, _ => ⟨d, [], rfl, .refl h hp, trivial⟩
  | m :: rest, d, p, node, h, hp, hholds => by
    obtain ⟨d₁, o, hd₁, hg, hm⟩ := insertNode_grafted m h hp hholds
    obtain ⟨d₂, os, hd₂, hg', hrest⟩ := insertForest_grafted rest hg.joined hg.here hholds
    refine ⟨d₂, o :: os, ?_, hg.trans hp hg', hm, hrest⟩
    rw [insertForest, hd₁]
    exact hd₂

end

end Document

end DataBinding
