/-
  A text in the place of what is below an element.

  `Document.equipped?` is what of a document takes part in events: its elements, each
  with what listens on it.  A change of one node, and a text put below an element
  (`Texted`), leave all elements equipped as they were, but for that node and those that
  were below it.

  * `Bears.under_iff`: what is under an element is in the outlines below it;
  * `setText_survivors`: the nodes that are there after the text of an element has been
    set;
  * `Bears.setText`, `Texted.equipped?`: what is below the element then, and which
    elements are left;
  * `Worded`: nothing but texts is below a node.
-/
import DataBinding.Proofs.Document.Rendering

namespace DataBinding.Document

open Outline (preorderAll mem_preorder mem_preorderAll)
open Relation (ReflTransGen)

variable {L : Type} {d d' : Document L} {n x : NodeId} {os os' : List Outline}

/-! ## Elements with their listeners -/

/-- An element, with what listens on it. -/
def equipped? (d : Document L) (x : NodeId) : Option (Element × List (String × L)) :=
  (d.node? x).bind fun node => node.content.element?.map fun e => (e, node.listeners)

theorem equipped?_congr (h : d'.node? x = d.node? x) : d'.equipped? x = d.equipped? x := by
  rw [equipped?, h]
  rfl

theorem equipped?_eq_none (h : d.node? x = none) : d.equipped? x = none := by
  rw [equipped?, h]
  rfl

section

variable {parent : Option NodeId} {children : List NodeId} {e : Element} {s : String}
  {listeners : List (String × L)}

theorem equipped?_element (h : d.node? x = some ⟨parent, children, .element e, listeners⟩) :
    d.equipped? x = some (e, listeners) := by
  rw [equipped?, h]
  rfl

theorem equipped?_text (h : d.node? x = some ⟨parent, children, .text s, listeners⟩) :
    d.equipped? x = none := by
  rw [equipped?, h]
  rfl

theorem equipped?_eq_some (h : d.equipped? x = some (e, listeners)) :
    ∃ parent children, d.node? x = some ⟨parent, children, .element e, listeners⟩ := by
  obtain ⟨⟨parent, children, content, listeners'⟩, hnode, h⟩ := Option.bind_eq_some_iff.1 h
  cases content with
  | element e' =>
    cases h
    exact ⟨parent, children, hnode⟩
  | _ => cases h

theorem element?_equipped (d : Document L) (x : NodeId) :
    d.element? x = (d.equipped? x).map Prod.fst := by
  unfold element? equipped?
  cases d.node? x with
  | none => rfl
  | some node =>
    rw [Option.bind_some, Option.bind_some, Option.map_map]
    exact Option.map_id'.symm

/-- What listens on an element for an event type. -/
theorem listeners_equipped (h : d.equipped? x = some (e, listeners)) (eventType : String) :
    d.listeners x eventType = (listeners.filter (·.1 == eventType)).map Prod.snd := by
  obtain ⟨parent, children, hnode⟩ := equipped?_eq_some h
  rw [Document.listeners, hnode]
  rfl

end

/-! ## Nodes changed in their place -/

namespace Altered

variable {parent parent' : Option NodeId} {children children' : List NodeId} {e e' : Element}
  {s s' : String} {listeners listeners' : List (String × L)}

/-- One element is equipped differently, and all others as they were. -/
theorem equipped? (ha : Altered d d' n ⟨parent, children, .element e, listeners⟩) (x : NodeId) :
    d'.equipped? x = if x = n then some (e, listeners) else d.equipped? x := by
  split
  next hx => exact hx ▸ equipped?_element ha.here
  next hx => exact equipped?_congr (ha.elsewhere x hx)

/-- Texts are no elements. -/
theorem equipped?_of_text (hn : d.node? n = some ⟨parent', children', .text s', listeners'⟩)
    (ha : Altered d d' n ⟨parent, children, .text s, listeners⟩) (x : NodeId) :
    d'.equipped? x = d.equipped? x := by
  by_cases hx : x = n
  · subst hx
    rw [equipped?_text ha.here, equipped?_text hn]
  · exact equipped?_congr (ha.elsewhere x hx)

theorem leafy {node : Node L} (ha : Altered d d' n node) (h : d.Leafy) (hnode : node.Leafy) :
    d'.Leafy := by
  intro x m hm
  by_cases hx : x = n
  · subst hx
    rw [ha.here, Option.some.injEq] at hm
    exact hm ▸ hnode
  · exact h x m ((ha.elsewhere x hx).symm.trans hm)

theorem reads {node : Node L} (ha : Altered d d' n node) {o : Outline} (h : d.Reads o)
    (hn : n ∉ o.preorder) : d'.Reads o :=
  h.congr fun x hx => ha.elsewhere x fun heq => hn (heq ▸ hx)

end Altered

/-! ## Nothing but texts -/

/-- Nothing but texts is below a node. -/
def Worded (d : Document L) (n : NodeId) : Prop := ∀ c ∈ d.children n, d.kind? c = some .text

theorem kind?_text (h : d.kind? x = some .text) : ∃ parent children s listeners,
    d.node? x = some ⟨parent, children, .text s, listeners⟩ := by
  obtain ⟨⟨parent, children, content, listeners⟩, hnode, hkind⟩ := Option.map_eq_some_iff.1 h
  cases content with
  | text s => exact ⟨parent, children, s, listeners, hnode⟩
  | _ => cases hkind

/-- The children of a worded element are the texts below it. -/
theorem Worded.bears (h : d.Worded n) (hjoined : d.Joined) (hleafy : d.Leafy) {e : Element}
    {listeners : List (String × L)} (hn : d.equipped? n = some (e, listeners)) :
    ∃ os, d.Bears n os ∧ ∀ x ∈ preorderAll os, d.kind? x = some .text := by
  obtain ⟨parent, children, hnode⟩ := equipped?_eq_some hn
  have hread : ∀ cs : List NodeId, (∀ c ∈ cs, d.kind? c = some .text) →
      ∃ os : List Outline, cs = os.map Outline.id ∧ (∀ o ∈ os, d.Reads o) ∧ preorderAll os = cs := by
    intro cs
    induction cs with
    | nil => exact fun _ => ⟨[], rfl, fun _ => nofun, rfl⟩
    | cons c cs ih =>
      intro hcs
      obtain ⟨hc, hcs⟩ := List.forall_mem_cons.1 hcs
      obtain ⟨os, hids, hreads, hall⟩ := ih hcs
      obtain ⟨p, children, s, ls, hc⟩ := kind?_text hc
      obtain rfl : children = [] := (hleafy c _ hc rfl).1
      refine ⟨.node c (some (.text s)) [] :: os, by rw [List.map_cons, ← hids]; rfl,
        List.forall_mem_cons.2 ⟨.node hc fun _ => nofun, hreads⟩, ?_⟩
      rw [Outline.preorderAll, hall]
      rfl
  rw [Worded, children_eq hnode] at h
  obtain ⟨os, rfl, hreads, hall⟩ := hread children h
  exact ⟨os, ⟨hjoined, hleafy, ⟨parent, e, listeners, hnode⟩, hreads⟩, hall ▸ h⟩

theorem Altered.kind?_eq {node node' : Node L} (ha : Altered d d' n node')
    (hn : d.node? n = some node) (hkind : node'.content.kind = node.content.kind) (x : NodeId) :
    d'.kind? x = d.kind? x := by
  by_cases hx : x = n
  · subst hx
    rw [kind?, kind?, ha.here, hn, Option.map_some, Option.map_some, hkind]
  · rw [kind?, kind?, ha.elsewhere x hx]

theorem Altered.worded {parent : Option NodeId} {children : List NodeId}
    {content content' : NodeContent} {listeners listeners' : List (String × L)}
    (ha : Altered d d' n ⟨parent, children, content', listeners'⟩)
    (hn : d.node? n = some ⟨parent, children, content, listeners⟩)
    (hkind : content'.kind = content.kind) (h : d.Worded x) : d'.Worded x := by
  have hchildren : d'.children x = d.children x := by
    by_cases hx : x = n
    · subst hx
      rw [children_eq ha.here, children_eq hn]
    · rw [Document.children, Document.children, ha.elsewhere x hx]
  intro c hc
  rw [hchildren] at hc
  exact (ha.kind?_eq hn hkind c).trans (h c hc)

/-! ## Setting the text of an element -/

theorem Bears.under_iff (h : d.Bears n os) : d.Under n x ↔ x ∈ preorderAll os := by
  obtain ⟨parent, e, listeners, hn⟩ := h.here
  exact (Reads.node hn h.reads).under_node_iff

/-- **What survives** the setting of the text of an element: the element, the text, and
    what was not under the element. -/
theorem setText_survivors (h : d.Bears n os) {s : String} (hd : d.setText n s = (.ok (), d'))
    (hx : d'.Live x) : x = n ∨ x ∈ d'.children n ∨ d.Live x ∧ ¬ d.Under n x := by
  obtain ⟨parent, e, listeners, hn⟩ := h.here
  have hself := h.not_under
  obtain ⟨hjoined, hhere, hdead, hgone, -⟩ := h.joined.clearChildren hn hself
  have hcleared : ∀ y, (d.clearChildren n).Live y → d.Live y ∧ ¬ d.Under n y := fun y hy =>
    ⟨by_contra fun hy' => hdead y hy' hy, fun hy' => hgone y hy' hy⟩
  rcases setText_cases hn rfl s with ⟨-, hset⟩ | ⟨c, -, hlone, hset⟩
  · obtain ⟨d₁, os₁, hd₁, hg, hstand⟩ := insertForest_grafted (Markup.ofText s) hjoined hhere rfl
    rw [hset, replaceByText_eq, hd₁] at hd
    obtain rfl : d₁ = d' := congrArg Prod.snd hd
    rcases hg.only x hx with hold | hnew
    · exact .inr (.inr (hcleared x hold))
    · refine .inr (.inl ?_)
      rw [Document.children_eq hg.here]
      rcases Outline.standAll_ofText hstand with ⟨-, rfl⟩ | ⟨c, rfl⟩
      · cases hnew
      · exact hnew
  · rw [hset] at hd
    obtain rfl := congrArg Prod.snd hd
    have hx' : d.Live x := (live_update _ _ _).1 hx
    by_cases hu : d.Under n x
    · obtain ⟨hcs, p, cs, t, ls, hc⟩ := loneText?_eq_some hlone
      obtain ⟨c', hc', hcx⟩ := hu
      dsimp only at hcs
      rw [children_eq hn, hcs] at hc'
      obtain rfl := List.mem_singleton.1 hc'
      obtain rfl : cs = [] := (h.leafy c' _ hc rfl).1
      rcases ReflTransGen.cases_head hcx with rfl | ⟨y, hy, -⟩
      · by_cases hxn : c' = n
        · exact .inl hxn
        · refine .inr (.inl ?_)
          rw [Document.children, node?_update, if_neg (Ne.symm hxn), hn]
          exact hcs ▸ List.mem_singleton_self c'
      · have := hy.2
        rw [children_eq hc] at this
        cases this
    · exact .inr (.inr ⟨hx', hu⟩)

/-- A document in which a text is below an element, or nothing, in the place of some
    outlines. -/
structure Texted (d d' : Document L) (n : NodeId) (os os' : List Outline) : Prop where
  /-- The element bears other outlines. -/
  bears : d'.Bears n os'
  /-- Other nodes are as they were. -/
  elsewhere : ∀ x, d.Live x → x ≠ n → x ∉ preorderAll os → d'.node? x = d.node? x
  /-- The outlines are of nodes that were there, or of new ones. -/
  inside : ∀ x ∈ preorderAll os', x ∈ preorderAll os ∨ ¬ d.Live x
  /-- The element is as it was, but for its children. -/
  here : ∀ node, d.node? n = some node → ∃ children, d'.node? n = some { node with children }
  /-- Below it there are texts only. -/
  leaves : ∀ x ∈ preorderAll os', d'.kind? x = some .text
  /-- There is nothing else. -/
  survivors : ∀ x, d'.Live x → x = n ∨ x ∈ preorderAll os' ∨ d.Live x ∧ x ∉ preorderAll os

/-- **A text is put** in the place of what is below an element. -/
theorem Bears.setText (h : d.Bears n os) (s : String) :
    ∃ d' os', d.setText n s = (.ok (), d') ∧ Texted d d' n os os' := by
  obtain ⟨parent, e, listeners, hn⟩ := h.here
  obtain ⟨d', os', hd', hreworked⟩ := setText_reworked h s
  obtain ⟨d'', hd'', hretexted⟩ :=
    setText_element h.joined hn h.not_under (fun c _ m hm => h.leafy c m hm) s
  obtain rfl : d' = d'' := congrArg Prod.snd (hd'.symm.trans hd'')
  obtain ⟨children, hhere, honly, -⟩ := hretexted.here
  have hall : ∀ x, x ∈ preorderAll os' ↔ x ∈ children := by
    have hids := hreworked.bears.children_eq
    rw [Document.children_eq hhere] at hids
    intro x
    rw [← hreworked.bears.under_iff]
    refine ⟨honly.mem_of_under hhere, fun hx => ⟨x, ?_, .refl⟩⟩
    rwa [Document.children_eq hhere]
  refine ⟨d', os', hd', hreworked.bears, hreworked.elsewhere, hreworked.inside, ?_, ?_, ?_⟩
  · intro node hnode
    rw [hn, Option.some.injEq] at hnode
    exact hnode ▸ ⟨children, hhere⟩
  · intro x hx
    rw [hall] at hx
    rcases honly with ⟨-, rfl⟩ | ⟨c, rfl, hc⟩
    · cases hx
    · rw [List.mem_singleton.1 hx, kind?, hc]
      rfl
  · intro x hx
    rw [hall, ← h.under_iff]
    have hsurvives := setText_survivors h hd' hx
    rwa [Document.children_eq hhere] at hsurvives

namespace Texted

variable (ht : Texted d d' n os os')

include ht

/-- The elements that were below the element are gone; all others are equipped as they
    were. -/
theorem equipped? (hbears : d.Bears n os) (x : NodeId) :
    d'.equipped? x = if x ∈ preorderAll os then none else d.equipped? x := by
  have hleaf : x ∈ preorderAll os' → d'.equipped? x = none := fun hx => by
    obtain ⟨parent, children, s, listeners, hnode⟩ := kind?_text (ht.leaves x hx)
    exact equipped?_text hnode
  obtain ⟨parent, e, listeners, hn⟩ := hbears.here
  obtain ⟨children, hhere⟩ := ht.here _ hn
  split
  next hx =>
    cases hnode : d'.node? x with
    | none => exact equipped?_eq_none hnode
    | some node =>
      rcases ht.survivors x (.of_eq hnode) with rfl | hx' | ⟨-, hx'⟩
      · exact absurd hx hbears.not_mem
      · exact hleaf hx'
      · exact absurd hx hx'
  next hx =>
    by_cases hxn : x = n
    · subst hxn
      rw [equipped?_element hn, equipped?_element hhere]
    by_cases hlive : d.Live x
    · exact equipped?_congr (ht.elsewhere x hlive hxn hx)
    · rw [equipped?_eq_none (Option.not_isSome_iff_eq_none.1 hlive)]
      cases hnode : d'.node? x with
      | none => exact equipped?_eq_none hnode
      | some node =>
        rcases ht.survivors x (.of_eq hnode) with rfl | hx' | ⟨hlive', -⟩
        · exact absurd rfl hxn
        · exact hleaf hx'
        · exact absurd hlive' hlive

/-- A node is of the kind that it was of, or a text, or gone. -/
theorem kind?_cases (hbears : d.Bears n os) (x : NodeId) :
    d'.kind? x = none ∨ d'.kind? x = some .text ∨ d'.kind? x = d.kind? x := by
  cases hnode : d'.node? x with
  | none => exact .inl (by rw [kind?, hnode]; rfl)
  | some node =>
    rcases ht.survivors x (.of_eq hnode) with rfl | hx | ⟨hlive, hx⟩
    · obtain ⟨parent, e, listeners, hn⟩ := hbears.here
      obtain ⟨children, hhere⟩ := ht.here _ hn
      exact .inr (.inr (by rw [kind?, kind?, hn, hhere]; rfl))
    · exact .inr (.inl (ht.leaves x hx))
    · by_cases hxn : x = n
      · obtain ⟨parent, e, listeners, hn⟩ := hbears.here
        obtain ⟨children, hhere⟩ := ht.here _ hn
        exact .inr (.inr (by rw [kind?, kind?, hxn, hn, hhere]; rfl))
      · exact .inr (.inr (by rw [kind?, kind?, ht.elsewhere x hlive hxn hx]))

theorem worded_self : d'.Worded n := fun c hc => by
  rw [ht.bears.children_eq] at hc
  obtain ⟨o, ho, rfl⟩ := List.mem_map.1 hc
  exact ht.leaves _ (mem_preorderAll.2 ⟨o, ho, o.id_mem_preorder⟩)

/-- Where nothing but texts was below a node, nothing else is. -/
theorem worded (hbears : d.Bears n os) (h : d.Worded x) : d'.Worded x := by
  by_cases hxn : x = n
  · exact hxn ▸ ht.worded_self
  intro c hc
  have hlive : d'.Live c := ht.bears.joined.linked.live_child hc
  have hx : d'.children x = d.children x ∨ d'.children x = [] := by
    cases hnode : d'.node? x with
    | none => exact .inr (by rw [Document.children, hnode]; rfl)
    | some node =>
      rcases ht.survivors x (.of_eq hnode) with rfl | hx | ⟨hlive, hx⟩
      · exact absurd rfl hxn
      · obtain ⟨parent, children, s, listeners, hx⟩ := kind?_text (ht.leaves x hx)
        exact .inr ((children_eq hx).trans (ht.bears.leafy x _ hx rfl).1)
      · exact .inl (by rw [Document.children, Document.children, ht.elsewhere x hlive hxn hx])
  rcases hx with hx | hx
  · rw [hx] at hc
    rcases ht.kind?_cases hbears c with hkind | hkind | hkind
    · rw [kind?, Option.map_eq_none_iff] at hkind
      rw [Live, hkind] at hlive
      cases hlive
    · exact hkind
    · exact hkind.trans (h c hc)
  · rw [hx] at hc
    cases hc

/-- Outlines that are elsewhere are as they were. -/
theorem reads {o : Outline} (h : d.Reads o) (hn : n ∉ o.preorder)
    (hos : ∀ x ∈ o.preorder, x ∉ preorderAll os) : d'.Reads o :=
  h.congr fun x hx => ht.elsewhere x (h.live_of_mem hx) (fun heq => hn (heq ▸ hx)) (hos x hx)

end Texted

end DataBinding.Document
