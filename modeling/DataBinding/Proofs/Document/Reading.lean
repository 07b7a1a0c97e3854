/-
  Outlines that a document reads as.

  A document `Reads` as an outline if the nodes of the outline are there with the
  content and the children that it gives.  Then nothing below a node leads back to
  it, so such an outline stands for a part of the document that is a tree.

  * `Reads.outlineWithin?_eq` and `Linked.reads`: these are the outlines that
    reading a document gives;
  * `Reads.nodup_preorder`: no node occurs in one twice, for a node has one
    parent;
  * `search?_eq`: a selector finds the first node that it matches in the outline of a
    document, if there is one.
-/
import DataBinding.Document.Outline
import DataBinding.Proofs.Document.Release

namespace DataBinding

variable {L : Type}

/-! ## Outlines -/

namespace Outline

theorem mem_preorderAll {y : NodeId} : ∀ {os : List Outline},
    y ∈ preorderAll os ↔ ∃ o ∈ os, y ∈ o.preorder
  | [] => by simp [preorderAll]
  | o :: rest => by simp [preorderAll, @mem_preorderAll y rest]

theorem mem_preorder {y id : NodeId} {content : Option NodeContent} {children : List Outline} :
    y ∈ (node id content children).preorder ↔ y = id ∨ ∃ o ∈ children, y ∈ o.preorder := by
  rw [preorder, List.mem_cons, mem_preorderAll]

theorem id_mem_preorder : ∀ o : Outline, o.id ∈ o.preorder
  | node _ _ _ => mem_preorder.2 (.inl rfl)

theorem preorderAll_singleton (o : Outline) : preorderAll [o] = o.preorder := by
  rw [preorderAll, preorderAll, List.append_nil]

theorem nodup_head {o : Outline} {os : List Outline} (h : (preorderAll (o :: os)).Nodup) :
    (preorderAll [o]).Nodup := by
  rw [preorderAll_singleton]
  exact (List.nodup_append'.1 h).1

theorem nodup_tail {o : Outline} {os : List Outline} (h : (preorderAll (o :: os)).Nodup) :
    (preorderAll os).Nodup :=
  (List.nodup_append'.1 h).2.1

theorem nodup_below {id : NodeId} {content : Option NodeContent} {children : List Outline}
    (h : (preorderAll [.node id content children]).Nodup) : (preorderAll children).Nodup := by
  rw [preorderAll_singleton, preorder] at h
  exact (List.nodup_cons.1 h).2

theorem preorderAll_append (os rest : List Outline) :
    preorderAll (os ++ rest) = preorderAll os ++ preorderAll rest := by
  induction os with
  | nil => rfl
  | cons o os ih => rw [List.cons_append, preorderAll, preorderAll, ih, List.append_assoc]

mutual

/-- The number of nodes on the longest way down. -/
def height : Outline → Nat
  | node _ _ children => heightAll children + 1

/-- The greatest height. -/
def heightAll : List Outline → Nat
  | [] => 0
  | o :: rest => max (height o) (heightAll rest)

end

mutual

/-- A condition on the attributes of every element in an outline. -/
def Every (A : List (String × String) → Prop) : Outline → Prop
  | node _ content children =>
    (∀ e, content = some (.element e) → A e.attributes) ∧ EveryOf A children

/-- A condition on the attributes of every element in outlines. -/
def EveryOf (A : List (String × String) → Prop) : List Outline → Prop
  | [] => True
  | o :: rest => Every A o ∧ EveryOf A rest

end

mutual

instance decidableEvery (A : List (String × String) → Prop) [DecidablePred A] :
    ∀ o : Outline, Decidable (o.Every A)
  | node _ content children =>
    have := decidableEveryOf A children
    match content with
    | some (.element e) =>
      decidable_of_iff (A e.attributes ∧ EveryOf A children)
        ⟨fun h => ⟨fun _ heq => by cases heq; exact h.1, h.2⟩, fun h => ⟨h.1 e rfl, h.2⟩⟩
    | none | some (.text _) | some (.comment _) | some .document =>
      decidable_of_iff (EveryOf A children) ⟨fun h => ⟨nofun, h⟩, And.right⟩

instance decidableEveryOf (A : List (String × String) → Prop) [DecidablePred A] :
    ∀ os, Decidable (EveryOf A os)
  | [] => .isTrue trivial
  | o :: rest =>
    have := decidableEvery A o
    have := decidableEveryOf A rest
    inferInstanceAs (Decidable (_ ∧ _))

end

theorem everyOf_iff {A : List (String × String) → Prop} : ∀ {os : List Outline},
    EveryOf A os ↔ ∀ o ∈ os, Every A o
  | [] => by simp [EveryOf]
  | o :: rest => by rw [EveryOf, everyOf_iff, List.forall_mem_cons]

mutual

theorem every_and {A B : List (String × String) → Prop} : ∀ {o : Outline},
    o.Every A → o.Every B → o.Every fun attributes => A attributes ∧ B attributes
  | node _ _ _, h, h' => ⟨fun e he => ⟨h.1 e he, h'.1 e he⟩, everyOf_and h.2 h'.2⟩

theorem everyOf_and {A B : List (String × String) → Prop} : ∀ {os : List Outline},
    EveryOf A os → EveryOf B os → EveryOf (fun attributes => A attributes ∧ B attributes) os
  | [], _, _ => trivial
  | _ :: _, h, h' => ⟨every_and h.1 h'.1, everyOf_and h.2 h'.2⟩

end

/-- Outlines are the same if those of the same nodes are. -/
theorem eq_of_ids : ∀ {os os' : List Outline}, os.map id = os'.map id →
    (∀ o ∈ os, ∀ o' ∈ os', o.id = o'.id → o = o') → os = os'
  | [], [], _, _ => rfl
  | o :: os, o' :: os', hids, h => by
    obtain ⟨hid, hids⟩ := List.cons.inj hids
    rw [h o List.mem_cons_self o' List.mem_cons_self hid, eq_of_ids hids fun a ha b hb =>
      h a (List.mem_cons_of_mem _ ha) b (List.mem_cons_of_mem _ hb)]

theorem heightAll_le {n : Nat} : ∀ {os : List Outline},
    heightAll os ≤ n ↔ ∀ o ∈ os, o.height ≤ n
  | [] => by simp [heightAll]
  | o :: rest => by
    rw [heightAll, Nat.max_le, heightAll_le, List.forall_mem_cons]

end Outline

theorem mapM_eq_some {α β : Type} {f : α → Option β} : ∀ {xs : List α} {ys : List β},
    xs.mapM f = some ys ↔ List.Forall₂ (fun x y => f x = some y) xs ys
  | [], ys => by cases ys <;> simp
  | x :: xs, ys => by
    rw [List.mapM_cons, List.forall₂_cons_left_iff]
    simp only [Option.bind_eq_bind, Option.bind_eq_some_iff, mapM_eq_some, Option.pure_def,
      Option.some.injEq]
    grind

theorem findSomeM?_eq_some {α β : Type} {f : α → Option (Option β)} {b : β} : ∀ {as : List α},
    as.findSomeM? f = some (some b) → ∃ a ∈ as, f a = some (some b)
  | a :: as, h => by
    rw [List.findSomeM?] at h
    cases ha : f a with
    | none =>
      rw [ha] at h
      cases h
    | some found =>
      cases found with
      | none =>
        rw [ha] at h
        obtain ⟨a', ha', h⟩ := findSomeM?_eq_some h
        exact ⟨a', List.mem_cons_of_mem _ ha', h⟩
      | some b' =>
        rw [ha] at h
        obtain rfl := Option.some.inj (Option.some.inj h)
        exact ⟨a, List.mem_cons_self, ha⟩

namespace Document

open Outline (preorderAll mem_preorder mem_preorderAll)

variable {d d' : Document L}

/-! ## Reading -/

/-- The nodes of an outline are in the document as the outline has them. -/
inductive Reads (d : Document L) : Outline → Prop
  /-- A node, and everything below it. -/
  | node {id : NodeId} {parent : Option NodeId} {content : NodeContent} {children : List Outline}
      {listeners : List (String × L)}
      (hnode : d.node? id = some ⟨parent, children.map Outline.id, content, listeners⟩)
      (hchildren : ∀ o ∈ children, d.Reads o) : d.Reads (.node id (some content) children)

namespace Reads

theorem congr {o : Outline} (h : d.Reads o)
    (hx : ∀ x ∈ o.preorder, d'.node? x = d.node? x) : d'.Reads o := by
  induction h with
  | @node id parent content children listeners hnode hchildren ih =>
    refine .node (?_ : d'.node? id = some ⟨parent, _, _, listeners⟩) fun o ho =>
      ih o ho fun x hxo => ?_
    · rw [hx id (mem_preorder.2 (.inl rfl)), hnode]
    · exact hx x (mem_preorder.2 (.inr ⟨o, ho, hxo⟩))

theorem live {o : Outline} (h : d.Reads o) : d.Live o.id := by
  obtain ⟨hnode, -⟩ := h
  exact .of_eq hnode

/-- Every node in an outline is the first of an outline in it. -/
theorem sub {o : Outline} (h : d.Reads o) {x : NodeId} (hx : x ∈ o.preorder) :
    ∃ o', d.Reads o' ∧ o'.id = x ∧ o'.height ≤ o.height ∧ ∀ y ∈ o'.preorder, y ∈ o.preorder := by
  induction h with
  | @node id parent content children listeners hnode hchildren ih =>
    rcases mem_preorder.1 hx with rfl | ⟨o, ho, hxo⟩
    · exact ⟨_, .node hnode hchildren, rfl, Nat.le_refl _, fun y hy => hy⟩
    · obtain ⟨o', hreads, hid, hheight, hsub⟩ := ih o ho hxo
      refine ⟨o', hreads, hid, ?_, fun y hy => mem_preorder.2 (.inr ⟨o, ho, hsub y hy⟩)⟩
      have := Outline.heightAll_le.1 (Nat.le_refl (Outline.heightAll children)) o ho
      rw [Outline.height]
      omega

theorem live_of_mem {o : Outline} (h : d.Reads o) {x : NodeId} (hx : x ∈ o.preorder) :
    d.Live x := by
  obtain ⟨o', hreads, rfl, -, -⟩ := h.sub hx
  exact hreads.live

/-- The children of a node in an outline are in it. -/
theorem mem_of_mem_children {o : Outline} (h : d.Reads o) {x y : NodeId} (hx : x ∈ o.preorder)
    (hy : y ∈ d.children x) : y ∈ o.preorder := by
  obtain ⟨o', hreads, rfl, -, hsub⟩ := h.sub hx
  obtain ⟨hnode, hchildren⟩ := hreads
  rw [Outline.id, children_eq hnode] at hy
  obtain ⟨c, hc, rfl⟩ := List.mem_map.1 hy
  exact hsub _ (mem_preorder.2 (.inr ⟨c, hc, c.id_mem_preorder⟩))

/-- What is under a node is in the outlines below it. -/
theorem mem_of_under {children : List Outline} (h : ∀ o ∈ children, d.Reads o) {n x : NodeId}
    (hn : d.children n = children.map Outline.id) (hx : d.Under n x) : x ∈ preorderAll children := by
  obtain ⟨c, hc, hcx⟩ := hx
  rw [hn] at hc
  obtain ⟨o, ho, rfl⟩ := List.mem_map.1 hc
  induction hcx with
  | refl => exact mem_preorderAll.2 ⟨o, ho, o.id_mem_preorder⟩
  | tail _ hstep ih =>
    obtain ⟨o', ho', hmem⟩ := mem_preorderAll.1 ih
    exact mem_preorderAll.2 ⟨o', ho', (h o' ho').mem_of_mem_children hmem hstep.2⟩

/-- What is in an outline under a node is under the node. -/
theorem under {n : NodeId} {o : Outline} (h : d.Reads o) (hid : d.Under n o.id)
    (hn : n ∉ o.preorder) : ∀ x ∈ o.preorder, d.Under n x := by
  induction h with
  | @node id parent content children listeners hnode hchildren ih =>
    intro x hx
    rcases mem_preorder.1 hx with rfl | ⟨o, ho, hxo⟩
    · exact hid
    · refine ih o ho (hid.step ⟨fun heq => hn (mem_preorder.2 (.inl heq.symm)), ?_⟩)
        (fun hmem => hn (mem_preorder.2 (.inr ⟨o, ho, hmem⟩))) x hxo
      rw [Outline.id, children_eq hnode]
      exact List.mem_map_of_mem ho

/-- Every node in an outline but the first is a child of another one. -/
theorem exists_parent {o : Outline} (h : d.Reads o) {x : NodeId} (hx : x ∈ o.preorder) :
    x = o.id ∨ ∃ p ∈ o.preorder, x ∈ d.children p := by
  induction h with
  | @node id parent content children listeners hnode hchildren ih =>
    rcases mem_preorder.1 hx with rfl | ⟨o, ho, hxo⟩
    · exact .inl rfl
    · refine .inr ?_
      rcases ih o ho hxo with rfl | ⟨p, hp, hxp⟩
      · refine ⟨id, mem_preorder.2 (.inl rfl), ?_⟩
        rw [children_eq hnode]
        exact List.mem_map_of_mem ho
      · exact ⟨p, mem_preorder.2 (.inr ⟨o, ho, hp⟩), hxp⟩

/-- There is one outline at most for a node. -/
theorem unique {o o' : Outline} (h : d.Reads o) (h' : d.Reads o') (hid : o.id = o'.id) :
    o = o' := by
  induction h generalizing o' with
  | @node id parent content children listeners hnode hchildren ih =>
    obtain @⟨id', parent', content', children', listeners', hnode', hchildren'⟩ := h'
    obtain rfl : id = id' := hid
    rw [hnode, Option.some.injEq, Node.mk.injEq] at hnode'
    obtain ⟨-, hmap, rfl, -⟩ := hnode'
    have hall : children = children' :=
      Outline.eq_of_ids hmap fun o ho o' ho' => ih o ho (hchildren' o' ho')
    rw [hall]

/-- A node is not below itself. -/
theorem not_mem_children {x : NodeId} {content : Option NodeContent} {children : List Outline}
    (h : d.Reads (.node x content children)) : x ∉ preorderAll children := by
  intro hmem
  obtain ⟨o, ho, hmem⟩ := mem_preorderAll.1 hmem
  have hreads : d.Reads o := by
    cases h with
    | node _ hchildren => exact hchildren o ho
  obtain ⟨o', hreads, hid, hheight, -⟩ := hreads.sub hmem
  obtain rfl := hreads.unique h hid
  have := Outline.heightAll_le.1 (Nat.le_refl (Outline.heightAll children)) o ho
  rw [Outline.height] at hheight
  omega

/-- What is under a node is what is in the outlines below it. -/
theorem under_node_iff {n x : NodeId} {content : Option NodeContent} {children : List Outline}
    (h : d.Reads (.node n content children)) : d.Under n x ↔ x ∈ preorderAll children := by
  have hnot := h.not_mem_children
  obtain ⟨hnode, hchildren⟩ := h
  refine ⟨mem_of_under hchildren (children_eq hnode), fun hx => ?_⟩
  obtain ⟨o, ho, hxo⟩ := mem_preorderAll.1 hx
  refine (hchildren o ho).under ⟨o.id, ?_, .refl⟩ (fun hn => ?_) x hxo
  · rw [children_eq hnode]
    exact List.mem_map_of_mem ho
  · exact hnot (mem_preorderAll.2 ⟨o, ho, hn⟩)

/-- Outlines have no node in common if neither is in the other. -/
theorem disjoint (hd : d.Linked) {b o : Outline} {p : NodeId} (hb : d.Reads b)
    (hp : b.id ∈ d.children p) (h : d.Reads o) (hob : o.id ∉ b.preorder)
    (hpo : p ∉ o.preorder) : ∀ y ∈ o.preorder, y ∉ b.preorder := by
  induction h with
  | @node id parent content children listeners hnode hchildren ih =>
    intro y hy
    rcases mem_preorder.1 hy with rfl | ⟨o, ho, hyo⟩
    · exact hob
    have hchild : o.id ∈ d.children id := by
      rw [children_eq hnode]
      exact List.mem_map_of_mem ho
    refine ih o ho (fun hmem => ?_) (fun hpo' => hpo (mem_preorder.2 (.inr ⟨o, ho, hpo'⟩))) y hyo
    rw [hd.mem_children] at hchild
    rcases hb.exists_parent hmem with heq | ⟨q, hq, hmq⟩
    · rw [← heq, hd.mem_children, hchild, Option.some.injEq] at hp
      exact hpo (mem_preorder.2 (.inl hp.symm))
    · rw [hd.mem_children, hchild, Option.some.injEq] at hmq
      exact hob (hmq ▸ hq)

theorem nodup_preorderAll (hd : d.Linked) {p : NodeId} : ∀ {os : List Outline},
    (∀ o ∈ os, d.Reads o) → (∀ o ∈ os, o.preorder.Nodup) → (os.map Outline.id).Nodup →
      (∀ o ∈ os, o.id ∈ d.children p) → p ∉ preorderAll os → (preorderAll os).Nodup
  | [], _, _, _, _, _ => List.nodup_nil
  | o :: rest, hreads, hnodup, hids, hchildren, hp => by
    rw [preorderAll, List.mem_append, not_or] at hp
    rw [List.map_cons, List.nodup_cons] at hids
    obtain ⟨hreadso, hreads⟩ := List.forall_mem_cons.1 hreads
    obtain ⟨hnodupo, hnodup⟩ := List.forall_mem_cons.1 hnodup
    obtain ⟨hchildo, hchildren⟩ := List.forall_mem_cons.1 hchildren
    refine hnodupo.append (nodup_preorderAll hd hreads hnodup hids.2 hchildren hp.2) ?_
    intro y hy hyrest
    obtain ⟨b, hb, hyb⟩ := mem_preorderAll.1 hyrest
    refine disjoint hd (hreads b hb) (hchildren b hb) hreadso (fun hmem => ?_) hp.1 y hy hyb
    rcases (hreads b hb).exists_parent hmem with heq | ⟨q, hq, hmq⟩
    · exact hids.1 (heq ▸ List.mem_map_of_mem hb)
    · rw [hd.mem_children] at hchildo hmq
      rw [hchildo, Option.some.injEq] at hmq
      exact hp.2 (mem_preorderAll.2 ⟨b, hb, hmq ▸ hq⟩)

/-- **No node occurs twice** in what a document reads as. -/
theorem nodup_preorder (hd : d.Linked) {o : Outline} (h : d.Reads o) : o.preorder.Nodup := by
  induction h with
  | @node id parent content children listeners hnode hchildren ih =>
    have hnot := not_mem_children (.node hnode hchildren)
    have hids : (children.map Outline.id).Nodup := by
      have := hd.children_nodup id
      rwa [children_eq hnode] at this
    rw [Outline.preorder, List.nodup_cons]
    refine ⟨hnot, nodup_preorderAll hd hchildren ih hids (fun o ho => ?_) hnot⟩
    rw [children_eq hnode]
    exact List.mem_map_of_mem ho

/-- An outline is what the document reads as. -/
theorem outlineWithin?_eq {o : Outline} (h : d.Reads o) {fuel : Nat} (hfuel : o.height ≤ fuel) :
    d.outlineWithin? fuel o.id = some o := by
  induction h generalizing fuel with
  | @node id parent content children listeners hnode hchildren ih =>
    cases fuel with
    | zero =>
      rw [Outline.height] at hfuel
      omega
    | succ fuel =>
      rw [Outline.height, Nat.add_le_add_iff_right, Outline.heightAll_le] at hfuel
      have hall : (children.map Outline.id).mapM (d.outlineWithin? fuel) = some children := by
        rw [mapM_eq_some, List.forall₂_map_left_iff, List.forall₂_same]
        exact fun o ho => ih o ho (hfuel o ho)
      rw [outlineWithin?, Outline.id, hnode]
      dsimp only
      rw [hall]
      rfl

end Reads

/-- What a document reads as at a node that is there. -/
theorem Linked.reads (hd : d.Linked) {fuel : Nat} {x : NodeId} {o : Outline} (hx : d.Live x)
    (ho : d.outlineWithin? fuel x = some o) : d.Reads o ∧ o.id = x := by
  induction fuel generalizing x o with
  | zero => cases ho
  | succ fuel ih =>
    obtain ⟨⟨parent, children, content, listeners⟩, hnode⟩ := live_iff.1 hx
    rw [outlineWithin?, hnode] at ho
    obtain ⟨os, hos, rfl⟩ := Option.map_eq_some_iff.1 ho
    rw [mapM_eq_some] at hos
    have hmem : ∀ c ∈ children, d.Live c := fun c hc =>
      hd.live_child (p := x) (by rwa [children_eq hnode])
    have hids : children = os.map Outline.id := by
      rw [← List.forall₂_eq_eq_eq, List.forall₂_map_right_iff]
      exact (List.forall₂_iff_zip.2 ⟨hos.length_eq, fun {c o} hco => ((ih (hmem c
        (List.of_mem_zip hco).1) ((List.forall₂_iff_zip.1 hos).2 hco)).2).symm⟩)
    have hsub : ∀ o ∈ os, d.Reads o := by
      intro o ho
      obtain ⟨i, hi, rfl⟩ := List.getElem_of_mem ho
      have hi' : i < children.length := hos.length_eq ▸ hi
      exact (ih (hmem _ (List.getElem_mem hi')) ((List.forall₂_iff_get.1 hos).2 i hi' hi)).1
    subst hids
    exact ⟨.node hnode hsub, rfl⟩

/-! ## Nodes that a selector finds -/

/-- A node that is found matches. -/
theorem matchesNode_of_search {selector : Selector} {x : NodeId} : ∀ {fuel : Nat} {id : NodeId},
    d.searchWithin? selector fuel id = some (some x) → d.matchesNode selector x
  | 0, _, h => by cases h
  | fuel + 1, id, h => by
    rw [searchWithin?] at h
    split at h
    next hmatch =>
      obtain rfl := Option.some.inj (Option.some.inj h)
      exact hmatch
    next =>
      obtain ⟨c, -, hc⟩ := findSomeM?_eq_some h
      exact matchesNode_of_search hc

/-- A node that a selector finds is there. -/
theorem live_of_query {text : String} {x : NodeId} (hx : d.querySelector? text = some x) :
    d.Live x := by
  obtain ⟨selector, -, hsearch⟩ := Option.bind_eq_some_iff.1 hx
  have hmatch := matchesNode_of_search (Option.join_eq_some_iff.1 hsearch)
  rw [matchesNode, Option.any_eq_true] at hmatch
  obtain ⟨e, he, -⟩ := hmatch
  unfold element? at he
  obtain ⟨node, hnode, -⟩ := Option.bind_eq_some_iff.1 he
  exact live_iff.2 ⟨node, hnode⟩

/-- The outline of a node that a selector finds is what the document reads as. -/
theorem Linked.outline_of_query (hd : d.Linked) {text : String} {x : NodeId} {o : Outline}
    (hx : d.querySelector? text = some x) (ho : d.outline? x = some o) :
    d.Reads o ∧ o.id = x :=
  hd.reads (live_of_query hx) ho

/-- Searches that end one after the other find the first match in what they go
    through. -/
theorem findSomeM?_eq_find? {f : NodeId → Option (Option NodeId)} {p : NodeId → Bool} :
    ∀ {ids : List NodeId} {os : List Outline},
    List.Forall₂ (fun id o => f id = some (o.preorder.find? p)) ids os →
      ids.findSomeM? f = some ((preorderAll os).find? p)
  | [], _, .nil => rfl
  | id :: ids, o :: os, .cons hid hrest => by
    rw [List.findSomeM?, hid, preorderAll, List.find?_append]
    cases o.preorder.find? p with
    | none => exact findSomeM?_eq_find? hrest
    | some x => rfl

/-- Where there is an outline, the search ends with the first match in it. -/
theorem searchWithin?_eq {selector : Selector} {fuel : Nat} {id : NodeId} {o : Outline}
    (ho : d.outlineWithin? fuel id = some o) :
    d.searchWithin? selector fuel id = some (o.preorder.find? (d.matchesNode selector)) := by
  induction fuel generalizing id o with
  | zero => cases ho
  | succ fuel ih =>
    rw [outlineWithin?] at ho
    rw [searchWithin?]
    cases hnode : d.node? id with
    | none =>
      rw [hnode] at ho
      obtain rfl := Option.some.inj ho
      rw [children, hnode, Outline.preorder, preorderAll, List.find?_cons]
      cases d.matchesNode selector id <;> rfl
    | some node =>
      rw [hnode] at ho
      obtain ⟨os, hos, rfl⟩ := Option.map_eq_some_iff.1 ho
      have hbelow := findSomeM?_eq_find? ((mapM_eq_some.1 hos).imp fun _ _ hc => ih hc)
      rw [children_eq hnode, hbelow, Outline.preorder, List.find?_cons]
      cases d.matchesNode selector id <;> rfl

/-- **A selector finds** the first node that it matches in the outline of a document. -/
theorem search?_eq {o : Outline} (ho : d.outline? root = some o) (selector : Selector) :
    d.search? selector = some (o.preorder.find? (d.matchesNode selector)) :=
  searchWithin?_eq ho

end Document

end DataBinding
