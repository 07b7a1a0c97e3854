/-
  The links between the nodes of a document.

  A document is `Linked` if a node lists a child exactly when that child has it
  as its parent, and lists it once.  A node may be in itself: nothing is said
  about cycles.

  * `node?_detach` and `node?_append` give every node after a move: the node
    moved leaves all lists, and goes to the end of one;
  * `append_cases`: a move is refused by its first checks, or done (`moved_of_append`);
  * `Joined` is `Pooled` and `Linked`; `Sound` is what every document keeps:
    `Joined`, and no two attributes of an element with one name.
-/
import DataBinding.Proofs.Document.Slots

namespace DataBinding

variable {L : Type}

/-- A node after a node has been taken out of its parent. -/
def Node.without (child x : NodeId) (node : Node L) : Node L :=
  { node with
    parent := if x = child then none else node.parent
    children := node.children.filter (· ≠ child) }

/-- A node after a node has been moved to the end of another. -/
def Node.moved (parent child x : NodeId) (node : Node L) : Node L :=
  { node with
    parent := if x = child then some parent else node.parent
    children := node.children.filter (· ≠ child) ++ if x = parent then [child] else [] }

theorem Node.children_without_of_not_mem {child : NodeId} {node : Node L}
    (h : child ∉ node.children) : node.children.filter (· ≠ child) = node.children :=
  List.filter_eq_self.2 fun y hy => by simpa using fun e : y = child => h (e ▸ hy)

theorem Node.without_of_not_mem {child x : NodeId} {node : Node L} (h : child ∉ node.children) :
    Node.without child x node =
      { node with parent := if x = child then none else node.parent } := by
  rw [without, children_without_of_not_mem h]

theorem Node.moved_of_not_mem {parent child x : NodeId} {node : Node L}
    (h : child ∉ node.children) :
    Node.moved parent child x node =
      { node with
        parent := if x = child then some parent else node.parent
        children := node.children ++ if x = parent then [child] else [] } := by
  rw [moved, children_without_of_not_mem h]

namespace Document

variable {d d' : Document L}

/-! ## Readings of one node -/

@[simp]
theorem children_update (id x : NodeId) (f : Node L → Node L) :
    (d.update id f).children x =
      if x = id then (d.node? id).elim [] fun node => (f node).children else d.children x := by
  by_cases h : x = id
  · subst h; cases hn : d.node? x <;> simp [children, node?_update, hn]
  · simp [children, node?_update, h]

theorem children_eq {id : NodeId} {node : Node L} (h : d.node? id = some node) :
    d.children id = node.children := by simp [children, h]

theorem parent?_eq {id : NodeId} {node : Node L} (h : d.node? id = some node) :
    d.parent? id = node.parent := by simp [parent?, h]

theorem kind?_eq_some {id : NodeId} {kind : NodeKind} :
    d.kind? id = some kind ↔ ∃ node, d.node? id = some node ∧ node.content.kind = kind :=
  Option.map_eq_some_iff

theorem holdsChildren_iff {content : NodeContent} :
    content.holdsChildren = true ↔ content.kind = .document ∨ content.kind = .element := by
  cases content <;> simp [NodeContent.holdsChildren, NodeContent.kind]

theorem live_of_mem_children {p c : NodeId} (h : c ∈ d.children p) : d.Live p := by
  cases hn : d.node? p with
  | none => simp [children, hn] at h
  | some node => exact .of_eq hn

theorem live_of_parent? {p c : NodeId} (h : d.parent? c = some p) : d.Live c := by
  cases hn : d.node? c with
  | none => simp [parent?, hn] at h
  | some node => exact .of_eq hn

/-! ## Links -/

/-- A node lists a child exactly when it is the child's parent, and once. -/
structure Linked (d : Document L) : Prop where
  children_nodup : ∀ p, (d.children p).Nodup
  mem_children : ∀ p c, c ∈ d.children p ↔ d.parent? c = some p

/-- Changes that keep every child and every parent keep the links. -/
theorem Linked.congr (h : d.Linked) (hc : ∀ x, d'.children x = d.children x)
    (hp : ∀ x, d'.parent? x = d.parent? x) : d'.Linked where
  children_nodup p := by rw [hc]; exact h.children_nodup p
  mem_children p c := by rw [hc, hp]; exact h.mem_children p c

theorem Linked.live_child (h : d.Linked) {p c : NodeId} (hm : c ∈ d.children p) : d.Live c :=
  live_of_parent? ((h.mem_children p c).1 hm)

theorem Linked.live_parent (h : d.Linked) {p c : NodeId} (hp : d.parent? c = some p) : d.Live p :=
  live_of_mem_children ((h.mem_children p c).2 hp)

/-- A document in which the nodes themselves may differ, but not the slots they
    are in. -/
structure Reshaped (d d' : Document L) : Prop where
  size_eq : d'.slots.size = d.slots.size
  free_eq : d'.free = d.free
  vacant_iff : ∀ i, d'.Vacant i ↔ d.Vacant i

namespace Reshaped

theorem refl (d : Document L) : Reshaped d d := ⟨rfl, rfl, fun _ => Iff.rfl⟩

theorem update (id : NodeId) (f : Node L → Node L) : Reshaped d (d.update id f) :=
  ⟨update_size id f, rfl, vacant_update id f⟩

theorem trans {d'' : Document L} (h : Reshaped d d') (h' : Reshaped d' d'') : Reshaped d d'' :=
  ⟨h'.size_eq.trans h.size_eq, h'.free_eq.trans h.free_eq,
    fun i => (h'.vacant_iff i).trans (h.vacant_iff i)⟩

theorem pooled (h : Reshaped d d') (hd : d.Pooled) : d'.Pooled where
  free_nodup := by rw [h.free_eq]; exact hd.free_nodup
  mem_free i := by rw [h.free_eq, h.vacant_iff]; exact hd.mem_free i

theorem enlarged (h : Reshaped d d') : Enlarged d d' := .of_eq h.size_eq h.free_eq

end Reshaped

/-! ## Moves -/

/-- Taking a live node out of its parent always succeeds. -/
theorem node?_detach (h : d.Linked) {child : NodeId} (hc : d.Live child) :
    ∃ d', d.detach child = (.ok (), d') ∧ Reshaped d d' ∧
      ∀ x, d'.node? x = (d.node? x).map (Node.without child x) := by
  obtain ⟨node, hn⟩ := live_iff.1 hc
  have hother : ∀ x m, d.node? x = some m → node.parent ≠ some x → child ∉ m.children := by
    intro x m hm hx hmem
    exact hx (by rw [← parent?_eq hn, ← h.mem_children, children_eq hm]; exact hmem)
  cases hp : node.parent with
  | none =>
    refine ⟨d, by simp [detach, hn, hp], .refl d, fun x => ?_⟩
    cases hm : d.node? x with
    | none => rfl
    | some m =>
      have hpar : (if x = child then none else m.parent) = m.parent := by
        by_cases hx : x = child
        · subst hx; simp_all
        · simp [hx]
      rw [Option.map_some, Node.without_of_not_mem (hother x m hm (by simp [hp])), hpar]
  | some p =>
    have hlive := h.live_parent (show d.parent? child = some p by rw [parent?_eq hn, hp])
    set d₁ := d.update child fun node => { node with parent := none } with hd₁
    obtain ⟨q, hq⟩ := live_iff.1 ((live_update child p _).2 hlive)
    refine ⟨d₁.update p fun node => { node with children := node.children.filter (· ≠ child) },
      by simp only [detach, hn, hp]; rw [hq], (Reshaped.update _ _).trans (.update _ _),
      fun x => ?_⟩
    have hx₁ : d₁.node? x =
        (d.node? x).map fun m => { m with parent := if x = child then none else m.parent } := by
      rw [hd₁, node?_update]
      by_cases hxc : x = child
      · subst hxc; simp
      · simp [hxc]
    rw [node?_update]
    by_cases hxp : x = p
    · subst hxp
      rw [if_pos rfl, hx₁, Option.map_map]; rfl
    · rw [if_neg hxp, hx₁]
      cases hm : d.node? x with
      | none => rfl
      | some m =>
        rw [Option.map_some, Option.map_some,
          Node.without_of_not_mem (hother x m hm (by simp [hp, Ne.symm hxp]))]

/-- Moving a live node to the end of a live node that can hold it always
    succeeds. -/
theorem node?_append (h : d.Linked) {parent child : NodeId} {node : Node L}
    (hp : d.node? parent = some node) (hholds : node.content.holdsChildren = true)
    (hc : d.Live child) :
    ∃ d', d.append parent child = (.ok (), d') ∧ Reshaped d d' ∧
      ∀ x, d'.node? x = (d.node? x).map (Node.moved parent child x) := by
  obtain ⟨d₁, hd₁, hr, hx₁⟩ := node?_detach h hc
  obtain ⟨m, hm⟩ := live_iff.1 hc
  refine ⟨d₁.link parent child, by simp [append, hp, hholds, hm, hd₁],
    hr.trans ((Reshaped.update _ _).trans (.update _ _)), fun x => ?_⟩
  have hx₂ : (d₁.update child fun node => { node with parent := some parent }).node? x =
      (d.node? x).map fun m =>
        { m with
          parent := if x = child then some parent else m.parent
          children := m.children.filter (· ≠ child) } := by
    rw [node?_update]
    by_cases hxc : x = child
    · subst hxc; rw [if_pos rfl, hx₁, Option.map_map]; cases d.node? x <;> simp [Node.without]
    · rw [if_neg hxc, hx₁]; cases d.node? x <;> simp [Node.without, hxc]
  rw [link, node?_update]
  by_cases hxp : x = parent
  · subst hxp
    rw [if_pos rfl, hx₂, Option.map_map]; cases d.node? x <;> simp [Node.moved]
  · rw [if_neg hxp, hx₂]; cases d.node? x <;> simp [Node.moved, hxp]

/-- A move is refused by its first checks, which leave the document alone, or
    done. -/
theorem append_cases (h : d.Linked) (parent child : NodeId) :
    (∃ e, d.append parent child = (.error e, d)) ∨
      ∃ node d', d.node? parent = some node ∧ node.content.holdsChildren = true ∧ d.Live child ∧
        d.append parent child = (.ok (), d') ∧ Reshaped d d' ∧
        ∀ x, d'.node? x = (d.node? x).map (Node.moved parent child x) := by
  cases hp : d.node? parent with
  | none => exact .inl ⟨.notFound parent, by simp [append, hp]⟩
  | some node =>
    cases hholds : node.content.holdsChildren with
    | false => exact .inl ⟨.notAnElement parent .appendChild, by simp [append, hp, hholds]⟩
    | true =>
      by_cases hc : d.Live child
      · obtain ⟨d', hd', hr, hx⟩ := node?_append h hp hholds hc
        exact .inr ⟨node, d', rfl, hholds, hc, hd', hr, hx⟩
      · exact .inl ⟨.notFound child, by simp [append, hp, hholds, not_live_iff.1 hc]⟩

/-- What a move that is done does. -/
theorem moved_of_append (h : d.Linked) {parent child : NodeId}
    (happend : d.append parent child = (.ok (), d')) :
    d.Live parent ∧ d.Live child ∧ Reshaped d d' ∧
      ∀ x, d'.node? x = (d.node? x).map (Node.moved parent child x) := by
  obtain ⟨e, he⟩ | ⟨node, d₁, hp, -, hc, hd₁, hr, hx⟩ := append_cases h parent child
  · rw [he] at happend
    cases happend
  · obtain rfl : d₁ = d' := congrArg Prod.snd (hd₁.symm.trans happend)
    exact ⟨.of_eq hp, hc, hr, hx⟩

section Moved

variable {parent child : NodeId}

theorem children_moved (hp : d.Live parent)
    (hx : ∀ x, d'.node? x = (d.node? x).map (Node.moved parent child x)) (x : NodeId) :
    d'.children x = (d.children x).filter (· ≠ child) ++ if x = parent then [child] else [] := by
  cases hn : d.node? x with
  | none =>
    have hne : x ≠ parent := by rintro rfl; simp [Live, hn] at hp
    simp [children, hx, hn, hne]
  | some node => simp [children, hx, hn, Node.moved]

theorem parent?_moved (hc : d.Live child)
    (hx : ∀ x, d'.node? x = (d.node? x).map (Node.moved parent child x)) (x : NodeId) :
    d'.parent? x = if x = child then some parent else d.parent? x := by
  cases hn : d.node? x with
  | none =>
    have hne : x ≠ child := by rintro rfl; simp [Live, hn] at hc
    simp [parent?, hx, hn, hne]
  | some node => simp [parent?, hx, hn, Node.moved]

/-- A node that neither gets nor loses a child keeps its children. -/
theorem node?_moved_of_unlinked (h : d.Linked)
    (hx : ∀ x, d'.node? x = (d.node? x).map (Node.moved parent child x)) {x : NodeId}
    (hxp : x ≠ parent) (hparent : d.parent? child ≠ some x) :
    d'.node? x = (d.node? x).map fun node =>
      { node with parent := if x = child then some parent else node.parent } := by
  rw [hx]
  refine Option.map_congr fun node hn => ?_
  have hmem : child ∉ node.children := fun hmem =>
    hparent ((h.mem_children x child).1 (by rwa [children_eq hn]))
  rw [Node.moved_of_not_mem hmem, if_neg hxp, List.append_nil]

/-- All other nodes are as they were. -/
theorem node?_moved_elsewhere (h : d.Linked)
    (hx : ∀ x, d'.node? x = (d.node? x).map (Node.moved parent child x)) {x : NodeId}
    (hxc : x ≠ child) (hxp : x ≠ parent) (hparent : d.parent? child ≠ some x) :
    d'.node? x = d.node? x := by
  rw [node?_moved_of_unlinked h hx hxp hparent]
  simp only [if_neg hxc]
  exact Option.map_id'

/-- A move keeps the links, also one of a node into itself. -/
theorem Linked.append (h : d.Linked) (hp : d.Live parent) (hc : d.Live child)
    (hx : ∀ x, d'.node? x = (d.node? x).map (Node.moved parent child x)) : d'.Linked := by
  constructor
  · intro p
    rw [children_moved hp hx]
    have hf := (h.children_nodup p).filter (· ≠ child)
    by_cases hpp : p = parent
    · rw [if_pos hpp]
      refine hf.append (List.nodup_singleton child) fun y hy hy' => ?_
      rw [List.mem_singleton] at hy'
      simp [hy'] at hy
    · rw [if_neg hpp, List.append_nil]; exact hf
  · intro p c
    rw [children_moved hp hx, parent?_moved hc hx]
    by_cases hcc : c = child
    · subst hcc
      rcases eq_or_ne p parent with rfl | hpp
      · simp
      · simp [hpp, hpp.symm]
    · have := h.mem_children p c
      rcases eq_or_ne p parent with rfl | hpp <;> simp [*]

end Moved

/-! ## Sound documents -/

/-- No two attributes of an element have the same name. -/
def DistinctAttributes (d : Document L) : Prop :=
  ∀ id e, d.element? id = some e → (Keyed.keys e.attributes).Nodup

/-- What slots and links keep, whatever the attributes. -/
structure Joined (d : Document L) : Prop where
  pooled : d.Pooled
  linked : d.Linked

/-- What every document keeps. -/
structure Sound (d : Document L) : Prop extends Joined d where
  attributes : d.DistinctAttributes

/-- The content of a node, if the node is there. -/
def content? (d : Document L) (id : NodeId) : Option NodeContent :=
  (d.node? id).map Node.content

theorem element?_eq (d : Document L) (id : NodeId) :
    d.element? id = (d.content? id).bind NodeContent.element? := by
  cases h : d.node? id <;> simp [element?, content?, h]

theorem DistinctAttributes.congr (h : d.DistinctAttributes)
    (hx : ∀ x, d'.content? x = d.content? x) : d'.DistinctAttributes := fun id e he =>
  h id e (by rwa [element?_eq, ← hx, ← element?_eq])

end Document

end DataBinding
