/-
  Releasing what is below a node.

  `Step d p` goes from a node other than `p` to one of its children; what is
  `Under` a node `p` is reached by such steps from the children of `p`.  These are
  the descendants of `p`, and `p` itself if it is below itself.

  * `not_transGen_step`: no such walk comes back, however the nodes are moved;
    for a node has one parent, and the walk would have to enter the children of
    `p` from `p`;
  * `Released` is the recursion of a release without a bound on its depth;
  * `released` lists what clearing the children of a node releases, children first:
    everything under it (`mem_released`), each once (`allLive_released`);
  * `clearChildren_released`: clearing empties the slots of these, and the
    recursion ends.
-/
import Mathlib.Logic.Relation
import DataBinding.Proofs.Document.Links

namespace DataBinding.Document

open Relation (ReflTransGen TransGen)

variable {L : Type} {d d' : Document L} {p : NodeId}

/-! ## Walks down -/

/-- From a node other than `p` to one of its children. -/
def Step (d : Document L) (p a b : NodeId) : Prop := a ≠ p ∧ b ∈ d.children a

/-- Reached from the children of a node without going through it again. -/
def Under (d : Document L) (p y : NodeId) : Prop := ∃ c ∈ d.children p, ReflTransGen (d.Step p) c y

theorem Step.unique (h : d.Linked) {a b c : NodeId} (ha : d.Step p a c) (hb : d.Step p b c) :
    a = b := by
  have h1 := (h.mem_children a c).1 ha.2
  have h2 := (h.mem_children b c).1 hb.2
  exact Option.some.inj (h1.symm.trans h2)

/-- No step leads into the children of `p`. -/
theorem not_step_child (h : d.Linked) {a c : NodeId} (hc : c ∈ d.children p) :
    ¬ d.Step p a c := by
  rintro ⟨hne, ha⟩
  rw [h.mem_children] at ha hc
  exact hne (Option.some.inj (ha.symm.trans hc))

theorem Under.live (h : d.Linked) {y : NodeId} (hy : d.Under p y) : d.Live y := by
  obtain ⟨c, hc, hcy⟩ := hy
  rcases ReflTransGen.cases_tail hcy with rfl | ⟨z, -, -, hm⟩
  · exact h.live_child hc
  · exact h.live_child hm

theorem Under.step {y z : NodeId} (hy : d.Under p y) (hs : d.Step p y z) : d.Under p z := by
  obtain ⟨c, hc, hcy⟩ := hy
  exact ⟨c, hc, hcy.tail hs⟩

/-- A node is under another one exactly if its parent is, or is the other one. -/
theorem under_child_iff (h : d.Linked) {q c : NodeId} (hc : c ∈ d.children q) :
    d.Under p c ↔ q = p ∨ d.Under p q := by
  constructor
  · rintro ⟨a, ha, hac⟩
    rcases ReflTransGen.cases_tail hac with rfl | ⟨z, haz, hz⟩
    · left
      rw [h.mem_children] at hc ha
      exact Option.some.inj (hc.symm.trans ha)
    · right
      have hparent := (h.mem_children z c).1 hz.2
      rw [h.mem_children] at hc
      obtain rfl : z = q := Option.some.inj (hparent.symm.trans hc)
      exact ⟨a, ha, haz⟩
  · intro hq
    by_cases hqp : q = p
    · exact ⟨c, hqp ▸ hc, .refl⟩
    · exact (hq.resolve_left hqp).step ⟨hqp, hc⟩

/-- A walk down never comes back. -/
theorem not_transGen_step (h : d.Linked) {y : NodeId} (hy : d.Under p y) :
    ¬ TransGen (d.Step p) y y := by
  obtain ⟨c, hc, hcy⟩ := hy
  induction hcy with
  | refl =>
    intro hcyc
    obtain ⟨z, -, hz⟩ := TransGen.tail'_iff.1 hcyc
    exact not_step_child h hc hz
  | tail _ hxy ih =>
    intro hcyc
    obtain ⟨z, hyz, hz⟩ := TransGen.tail'_iff.1 hcyc
    obtain rfl := Step.unique h hz hxy
    exact ih (TransGen.head' hxy hyz)

/-- Two walks to one node start from the same of its ancestors' children. -/
theorem eq_of_reach (h : d.Linked) {a b y : NodeId}
    (hsib : ∀ z, d.Step p z a → ReflTransGen (d.Step p) b z → False)
    (hsib' : ∀ z, d.Step p z b → ReflTransGen (d.Step p) a z → False)
    (hay : ReflTransGen (d.Step p) a y) (hby : ReflTransGen (d.Step p) b y) : a = b := by
  have hright : Relator.RightUnique (Function.swap (d.Step p)) := fun _ _ _ h1 h2 =>
    Step.unique h h1 h2
  rcases ReflTransGen.total_of_right_unique hright (Relation.reflTransGen_swap.2 hay)
    (Relation.reflTransGen_swap.2 hby) with hba | hab
  · rcases ReflTransGen.cases_tail (Relation.reflTransGen_swap.1 hba) with e | ⟨z, hbz, hza⟩
    · exact e
    · exact (hsib z hza hbz).elim
  · rcases ReflTransGen.cases_tail (Relation.reflTransGen_swap.1 hab) with e | ⟨z, haz, hzb⟩
    · exact e.symm
    · exact (hsib' z hzb haz).elim

/-- Different children of one node have nothing in common below them. -/
theorem disjoint_children (h : d.Linked) {x a b y : NodeId}
    (hx : x = p ∨ d.Under p x ∧ x ≠ p) (ha : a ∈ d.children x) (hb : b ∈ d.children x)
    (hay : ReflTransGen (d.Step p) a y) (hby : ReflTransGen (d.Step p) b y) : a = b := by
  rcases hx with rfl | ⟨hx, hne⟩
  · exact eq_of_reach h (fun z hz _ => not_step_child h ha hz)
      (fun z hz _ => not_step_child h hb hz) hay hby
  · have hxa : d.Step p x a := ⟨hne, ha⟩
    have hxb : d.Step p x b := ⟨hne, hb⟩
    refine eq_of_reach h (fun z hz hbz => ?_) (fun z hz haz => ?_) hay hby
    · obtain rfl := Step.unique h hz hxa
      exact not_transGen_step h hx (TransGen.head' hxb hbz)
    · obtain rfl := Step.unique h hz hxb
      exact not_transGen_step h hx (TransGen.head' hxa haz)

/-! ## Emptying slots -/

/-- Empty the slots of handles, in order. -/
def vacateAll (d : Document L) (ids : List NodeId) : Document L := ids.foldl vacate d

theorem vacateAll_append (ids more : List NodeId) :
    d.vacateAll (ids ++ more) = (d.vacateAll ids).vacateAll more := by
  simp [vacateAll]

/-- Handles that resolve, each once. -/
def AllLive (d : Document L) (ids : List NodeId) : Prop := ids.Nodup ∧ ∀ id ∈ ids, d.Live id

theorem AllLive.tail {id : NodeId} {ids : List NodeId} (h : d.AllLive (id :: ids)) :
    (d.vacate id).AllLive ids := by
  obtain ⟨hnd, hl⟩ := h
  rw [List.nodup_cons] at hnd
  refine ⟨hnd.2, fun y hy => ?_⟩
  have hne : y ≠ id := fun e => hnd.1 (e ▸ hy)
  simpa [Live, node?_vacate (hl id (by simp)), hne] using hl y (by simp [hy])

theorem node?_vacateAll {ids : List NodeId} (h : d.AllLive ids) (x : NodeId) :
    (d.vacateAll ids).node? x = if x ∈ ids then none else d.node? x := by
  induction ids generalizing d with
  | nil => simp [vacateAll]
  | cons id rest ih =>
    have hid : d.Live id := h.2 id (by simp)
    change ((d.vacate id).vacateAll rest).node? x = _
    rw [ih h.tail, node?_vacate hid]
    by_cases hx : x = id <;> simp [hx]

theorem Pooled.vacateAll (hd : d.Pooled) {ids : List NodeId} (h : d.AllLive ids) :
    (d.vacateAll ids).Pooled := by
  induction ids generalizing d with
  | nil => exact hd
  | cons id rest ih => exact ih (hd.vacate (h.2 id (by simp))) h.tail

@[simp]
theorem vacateAll_size (ids : List NodeId) : (d.vacateAll ids).slots.size = d.slots.size := by
  induction ids generalizing d with
  | nil => rfl
  | cons id rest ih => exact ih.trans (vacate_size id)

theorem children_vacateAll {ids : List NodeId} (h : d.AllLive ids) (x : NodeId) :
    (d.vacateAll ids).children x = if x ∈ ids then [] else d.children x := by
  by_cases hx : x ∈ ids <;> simp [children, node?_vacateAll h, hx]

/-! ## The recursion -/

/-- Releasing nodes one after the other, each after its children: a derivation
    is a recursion that ends. -/
inductive Released : Document L → List NodeId → Document L → Prop
  /-- Nothing is left to release. -/
  | done (e : Document L) : Released e [] e
  /-- A stale handle is passed over. -/
  | stale {e e' : Document L} {id : NodeId} {rest : List NodeId} (hid : e.node? id = none)
      (hrest : Released e rest e') : Released e (id :: rest) e'
  /-- The children go first, then the node. -/
  | node {e e₁ e' : Document L} {id : NodeId} {node : Node L} {rest : List NodeId}
      (hid : e.node? id = some node) (hchildren : Released e node.children e₁)
      (hrest : Released (e₁.vacate id) rest e') : Released e (id :: rest) e'

/-- The handles released with a node, in order; `fuel` bounds the depth. -/
def belowWithin (d : Document L) : Nat → NodeId → List NodeId
  | 0, _ => []
  | fuel + 1, id =>
    match d.node? id with
    | none => []
    | some node => node.children.flatMap (d.belowWithin fuel) ++ [id]

/-- The bound is not met below a node. -/
def Ends (d : Document L) : Nat → NodeId → Prop
  | 0, _ => False
  | fuel + 1, id => ∀ c ∈ d.children id, d.Ends fuel c

theorem belowWithin_of_stale {id : NodeId} (h : d.node? id = none) (fuel : Nat) :
    d.belowWithin (fuel + 1) id = [] := by
  rw [belowWithin, h]

theorem belowWithin_of_node {id : NodeId} {node : Node L} (h : d.node? id = some node)
    (fuel : Nat) :
    d.belowWithin (fuel + 1) id = node.children.flatMap (d.belowWithin fuel) ++ [id] := by
  rw [belowWithin, h]

theorem live_of_mem_belowWithin {fuel : Nat} {x y : NodeId} (hy : y ∈ d.belowWithin fuel x) :
    d.Live y := by
  induction fuel generalizing x with
  | zero => simp [belowWithin] at hy
  | succ fuel ih =>
    cases hn : d.node? x with
    | none => simp [belowWithin_of_stale hn] at hy
    | some node =>
      rw [belowWithin_of_node hn, List.mem_append, List.mem_flatMap, List.mem_singleton] at hy
      rcases hy with ⟨c, -, hc⟩ | rfl
      · exact ih hc
      · exact .of_eq hn

theorem foldl_releaseWithin_zero (ids : List NodeId) (d : Document L) :
    ids.foldl (releaseWithin 0) d = d := by
  induction ids with
  | nil => rfl
  | cons c rest ih => exact ih

/-- The slot of a node is emptied last. -/
theorem vacateAll_belowWithin {id : NodeId} {node : Node L} (h : d.node? id = some node)
    (fuel : Nat) (gone : List NodeId) :
    d.vacateAll (gone ++ d.belowWithin (fuel + 1) id) =
      (d.vacateAll (gone ++ node.children.flatMap (d.belowWithin fuel))).vacate id := by
  rw [belowWithin_of_node h, ← List.append_assoc, vacateAll_append _ [id]]
  rfl

/-- The bounded recursion empties the slots of the handles it meets, if it meets
    each once; and it is the whole recursion where the bound is not met. -/
theorem foldl_releaseWithin (fuel : Nat) (ids gone : List NodeId) (hgone : ∀ y ∈ gone, d.Live y)
    (hnd : (gone ++ ids.flatMap (d.belowWithin fuel)).Nodup) :
    ids.foldl (releaseWithin fuel) (d.vacateAll gone) =
        d.vacateAll (gone ++ ids.flatMap (d.belowWithin fuel)) ∧
      ((∀ c ∈ ids, d.Ends fuel c) → Released (d.vacateAll gone) ids
        (d.vacateAll (gone ++ ids.flatMap (d.belowWithin fuel)))) := by
  induction fuel generalizing ids gone with
  | zero =>
    have hnone : ids.flatMap (d.belowWithin 0) = [] := List.flatMap_eq_nil_iff.2 fun _ _ => rfl
    rw [hnone, List.append_nil]
    refine ⟨foldl_releaseWithin_zero ids _, fun hends => ?_⟩
    cases ids with
    | nil => exact .done _
    | cons c rest => exact (hends c List.mem_cons_self).elim
  | succ fuel ihf =>
    induction ids generalizing gone with
    | nil => exact ⟨by simp, fun _ => by simpa using Released.done _⟩
    | cons c rest ihr =>
      rw [List.flatMap_cons, ← List.append_assoc] at hnd ⊢
      have hndc : (gone ++ d.belowWithin (fuel + 1) c).Nodup := (List.nodup_append.1 hnd).1
      have hgone' : d.AllLive gone := ⟨(List.nodup_append.1 hndc).1, hgone⟩
      rw [List.foldl_cons]
      cases hn : d.node? c with
      | none =>
        have hstale : (d.vacateAll gone).node? c = none := by simp [node?_vacateAll hgone', hn]
        have hfirst : releaseWithin (fuel + 1) (d.vacateAll gone) c = d.vacateAll gone := by
          rw [releaseWithin, hstale]
        rw [belowWithin_of_stale hn, List.append_nil] at hnd ⊢
        obtain ⟨heq, hrel⟩ := ihr gone hgone hnd
        rw [hfirst]
        exact ⟨heq, fun hends => .stale hstale (hrel fun x hx => hends x (List.mem_cons_of_mem _ hx))⟩
      | some node =>
        have hcgone : c ∉ gone := fun hm => (List.nodup_append.1 hndc).2.2 c hm c
          (by rw [belowWithin_of_node hn]; exact List.mem_append_right _ (List.mem_singleton_self c))
          rfl
        have hlive : (d.vacateAll gone).node? c = some node := by
          rw [node?_vacateAll hgone', if_neg hcgone, hn]
        rw [belowWithin_of_node hn, ← List.append_assoc] at hndc
        obtain ⟨heq, hrel⟩ := ihf node.children gone hgone (List.nodup_append.1 hndc).1
        have hfirst : releaseWithin (fuel + 1) (d.vacateAll gone) c =
            d.vacateAll (gone ++ d.belowWithin (fuel + 1) c) := by
          rw [vacateAll_belowWithin hn, releaseWithin, hlive]
          dsimp only
          rw [heq]
        obtain ⟨heq', hrel'⟩ := ihr (gone ++ d.belowWithin (fuel + 1) c)
          (List.forall_mem_append.2 ⟨hgone, fun y hy => live_of_mem_belowWithin hy⟩) hnd
        rw [hfirst]
        refine ⟨heq', fun hends => .node hlive (hrel ?_) ?_⟩
        · have hchildren := hends c List.mem_cons_self
          rwa [Ends, children_eq hn] at hchildren
        · rw [← vacateAll_belowWithin hn]
          exact hrel' fun x hx => hends x (List.mem_cons_of_mem _ hx)

/-! ## Below one node -/

/-- A document after a node has dropped its children. -/
def childless (d : Document L) (p : NodeId) : Document L :=
  d.update p fun node => { node with children := [] }

@[simp]
theorem children_childless (a : NodeId) :
    (d.childless p).children a = if a = p then [] else d.children a := by
  rw [childless, children_update]
  by_cases ha : a = p
  · rw [if_pos ha, if_pos ha]; cases d.node? p <;> rfl
  · rw [if_neg ha, if_neg ha]

@[simp]
theorem live_childless (x : NodeId) : (d.childless p).Live x ↔ d.Live x := live_update _ _ _

@[simp]
theorem parent?_childless (x : NodeId) : (d.childless p).parent? x = d.parent? x := by
  rw [childless, parent?, parent?, node?_update]
  by_cases hx : x = p
  · subst hx; cases d.node? x <;> simp
  · rw [if_neg hx]

theorem mem_children_childless {a b : NodeId} :
    b ∈ (d.childless p).children a ↔ d.Step p a b := by
  rw [children_childless, Step]
  by_cases ha : a = p <;> simp [ha]

theorem reach_of_mem_belowWithin {fuel : Nat} {x y : NodeId}
    (hy : y ∈ (d.childless p).belowWithin fuel x) : ReflTransGen (d.Step p) x y := by
  induction fuel generalizing x with
  | zero => simp [belowWithin] at hy
  | succ fuel ih =>
    cases hn : (d.childless p).node? x with
    | none => simp [belowWithin_of_stale hn] at hy
    | some node =>
      rw [belowWithin_of_node hn, List.mem_append, List.mem_flatMap, List.mem_singleton] at hy
      rcases hy with ⟨c, hc, hcy⟩ | rfl
      · rw [← children_eq hn, mem_children_childless] at hc
        exact .head hc (ih hcy)
      · exact .refl

theorem mem_belowWithin_of_reach {fuel : Nat} {x y : NodeId} (h : d.Linked)
    (hends : (d.childless p).Ends fuel x) (hx : d.Live x) (hxy : ReflTransGen (d.Step p) x y) :
    y ∈ (d.childless p).belowWithin fuel x := by
  induction fuel generalizing x with
  | zero => exact hends.elim
  | succ fuel ih =>
    have hx' : (d.childless p).Live x := (live_childless x).2 hx
    obtain ⟨node, hn⟩ := live_iff.1 hx'
    rw [belowWithin_of_node hn, List.mem_append, List.mem_flatMap, List.mem_singleton]
    rcases ReflTransGen.cases_head hxy with rfl | ⟨c, hxc, hcy⟩
    · exact .inr rfl
    · have hc : c ∈ (d.childless p).children x := mem_children_childless.2 hxc
      exact .inl ⟨c, children_eq hn ▸ hc, ih (hends c hc) (h.live_child hxc.2) hcy⟩

/-- A release meets every node once. -/
theorem nodup_belowWithin (h : d.Linked) (fuel : Nat) {x : NodeId} (hx : d.Under p x) :
    ((d.childless p).belowWithin fuel x).Nodup := by
  induction fuel generalizing x with
  | zero => simp [belowWithin]
  | succ fuel ih =>
    cases hn : (d.childless p).node? x with
    | none => simp [belowWithin_of_stale hn]
    | some node =>
      have hstep : ∀ c ∈ node.children, d.Step p x c := fun c hc =>
        mem_children_childless.1 (children_eq hn ▸ hc)
      have hnd : node.children.Nodup := by
        rw [← children_eq hn, children_childless]
        split
        · exact List.nodup_nil
        · exact h.children_nodup x
      rw [belowWithin_of_node hn]
      refine (List.nodup_flatMap.2 ⟨fun c hc => ih (hx.step (hstep c hc)), ?_⟩).append
        (List.nodup_singleton x) fun y hy hyx => ?_
      · refine hnd.imp_of_mem fun {a b} ha hb hne y hya hyb => hne ?_
        exact disjoint_children h (.inr ⟨hx, (hstep a ha).1⟩) (hstep a ha).2 (hstep b hb).2
          (reach_of_mem_belowWithin hya) (reach_of_mem_belowWithin hyb)
      · obtain ⟨c, hc, hcy⟩ := List.mem_flatMap.1 hy
        rw [List.mem_singleton.1 hyx] at hcy
        exact not_transGen_step h hx
          (TransGen.head' (hstep c hc) (reach_of_mem_belowWithin hcy))

theorem length_le_size {ids : List NodeId} (h : d.AllLive ids) : ids.length ≤ d.slots.size := by
  have hnd : (ids.map NodeId.index).Nodup :=
    h.1.map_on fun a ha b hb => eq_of_index_eq (h.2 a ha) (h.2 b hb)
  have hsub : ids.map NodeId.index ⊆ List.range d.slots.size := fun i hi => by
    obtain ⟨a, ha, rfl⟩ := List.mem_map.1 hi
    exact List.mem_range.2 (index_lt (h.2 a ha))
  simpa using (List.subperm_of_subset hnd hsub).length_le

/-- The number of slots bounds the depth of a release: the nodes above one on the
    way down are all different. -/
theorem ends_of_under (h : d.Linked) (fuel : Nat) (above : List NodeId) {x : NodeId}
    (hx : d.Under p x) (hlive : d.AllLive above)
    (habove : ∀ a ∈ above, TransGen (d.Step p) a x)
    (hsize : d.slots.size + 1 ≤ fuel + above.length) : (d.childless p).Ends fuel x := by
  induction fuel generalizing above x with
  | zero => have := length_le_size hlive; omega
  | succ fuel ih =>
    intro c hc
    have hstep := mem_children_childless.1 hc
    have hnot : x ∉ above := fun hm => not_transGen_step h hx (habove x hm)
    refine ih (x :: above) (hx.step hstep) ⟨List.nodup_cons.2 ⟨hnot, hlive.1⟩, ?_⟩ ?_ (by
      rw [List.length_cons]; omega)
    · exact List.forall_mem_cons.2 ⟨hx.live h, hlive.2⟩
    · exact List.forall_mem_cons.2 ⟨.single hstep, fun a ha => (habove a ha).tail hstep⟩

/-! ## Clearing the children of a node -/

theorem releaseWithin_size (fuel : Nat) (d : Document L) (x : NodeId) :
    (releaseWithin fuel d x).slots.size = d.slots.size := by
  induction fuel generalizing d x with
  | zero => rfl
  | succ fuel ih =>
    have hall : ∀ (ids : List NodeId) (e : Document L),
        (ids.foldl (releaseWithin fuel) e).slots.size = e.slots.size := by
      intro ids
      induction ids with
      | nil => exact fun _ => rfl
      | cons c rest ihr => exact fun e => (ihr _).trans (ih e c)
    rw [releaseWithin]
    split
    · rfl
    · rw [vacate_size, hall]

theorem foldl_release (ids : List NodeId) (d : Document L) :
    ids.foldl release d = ids.foldl (releaseWithin (d.slots.size + 1)) d := by
  induction ids generalizing d with
  | nil => rfl
  | cons c rest ih =>
    rw [List.foldl_cons, List.foldl_cons, ih, release, releaseWithin_size]

/-- What is released when the children of a node are cleared, in order. -/
def released (d : Document L) (p : NodeId) : List NodeId :=
  (d.node? p).elim [] fun node =>
    node.children.flatMap ((d.childless p).belowWithin (d.slots.size + 1))

theorem released_eq {node : Node L} (hp : d.node? p = some node) :
    d.released p = node.children.flatMap ((d.childless p).belowWithin (d.slots.size + 1)) := by
  rw [released, hp, Option.elim_some]

theorem ends_child (h : d.Linked) {c : NodeId} (hc : c ∈ d.children p) :
    (d.childless p).Ends (d.slots.size + 1) c :=
  ends_of_under h _ [] ⟨c, hc, .refl⟩ ⟨List.nodup_nil, by simp⟩ (by simp) (by simp)

/-- What is released are the nodes under the node. -/
theorem mem_released (h : d.Linked) {y : NodeId} : y ∈ d.released p ↔ d.Under p y := by
  cases hp : d.node? p with
  | none =>
    have hnone : d.children p = [] := by rw [children, hp, Option.elim_none]
    simp [released, hp, Under, hnone]
  | some node =>
    rw [released_eq hp, List.mem_flatMap]
    constructor
    · rintro ⟨c, hc, hcy⟩
      exact ⟨c, by rwa [children_eq hp], reach_of_mem_belowWithin hcy⟩
    · rintro ⟨c, hc, hcy⟩
      have hlive : d.Live c := h.live_child hc
      refine ⟨c, by rwa [children_eq hp] at hc, ?_⟩
      exact mem_belowWithin_of_reach h (ends_child h hc) hlive hcy

/-- Each of them is there, and is released once. -/
theorem allLive_released (h : d.Linked) (p : NodeId) : d.AllLive (d.released p) := by
  refine ⟨?_, fun y hy => ((mem_released h).1 hy).live h⟩
  cases hp : d.node? p with
  | none =>
    rw [released, hp]
    exact List.nodup_nil
  | some node =>
    have hchild : ∀ c ∈ node.children, c ∈ d.children p := fun c hc => by rwa [children_eq hp]
    have hchildren : node.children.Nodup := children_eq hp ▸ h.children_nodup p
    rw [released_eq hp]
    refine List.nodup_flatMap.2
      ⟨fun c hc => nodup_belowWithin h _ ⟨c, hchild c hc, .refl⟩, ?_⟩
    refine hchildren.imp_of_mem fun {a b} ha hb hne y hya hyb => hne ?_
    exact disjoint_children h (.inl rfl) (hchild a ha) (hchild b hb)
      (reach_of_mem_belowWithin hya) (reach_of_mem_belowWithin hyb)

/-- **Clearing the children of a node** empties the slots of what is under it,
    and the recursion ends. -/
theorem clearChildren_released (h : d.Linked) {node : Node L} (hp : d.node? p = some node) :
    d.clearChildren p = (d.childless p).vacateAll (d.released p) ∧
      Released (d.childless p) node.children (d.clearChildren p) := by
  have hlive : ∀ y ∈ ([] : List NodeId), (d.childless p).Live y := by simp
  obtain ⟨heq, hrel⟩ := foldl_releaseWithin (d := d.childless p) (d.slots.size + 1) node.children
    [] hlive (by simpa [released_eq hp] using (allLive_released h p).1)
  rw [List.nil_append, ← released_eq hp] at heq hrel
  have hclear : d.clearChildren p = (d.childless p).vacateAll (d.released p) := by
    rw [← heq, clearChildren, hp]
    change node.children.foldl release (d.childless p) = _
    rw [foldl_release, childless, update_size]
    rfl
  exact ⟨hclear, hclear ▸ hrel fun c hc => ends_child h (by rwa [children_eq hp])⟩

theorem clearChildren_eq (h : d.Linked) {node : Node L} (hp : d.node? p = some node) :
    ∃ gone, d.AllLive gone ∧ (∀ y, y ∈ gone ↔ d.Under p y) ∧
      d.clearChildren p = (d.childless p).vacateAll gone ∧
      Released (d.childless p) node.children (d.clearChildren p) :=
  ⟨d.released p, allLive_released h p, fun _ => mem_released h, clearChildren_released h hp⟩

/-- What is left after the slots under a node have been emptied is linked. -/
theorem Linked.clear (h : d.Linked) {gone : List NodeId} (hlive : d.AllLive gone)
    (hgone : ∀ y, y ∈ gone ↔ d.Under p y) : ((d.childless p).vacateAll gone).Linked := by
  have hlive' : (d.childless p).AllLive gone :=
    ⟨hlive.1, fun y hy => (live_childless y).2 (hlive.2 y hy)⟩
  have hparent : ∀ x, ((d.childless p).vacateAll gone).parent? x =
      if x ∈ gone then none else d.parent? x := fun x => by
    by_cases hx : x ∈ gone
    · simp [parent?, node?_vacateAll hlive', hx]
    · have hsame : ((d.childless p).vacateAll gone).node? x = (d.childless p).node? x := by
        rw [node?_vacateAll hlive', if_neg hx]
      rw [if_neg hx, parent?, hsame]
      exact parent?_childless x
  constructor
  · intro q
    rw [children_vacateAll hlive', children_childless]
    split
    · exact List.nodup_nil
    · split
      · exact List.nodup_nil
      · exact h.children_nodup q
  · intro q c
    rw [children_vacateAll hlive', children_childless, hparent]
    have hmem := h.mem_children q c
    by_cases hc : c ∈ d.children q
    · -- a child goes with its parent, and with `p`
      have hunder : c ∈ gone ↔ q = p ∨ q ∈ gone := by
        rw [hgone, hgone, under_child_iff h hc]
      by_cases hq : q ∈ gone <;> by_cases hqp : q = p <;> simp [hunder, hq, hqp, hc, hmem.1 hc]
    · have hnot : d.parent? c ≠ some q := mt hmem.2 hc
      simp [hc, hnot]

end DataBinding.Document
