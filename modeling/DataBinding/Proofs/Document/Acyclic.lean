/-
  Documents in which no node is below itself, and the moves that end this.

  `Child` steps from a node to one of its children; a document is `Acyclic` if no
  walk of such steps comes back.

  * `outline?_isSome`: then everything below a node can be read;
  * `append_acyclic_iff`: a move keeps a document acyclic exactly if the node is moved
    neither to itself nor to what is below it, and all other changes keep it
    (`Becomes.acyclic`);
  * `acyclic_run`: so does a run without such a move (`Edit.Loops`).
-/
import DataBinding.Proofs.Document.Writing

namespace DataBinding.Document

open Relation (ReflTransGen TransGen)
open Outline (preorderAll mem_preorder mem_preorderAll)

variable {L : Type} {d d' : Document L} {p c : NodeId}

/-! ## Walks down -/

/-- From a node to one of its children. -/
def Child (d : Document L) (p c : NodeId) : Prop := c ∈ d.children p

/-- No node is below itself. -/
def Acyclic (d : Document L) : Prop := ∀ x, ¬ TransGen d.Child x x

/-- A walk down from a node in an outline does not leave it. -/
theorem Reads.mem_of_reach {o : Outline} (h : d.Reads o) {x y : NodeId} (hx : x ∈ o.preorder)
    (hxy : ReflTransGen d.Child x y) : y ∈ o.preorder := by
  induction hxy with
  | refl => exact hx
  | tail _ hstep ih => exact h.mem_of_mem_children ih hstep

/-- No node in an outline is below itself. -/
theorem Reads.acyclic {o : Outline} (h : d.Reads o) {x : NodeId} (hx : x ∈ o.preorder) :
    ¬ TransGen d.Child x x := by
  intro hcycle
  obtain ⟨o', hreads, rfl, -, -⟩ := h.sub hx
  have hnot := hreads
  obtain ⟨hnode, hchildren⟩ := hreads
  obtain ⟨y, hy, hyx⟩ := TransGen.head'_iff.1 hcycle
  rw [Child, Outline.id, children_eq hnode] at hy
  obtain ⟨c, hc, rfl⟩ := List.mem_map.1 hy
  refine hnot.not_mem_children (mem_preorderAll.2 ⟨c, hc, ?_⟩)
  exact (hchildren c hc).mem_of_reach c.id_mem_preorder hyx

theorem mapM_isSome {α β : Type} {f : α → Option β} : ∀ {xs : List α},
    (∀ x ∈ xs, (f x).isSome) → (xs.mapM f).isSome
  | [], _ => rfl
  | x :: xs, h => by
    obtain ⟨y, hy⟩ := Option.isSome_iff_exists.1 (h x List.mem_cons_self)
    obtain ⟨ys, hys⟩ := Option.isSome_iff_exists.1
      (mapM_isSome fun x hx => h x (List.mem_cons_of_mem _ hx))
    simp [hy, hys]

/-- The number of slots bounds the depth of a reading. -/
theorem outlineWithin?_isSome (fuel : Nat) (above : List NodeId) (x : NodeId)
    (hacyclic : ∀ y, ReflTransGen d.Child x y → ¬ TransGen d.Child y y) (habove : d.AllLive above)
    (hreach : ∀ a ∈ above, TransGen d.Child a x) (hsize : d.slots.size + 1 ≤ fuel + above.length) :
    (d.outlineWithin? fuel x).isSome := by
  induction fuel generalizing above x with
  | zero =>
    have := length_le_size habove
    omega
  | succ fuel ih =>
    rw [outlineWithin?]
    cases hx : d.node? x with
    | none => rfl
    | some node =>
      have hchild : ∀ c ∈ node.children, d.Child x c := fun c hc => by rwa [Child, children_eq hx]
      rw [Option.isSome_map]
      refine mapM_isSome fun c hc => ih (x :: above) c (fun y hy => ?_) ⟨?_, ?_⟩ ?_ ?_
      · exact hacyclic y (.head (hchild c hc) hy)
      · exact List.nodup_cons.2 ⟨fun hmem => hacyclic x .refl (hreach x hmem), habove.1⟩
      · exact List.forall_mem_cons.2 ⟨.of_eq hx, habove.2⟩
      · exact List.forall_mem_cons.2
          ⟨.single (hchild c hc), fun a ha => (hreach a ha).tail (hchild c hc)⟩
      · rw [List.length_cons]
        omega

/-- Reading ends below a node if nothing there is below itself. -/
theorem outline?_isSome {x : NodeId}
    (hacyclic : ∀ y, ReflTransGen d.Child x y → ¬ TransGen d.Child y y) : (d.outline? x).isSome :=
  outlineWithin?_isSome _ [] x hacyclic ⟨List.nodup_nil, by simp⟩ (by simp) (by simp)

/-! ## Changes of the links -/

/-- A change of a node that keeps its children keeps the links down. -/
theorem child_update {id : NodeId} {f : Node L → Node L}
    (hch : ∀ node, (f node).children = node.children) :
    (d.update id f).Child p c ↔ d.Child p c := by
  rw [Child, children_update, Child]
  split
  next hp => simp only [hp, hch, children]
  next => rfl

/-- A new node has no children, and is in nothing. -/
theorem child_of_alloc (hd : d.Pooled) {content : NodeContent}
    (h : (d.alloc content).2.Child p c) : d.Child p c := by
  rw [Child, children, hd.node?_alloc] at h
  split at h
  · simp [isolated] at h
  · exact h

namespace Acyclic

/-- With fewer links a document stays acyclic. -/
theorem fewer (h : d.Acyclic) (hchild : ∀ p c, d'.Child p c → d.Child p c) : d'.Acyclic :=
  fun x hx => h x (TransGen.mono hchild x x hx)

theorem not_under (h : d.Acyclic) (p : NodeId) : ¬ d.Under p p := by
  rintro ⟨c, hc, hcp⟩
  exact h p (.head' hc (ReflTransGen.mono (fun _ _ hs => hs.2) c p hcp))

/-- Everything below a node can be read. -/
theorem readable (h : d.Acyclic) (x : NodeId) : (d.outline? x).isSome :=
  outline?_isSome fun y _ => h y

/-- What a document reads as is its outline. -/
theorem outline?_eq (h : d.Acyclic) (hd : d.Linked) {o : Outline} (ho : d.Reads o) :
    d.outline? o.id = some o := by
  obtain ⟨o', ho'⟩ := Option.isSome_iff_exists.1 (h.readable o.id)
  obtain ⟨hreads, hid⟩ := hd.reads ho.live ho'
  rw [ho', hreads.unique ho hid]

/-- What is under a node is what walks down from it come to. -/
theorem under_iff (h : d.Acyclic) {x : NodeId} : d.Under p x ↔ TransGen d.Child p x := by
  constructor
  · rintro ⟨c, hc, hcx⟩
    exact .head' hc (ReflTransGen.mono (fun _ _ hs => hs.2) c x hcx)
  · intro hx
    induction hx with
    | single hc => exact ⟨_, hc, .refl⟩
    | @tail y z hy hyz ih =>
      refine ih.step ⟨?_, hyz⟩
      rintro rfl
      exact h y hy

theorem clearChildren (h : d.Acyclic) (hd : d.Joined) {node : Node L} (hp : d.node? p = some node) :
    (d.clearChildren p).Acyclic := by
  obtain ⟨-, hhere, -, hgone, helse⟩ := hd.clearChildren hp (h.not_under p)
  refine h.fewer fun q c hqc => ?_
  by_cases hq : q = p
  · rw [hq, Child, children_eq hhere] at hqc
    cases hqc
  by_cases hu : d.Under p q
  · exact absurd (live_of_mem_children hqc) (hgone q hu)
  · rwa [Child, children, helse q hq hu] at hqc

/-- Outlines are put at the end of a node. -/
theorem graft (h : d.Acyclic) {node : Node L} {os : List Outline} (hp : d.node? p = some node)
    (hg : Grafted d d' p node os) : d'.Acyclic := by
  have hold : ∀ q c, d.Live q → d'.Child q c → d.Child q c ∨ c ∈ preorderAll os := by
    intro q c hq hqc
    by_cases hqp : q = p
    · rw [hqp, Child, children_eq hg.here, List.mem_append] at hqc
      refine hqc.imp (fun hc => ?_) fun hc => ?_
      · rwa [hqp, Child, children_eq hp]
      · obtain ⟨o, ho, rfl⟩ := List.mem_map.1 hc
        exact mem_preorderAll.2 ⟨o, ho, o.id_mem_preorder⟩
    · rw [Child, children, hg.elsewhere q hq hqp] at hqc
      exact .inl hqc
  have hfresh : ∀ x ∈ preorderAll os, ∀ y, ReflTransGen d'.Child x y →
      y ∈ preorderAll os ∧ ¬ TransGen d'.Child y y := by
    intro x hx y hxy
    obtain ⟨o, ho, hxo⟩ := mem_preorderAll.1 hx
    have hreads := (hg.fresh o ho).reads
    have hyo := hreads.mem_of_reach hxo hxy
    exact ⟨mem_preorderAll.2 ⟨o, ho, hyo⟩, hreads.acyclic hyo⟩
  have hstep : ∀ y z, y ∉ preorderAll os → z ∉ preorderAll os → d'.Child y z → d.Child y z := by
    intro y z hy hz hyz
    have hlive := (hg.only y (live_of_mem_children hyz)).resolve_right hy
    exact (hold y z hlive hyz).resolve_right hz
  intro x hx
  -- a walk to an old node has met old nodes only, for what is below a new one is new
  have hstay : ∀ y, TransGen d'.Child x y → x ∉ preorderAll os → y ∉ preorderAll os →
      TransGen d.Child x y := by
    intro y hxy hxnew hynew
    induction hxy with
    | single hxy => exact .single (hstep x _ hxnew hynew hxy)
    | @tail y z _ hyz ih =>
      have hy : y ∉ preorderAll os := fun hmem => hynew (hfresh y hmem z (.single hyz)).1
      exact (ih hy).tail (hstep y z hy hynew hyz)
  have hxnew : x ∉ preorderAll os := fun hmem => (hfresh x hmem x .refl).2 hx
  exact h x (hstay x hx hxnew hxnew)

end Acyclic

/-! ## Moves -/

/-- **A move** keeps a document acyclic exactly if the node is moved neither to itself
    nor to what is below it. -/
theorem append_acyclic_iff (h : d.Acyclic) (hd : d.Linked)
    (happend : d.append p c = (.ok (), d')) : d'.Acyclic ↔ ¬ ReflTransGen d.Child c p := by
  obtain ⟨hp, -, -, hx⟩ := moved_of_append hd happend
  have hchild : ∀ a b, d'.Child a b ↔ b ≠ c ∧ d.Child a b ∨ a = p ∧ b = c := by
    intro a b
    rw [Child, children_moved hp hx, List.mem_append, List.mem_filter, Child]
    by_cases hap : a = p <;> simp [hap, and_comm]
  constructor
  · intro hacyclic hcp
    -- the walk down from `c` to `p` is still there, and the move closes it
    have hwalk : ∀ b, ReflTransGen d.Child c b → ReflTransGen d'.Child c b := by
      intro b hcb
      induction hcb with
      | refl => exact .refl
      | @tail a b hca hab ih =>
        have hb : b ≠ c := fun heq => h c (TransGen.tail' hca (heq ▸ hab))
        exact ih.tail ((hchild a b).2 (.inl ⟨hb, hab⟩))
    exact hacyclic c (.tail' (hwalk p hcp) ((hchild p c).2 (.inr ⟨rfl, rfl⟩)))
  · intro hnot x hcycle
    -- a walk was there before, or leads through the new link: then `x` is above `p` and under `c`
    have hbefore : ∀ y, TransGen d'.Child x y →
        TransGen d.Child x y ∨ ReflTransGen d.Child x p := by
      intro y hxy
      induction hxy with
      | @single y hxy =>
        rcases (hchild x y).1 hxy with ⟨-, hxy⟩ | ⟨rfl, -⟩
        · exact .inl (.single hxy)
        · exact .inr .refl
      | @tail y z _ hyz ih =>
        refine ih.elim (fun hxy => ?_) .inr
        rcases (hchild y z).1 hyz with ⟨-, hyz⟩ | ⟨rfl, -⟩
        · exact .inl (hxy.tail hyz)
        · exact .inr hxy.to_reflTransGen
    have hafter : ∀ y, TransGen d'.Child x y →
        TransGen d.Child x y ∨ ReflTransGen d.Child c y := by
      intro y hxy
      induction hxy with
      | @single y hxy =>
        rcases (hchild x y).1 hxy with ⟨-, hxy⟩ | ⟨-, rfl⟩
        · exact .inl (.single hxy)
        · exact .inr .refl
      | @tail y z _ hyz ih =>
        rcases (hchild y z).1 hyz with ⟨-, hyz⟩ | ⟨-, rfl⟩
        · exact ih.imp (fun hxy => hxy.tail hyz) fun hcy => hcy.tail hyz
        · exact .inr .refl
    have hxp := (hbefore x hcycle).resolve_left (h x)
    have hcx := (hafter x hcycle).resolve_left (h x)
    exact hnot (hcx.trans hxp)

/-- A move that is done, of a node to itself or to what is below it. -/
def Edit.Loops (d : Document L) : Edit L → Prop
  | append parent child =>
    (d.append parent child).1 = .ok () ∧ ReflTransGen d.Child child parent
  | _ => False

/-! ## Other changes -/

/-- A change that is not a move keeps a document acyclic. -/
theorem Becomes.acyclic (hb : Becomes d d') (h : d.Acyclic) (hd : d.Joined) : d'.Acyclic := by
  cases hb with
  | refused => exact h
  | made content => exact h.fewer fun p c => child_of_alloc hd.pooled
  | changed _ hch _ _ => exact h.fewer fun p c => (child_update hch).1
  | @refilled p node hp hholds forest =>
    obtain ⟨-, hhere, -⟩ := hd.clearChildren hp (h.not_under p)
    obtain ⟨d', os, hd', hg, -⟩ := insertForest_grafted forest (hd.clear p) hhere hholds
    rw [hd']
    exact (h.clearChildren hd hp).graft hhere hg

/-- One change that is no such move keeps a document acyclic. -/
theorem Acyclic.apply (h : d.Acyclic) (hd : d.Joined) {e : Edit L} (he : ¬ e.Loops d) :
    (e.apply d).2.Acyclic := by
  cases e with
  | append parent child =>
    change (d.append parent child).2.Acyclic
    rcases append_cases hd.linked parent child with ⟨e, happend⟩ | ⟨_, d', _, _, _, happend, _⟩
    · rw [happend]
      exact h
    · rw [happend]
      refine (append_acyclic_iff h hd.linked happend).2 fun hreach => he ⟨?_, hreach⟩
      rw [happend]
  | _ =>
    refine (Edit.becomes d _ ?_).acyclic h hd
    nofun

/-! ## Runs -/

theorem Acyclic.run (h : d.Acyclic) (hd : d.Joined) {edits : List (Edit L)}
    (hedits : ∀ before e after, edits = before ++ e :: after → ¬ e.Loops (d.run before)) :
    (d.run edits).Acyclic := by
  induction edits generalizing d with
  | nil => exact h
  | cons e rest ih =>
    refine ih (h.apply hd (hedits [] e rest rfl)) (hd.apply e) fun before e' after heq => ?_
    exact hedits (e :: before) e' after (by rw [heq, List.cons_append])

/-- What the document of some nodes of markup is: its document node, with outlines below
    it that stand for the nodes. -/
theorem ofForest_grafted (forest : List Markup) :
    ∃ os, insertForest root forest (empty : Document L) = (.ok (), ofForest forest) ∧
      Grafted empty (ofForest forest : Document L) root (isolated .document) os ∧
      Outline.StandAll os forest := by
  have hroot : (empty : Document L).node? root = some (isolated .document) := rfl
  obtain ⟨d, os, hd, hg, hstand⟩ :=
    insertForest_grafted forest (joined_nil.alloc .document) hroot rfl
  have hforest : ofForest forest = d := congrArg Prod.snd hd
  exact ⟨os, hforest ▸ hd, hforest ▸ hg, hstand⟩

/-- No node of a document with its document node only has children. -/
theorem acyclic_empty : (empty : Document L).Acyclic := by
  have hnone : (⟨#[], []⟩ : Document L).Acyclic := fun x hx => by
    obtain ⟨y, hy, -⟩ := TransGen.head'_iff.1 hx
    cases hy
  exact hnone.fewer fun p c => child_of_alloc joined_nil.pooled

theorem acyclic_ofForest (forest : List Markup) : (ofForest forest : Document L).Acyclic := by
  obtain ⟨os, -, hg, -⟩ := ofForest_grafted (L := L) forest
  exact acyclic_empty.graft rfl hg

/-- **A run** on a document of markup leaves no node below itself, if it has no such
    move. -/
theorem acyclic_run {forest : List Markup} {edits : List (Edit L)}
    (hedits : ∀ before e after, edits = before ++ e :: after →
      ¬ e.Loops ((ofForest forest).run before)) : ((ofForest forest).run edits).Acyclic :=
  (acyclic_ofForest forest).run (joined_ofForest forest) hedits

end DataBinding.Document
