/-
  Documents that are trees under their document node, and the moves that end this.

  * `Treelike`: the document node is there and in nothing, following parents ends,
    and so do the readings of all nodes and the searches for selectors;
  * `Rooted` says the same by the children: no node is below itself
    (`treelike_iff`);
  * `append_rooted_iff`: a move keeps a document rooted exactly if what is moved is
    neither the document node nor above the node it is moved to;
  * `Becomes.rooted`: all other changes keep it rooted;
  * `treelike_history_iff`: the documents of a run are trees as long as there is no
    such move (`Edit.Misplaces`).
-/
import Mathlib.Order.WellFounded
import DataBinding.Proofs.Document.Acyclic

namespace DataBinding.Document

open Relation (ReflTransGen TransGen)
open Outline (preorderAll mem_preorder mem_preorderAll)

variable {L : Type} {d d' : Document L} {p c : NodeId}

/-! ## Walks down, without end or not -/

/-- The document node is there and in nothing, and no node is below itself. -/
structure Rooted (d : Document L) : Prop where
  content : d.content? root = some .document
  top : d.parent? root = none
  acyclic : ∀ x, ¬ TransGen d.Child x x

/-- A document is a tree: the document node is there and in nothing, following the
    parents of any node ends, and so does the reading of everything below it. -/
structure Treelike (d : Document L) : Prop where
  /-- The document node is there. -/
  kind : d.kind? root = some .document
  /-- It has no parent. -/
  top : d.parent? root = none
  /-- Following parents ends. -/
  parents : WellFounded fun p c => d.parent? c = some p
  /-- Reading what is below a node ends. -/
  readable : ∀ x, (d.outline? x).isSome
  /-- The search for a selector ends. -/
  searchable : ∀ selector, (d.search? selector).isSome

/-- There is no walk of different nodes without end. -/
theorem wellFounded_of_acyclic {r : NodeId → NodeId → Prop} (hlive : ∀ a b, r a b → d.Live b)
    (hacyclic : ∀ x, ¬ TransGen r x x) : WellFounded r := by
  -- the nodes walked through so far are different, so there are at most as many as slots
  have hacc : ∀ (n : Nat) (before : List NodeId) (x : NodeId), d.AllLive before →
      (∀ a ∈ before, TransGen r x a) → d.slots.size + 1 ≤ n + before.length → Acc r x := by
    intro n
    induction n with
    | zero =>
      intro before x hbefore _ hsize
      have := length_le_size hbefore
      omega
    | succ n ih =>
      intro before x hbefore hreach hsize
      refine ⟨x, fun y hyx => ih (x :: before) y ⟨?_, ?_⟩ ?_ ?_⟩
      · exact List.nodup_cons.2 ⟨fun hx => hacyclic x (hreach x hx), hbefore.1⟩
      · exact List.forall_mem_cons.2 ⟨hlive y x hyx, hbefore.2⟩
      · exact List.forall_mem_cons.2 ⟨.single hyx, fun a ha => .head hyx (hreach a ha)⟩
      · rw [List.length_cons]
        omega
  exact ⟨fun x => hacc (d.slots.size + 1) [] x ⟨List.nodup_nil, by simp⟩ (by simp) (by simp)⟩

theorem Rooted.readable (h : d.Rooted) (x : NodeId) : (d.outline? x).isSome :=
  Acyclic.readable h.acyclic x

theorem Rooted.treelike (h : d.Rooted) (hd : d.Linked) : d.Treelike where
  kind := by
    have := h.content
    rw [content?] at this
    obtain ⟨node, hnode, hcontent⟩ := Option.map_eq_some_iff.1 this
    rw [kind?, hnode, Option.map_some, hcontent]
    rfl
  top := h.top
  parents := by
    refine wellFounded_of_acyclic (fun a b hab => live_of_parent? hab) fun x hx => h.acyclic x ?_
    exact TransGen.mono (fun p c hpc => (hd.mem_children p c).2 hpc) x x hx
  readable := h.readable
  searchable selector := by
    obtain ⟨o, ho⟩ := Option.isSome_iff_exists.1 (h.readable root)
    rw [search?_eq ho]
    rfl

theorem Treelike.rooted (h : d.Treelike) (hd : d.Linked) : d.Rooted where
  content := by
    have := h.kind
    rw [kind?] at this
    obtain ⟨⟨parent, children, content, listeners⟩, hnode, hkind⟩ := Option.map_eq_some_iff.1 this
    rw [content?, hnode, Option.map_some]
    cases content with
    | document => rfl
    | _ => cases hkind
  top := h.top
  acyclic x hx := by
    have hup : TransGen (fun p c => d.parent? c = some p) x x :=
      TransGen.mono (fun p c hpc => (hd.mem_children p c).1 hpc) x x hx
    exact h.parents.transGen.asymmetric x x hup hup

theorem treelike_iff (hd : d.Linked) : d.Treelike ↔ d.Rooted :=
  ⟨fun h => h.rooted hd, fun h => h.treelike hd⟩

/-- A tree reads as an outline at a node that a selector finds. -/
theorem Treelike.outline_of_query (h : d.Treelike) (hd : d.Linked) {text : String} {x : NodeId}
    (hx : d.querySelector? text = some x) : ∃ o, d.outline? x = some o ∧ d.Reads o ∧ o.id = x := by
  obtain ⟨o, ho⟩ := Option.isSome_iff_exists.1 (h.readable x)
  exact ⟨o, ho, hd.outline_of_query hx ho⟩

/-! ## Changes that keep a document rooted -/

namespace Rooted

theorem live (h : d.Rooted) : d.Live root := by
  obtain ⟨node, hnode, -⟩ := Option.map_eq_some_iff.1 h.content
  exact .of_eq hnode

/-- A document without cycles in which the document node is as it was. -/
theorem congr (h : d.Rooted) (hacyclic : d'.Acyclic)
    (hroot : d'.content? root = d.content? root ∧ d'.parent? root = d.parent? root) :
    d'.Rooted where
  content := hroot.1.trans h.content
  top := hroot.2.trans h.top
  acyclic := hacyclic

/-- The document node is not below anything. -/
theorem not_child (h : d.Rooted) (hd : d.Linked) (p : NodeId) : ¬ d.Child p root := by
  intro hroot
  have := (hd.mem_children p root).1 hroot
  rw [h.top] at this
  cases this

theorem not_under_root (h : d.Rooted) (hd : d.Linked) : ¬ d.Under p root := by
  rintro ⟨c, hc, hcr⟩
  rcases ReflTransGen.cases_tail hcr with rfl | ⟨q, -, hq⟩
  · exact h.not_child hd p hc
  · exact h.not_child hd q hq.2

/-- The document node, when the children of a node are cleared. -/
theorem root_clearChildren (h : d.Rooted) (hd : d.Joined) {node : Node L}
    (hp : d.node? p = some node) :
    (d.clearChildren p).content? root = d.content? root ∧
      (d.clearChildren p).parent? root = d.parent? root := by
  obtain ⟨-, hhere, -, -, helse⟩ := hd.clearChildren hp (Acyclic.not_under h.acyclic p)
  by_cases hx : root = p
  · subst hx
    exact ⟨by rw [content?, hhere, content?, hp]; rfl, by rw [parent?_eq hhere, parent?_eq hp]⟩
  · rw [content?, parent?, helse root hx (h.not_under_root hd.linked), content?, parent?]
    exact ⟨rfl, rfl⟩

/-- Outlines are put at the end of a node. -/
theorem graft (h : d.Rooted) {node : Node L} {os : List Outline} (hp : d.node? p = some node)
    (hg : Grafted d d' p node os) : d'.Rooted := by
  refine h.congr (Acyclic.graft h.acyclic hp hg) ?_
  by_cases hx : root = p
  · subst hx
    exact ⟨by rw [content?, hg.here, content?, hp]; rfl,
      by rw [parent?_eq hg.here, parent?_eq hp]⟩
  · rw [content?, parent?, hg.elsewhere root h.live hx, content?, parent?]
    exact ⟨rfl, rfl⟩

end Rooted

/-- A change that is not a move keeps a document rooted. -/
theorem Becomes.rooted (hb : Becomes d d') (h : d.Rooted) (hd : d.Joined) : d'.Rooted := by
  have hacyclic := hb.acyclic h.acyclic hd
  cases hb with
  | refused => exact h
  | made content =>
    refine h.congr hacyclic ?_
    rw [content?, parent?, hd.pooled.node?_alloc, if_neg, content?, parent?]
    · exact ⟨rfl, rfl⟩
    · intro heq
      exact hd.pooled.not_live_alloc content (heq ▸ h.live)
  | @changed id f hp _ hkind _ =>
    refine h.congr hacyclic ?_
    by_cases hx : root = id
    · subst hx
      obtain ⟨node, hnode, hdocument⟩ := Option.map_eq_some_iff.1 h.content
      have hsame : (f node).content = .document := by
        have := hkind node hnode
        rw [hdocument] at this
        cases hc : (f node).content with
        | document => rfl
        | _ => rw [hc] at this; cases this
      rw [content?, parent?, node?_update, if_pos rfl, content?, parent?, hnode]
      exact ⟨congrArg some (hsame.trans hdocument.symm), hp node⟩
    · rw [content?, parent?, node?_update, if_neg hx, content?, parent?]
      exact ⟨rfl, rfl⟩
  | @refilled p node hp hholds forest =>
    obtain ⟨-, hhere, -⟩ := hd.clearChildren hp (Acyclic.not_under h.acyclic p)
    have hcleared : (d.clearChildren p).Rooted :=
      h.congr (Acyclic.clearChildren h.acyclic hd hp) (h.root_clearChildren hd hp)
    obtain ⟨d', os, hd', hg, -⟩ := insertForest_grafted forest (hd.clear p) hhere hholds
    rw [hd']
    exact hcleared.graft hhere hg

/-! ## Moves -/

/-- **A move** keeps a document rooted exactly if it moves neither the document node
    nor a node to itself or to what is below it. -/
theorem append_rooted_iff (h : d.Rooted) (hd : d.Linked) {d' : Document L}
    (happend : d.append p c = (.ok (), d')) :
    d'.Rooted ↔ c ≠ root ∧ ¬ ReflTransGen d.Child c p := by
  have hacyclic := append_acyclic_iff h.acyclic hd happend
  obtain ⟨-, hc, -, hx⟩ := moved_of_append hd happend
  have hparent := fun x => parent?_moved hc hx x
  constructor
  · intro hrooted
    refine ⟨?_, hacyclic.1 hrooted.acyclic⟩
    rintro rfl
    have := hrooted.top
    rw [hparent, if_pos rfl] at this
    cases this
  · rintro ⟨hroot, hnot⟩
    refine h.congr (hacyclic.2 hnot) ⟨content?_moved hx root, ?_⟩
    rw [hparent, if_neg hroot.symm]

/-! ## Changes -/

/-- A move that is done, of the document node, or of a node to itself or to what is
    below it. -/
def Edit.Misplaces (d : Document L) : Edit L → Prop
  | append parent child =>
    (d.append parent child).1 = .ok () ∧ (child = root ∨ ReflTransGen d.Child child parent)
  | _ => False

/-- **One change** keeps a document rooted exactly if it is not such a move. -/
theorem apply_rooted_iff (h : d.Rooted) (hd : d.Joined) (e : Edit L) :
    (e.apply d).2.Rooted ↔ ¬ e.Misplaces d := by
  cases e with
  | append parent child =>
    change (d.append parent child).2.Rooted ↔ ¬ (_ ∧ _)
    rcases append_cases hd.linked parent child with ⟨e, happend⟩ | ⟨_, d', _, _, _, happend, _⟩
    · rw [happend]
      exact iff_of_true h fun hdone => by cases hdone.1
    · rw [happend, append_rooted_iff h hd.linked happend]
      simp
  | _ =>
    refine iff_of_true ((Edit.becomes d _ ?_).rooted h hd) id
    nofun

/-! ## Runs -/

/-- A document of markup is rooted. -/
theorem rooted_ofForest (forest : List Markup) : (ofForest forest : Document L).Rooted := by
  obtain ⟨os, -, hg, -⟩ := ofForest_grafted (L := L) forest
  have hempty : (empty : Document L).Rooted := ⟨rfl, rfl, acyclic_empty⟩
  exact hempty.graft rfl hg

/-- A document of markup is a tree. -/
theorem treelike_ofForest (forest : List Markup) : (ofForest forest : Document L).Treelike :=
  (rooted_ofForest forest).treelike (joined_ofForest forest).linked

/-- A document of markup shows the markup. -/
theorem innerMarkup_ofForest (forest : List Markup) :
    (ofForest forest : Document L).innerMarkup root = forest := by
  obtain ⟨os, -, hg, hstand⟩ := ofForest_grafted (L := L) forest
  have hreads : (ofForest forest : Document L).Reads (.node root (some .document) os) :=
    .node hg.here fun o ho => (hg.fresh o ho).reads
  have houtline : (ofForest forest : Document L).outline? root = some (.node root _ os) :=
    (acyclic_ofForest forest).outline?_eq hg.joined.linked hreads
  rw [innerMarkup, houtline]
  exact Outline.markupAll_of_standAll hstand

/-- The documents of a run are rooted as long as there is no such move. -/
theorem Rooted.history_iff (h : d.Rooted) (hd : d.Joined) (edits : List (Edit L)) :
    (∀ s ∈ d.history edits, s.Treelike) ↔
      ∀ before e after, edits = before ++ e :: after → ¬ e.Misplaces (d.run before) := by
  induction edits generalizing d with
  | nil =>
    refine iff_of_true (List.forall_mem_singleton.2 (h.treelike hd.linked)) fun before e after heq => ?_
    simp at heq
  | cons e rest ih =>
    have hnext := hd.apply e
    rw [history, List.forall_mem_cons]
    constructor
    · rintro ⟨-, hrest⟩
      have hfirst : (e.apply d).2.Rooted := by
        refine (hrest _ ?_).rooted hnext.linked
        cases rest <;> exact List.mem_cons_self
      intro before e' after heq
      cases before with
      | nil =>
        obtain ⟨rfl, -⟩ := List.cons.inj heq
        exact (apply_rooted_iff h hd e).1 hfirst
      | cons e₁ before =>
        obtain ⟨rfl, htail⟩ := List.cons.inj heq
        exact (ih hfirst hnext).1 hrest before e' after htail
    · intro hnone
      have hfirst := (apply_rooted_iff h hd e).2 (hnone [] e rest rfl)
      refine ⟨h.treelike hd.linked, (ih hfirst hnext).2 fun before e' after heq => ?_⟩
      exact hnone (e :: before) e' after (by rw [heq, List.cons_append])

/-- **The documents of a run are trees** under their document node exactly if the
    run has no move of the document node, or of a node to itself or to what is below
    it: `append` is done whatever it is given. -/
theorem treelike_history_iff (forest : List Markup) (edits : List (Edit L)) :
    (∀ d ∈ (ofForest forest).history edits, d.Treelike) ↔
      ∀ before e after, edits = before ++ e :: after →
        ¬ e.Misplaces ((ofForest forest).run before) :=
  (rooted_ofForest forest).history_iff (joined_ofForest forest) edits

/-- The document node is put into an element, and released with what is below
    that; an element is put into itself. -/
theorem not_treelike_of_moves :
    let moved : Document Unit := (ofForest []).run [.createElement "p", .append ⟨1, 0⟩ root]
    let ring : Document Unit := (ofForest []).run [.createElement "p", .append ⟨1, 0⟩ ⟨1, 0⟩]
    (moved.parent? root = some ⟨1, 0⟩ ∧ ¬ moved.Treelike) ∧
      ((moved.run [.setInner ⟨1, 0⟩ []]).kind? root = none ∧
        ¬ (moved.run [.setInner ⟨1, 0⟩ []]).Treelike) ∧
      ((ring.outline? ⟨1, 0⟩).isNone ∧ ¬ ring.Treelike) := by
  intro moved ring
  have hparent : moved.parent? root = some ⟨1, 0⟩ := by decide
  have hgone : (moved.run [.setInner ⟨1, 0⟩ []]).kind? root = none := by decide
  have hring : (ring.outline? ⟨1, 0⟩).isNone := by decide
  refine ⟨⟨hparent, fun h => ?_⟩, ⟨hgone, fun h => ?_⟩, hring, fun h => ?_⟩
  · rw [h.top] at hparent
    cases hparent
  · rw [h.kind] at hgone
    cases hgone
  · have := h.readable ⟨1, 0⟩
    rw [Option.isNone_iff_eq_none.1 hring] at this
    cases this

end DataBinding.Document
