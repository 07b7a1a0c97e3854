/-
  Bindings in a document, and how rendering one leaves the others alone.

  `Displays d b t` says that a document shows a text where a binding wants it.  A
  document is `Fitted` for some bindings, and for outlines that are still to be
  bound, if every binding displays something, no two are in one place, and what
  the text of an element has put below it is neither bound nor to be bound.

  * `Fitted.frame`: a change of one node, and of what is only below it, keeps
    what is displayed elsewhere;
  * `Fitted.render`: rendering a value to a binding shows it there, and keeps
    what all other bindings display.
-/
import DataBinding.Proofs.Document.Tree
import DataBinding.Proofs.Document.Writing
import DataBinding.Proofs.View.Bindings

namespace DataBinding

open Document (Altered Retexted)
open Outline (preorderAll)

variable {L : Type} {d d' : Document L} {n : NodeId}

/-! ## Displaying -/

/-- A document shows a text where a binding wants it. -/
inductive Displays (d : Document L) : Binding → String → Prop
  /-- A piece of text. -/
  | interpolation {node : NodeId} {parent : Option NodeId} {source t : String}
      (hnode : d.node? node = some ⟨parent, [], .text t, []⟩) : Displays d ⟨node, .text, source⟩ t
  /-- The text of an element. -/
  | text {node : NodeId} {parent : Option NodeId} {children : List NodeId} {e : Element}
      {listeners : List (String × L)} {source t : String}
      (hnode : d.node? node = some ⟨parent, children, .element e, listeners⟩)
      (hchildren : d.TextOnly node children t) : Displays d ⟨node, .text, source⟩ t
  /-- The current value of an element. -/
  | model {node : NodeId} {parent : Option NodeId} {children : List NodeId} {e : Element}
      {listeners : List (String × L)} {source t : String}
      (hnode : d.node? node = some ⟨parent, children, .element e, listeners⟩)
      (hvalue : e.value = some t) : Displays d ⟨node, .model, source⟩ t
  /-- An attribute of an element. -/
  | named {node : NodeId} {parent : Option NodeId} {children : List NodeId} {e : Element}
      {listeners : List (String × L)} {name source t : String}
      (hnode : d.node? node = some ⟨parent, children, .element e, listeners⟩)
      (hvalue : Keyed.get? e.attributes name = some t) :
      Displays d ⟨node, .attribute name, source⟩ t

namespace Displays

variable {b : Binding} {t : String}

theorem current? (h : Displays d b t) : b.current? d = some t := by
  cases h with
  | interpolation hnode =>
    simp only [Binding.current?, hnode, Option.map_some, Document.textContent_text hnode]
  | text hnode hchildren =>
    simp only [Binding.current?, hnode, Option.map_some, hchildren.textContent_eq hnode]
  | model hnode hvalue =>
    simp [Binding.current?, Document.value?, Document.element?, hnode, NodeContent.element?, hvalue]
  | named hnode hvalue =>
    simp [Binding.current?, Document.attribute?, Document.attributes, Document.element?, hnode,
      NodeContent.element?, hvalue]

theorem live (h : Displays d b t) : d.Live b.node := by
  cases h with
  | interpolation hnode => exact .of_eq hnode
  | text hnode => exact .of_eq hnode
  | model hnode => exact .of_eq hnode
  | named hnode => exact .of_eq hnode

/-- What is displayed depends on the node and, for a text, on its children. -/
theorem congr (h : Displays d b t) (hnode : d'.node? b.node = d.node? b.node)
    (hinner : b.facet.isText = true → ∀ c ∈ d.children b.node, d'.node? c = d.node? c) :
    Displays d' b t := by
  cases h with
  | interpolation h => exact .interpolation (hnode.trans h)
  | text h hchildren =>
    refine .text (hnode.trans h) ?_
    rcases hchildren with hnil | ⟨c, rfl, hc⟩
    · exact .inl hnil
    · refine .inr ⟨c, rfl, (hinner rfl c ?_).trans hc⟩
      rw [Document.children_eq h]
      exact List.mem_singleton_self c
  | model h hvalue => exact .model (hnode.trans h) hvalue
  | named h hvalue => exact .named (hnode.trans h) hvalue

/-- A listener on an element changes nothing that is displayed. -/
theorem listening {parent : Option NodeId} {children : List NodeId} {e : Element}
    {listeners listeners' : List (String × L)} (h : Displays d b t)
    (hn : d.node? n = some ⟨parent, children, .element e, listeners⟩)
    (ha : Altered d d' n ⟨parent, children, .element e, listeners'⟩) : Displays d' b t := by
  have htext : ∀ {x : NodeId} {p : Option NodeId} {s : String},
      d.node? x = some ⟨p, [], .text s, []⟩ → d'.node? x = some ⟨p, [], .text s, []⟩ := by
    intro x p s hx
    refine (ha.elsewhere x ?_).trans hx
    rintro rfl
    rw [hn] at hx
    cases hx
  have helement : ∀ {x : NodeId} {p : Option NodeId} {cs : List NodeId} {e' : Element}
      {ls : List (String × L)}, d.node? x = some ⟨p, cs, .element e', ls⟩ →
      ∃ ls', d'.node? x = some ⟨p, cs, .element e', ls'⟩ := by
    intro x p cs e' ls hx
    by_cases hxn : x = n
    · subst hxn
      rw [hn] at hx
      cases hx
      exact ⟨_, ha.here⟩
    · exact ⟨_, (ha.elsewhere x hxn).trans hx⟩
  cases h with
  | interpolation hnode => exact .interpolation (htext hnode)
  | text hnode hchildren =>
    obtain ⟨ls', hnode'⟩ := helement hnode
    refine .text hnode' (hchildren.imp id ?_)
    rintro ⟨c, rfl, hc⟩
    exact ⟨c, rfl, htext hc⟩
  | model hnode hvalue =>
    obtain ⟨ls', hnode'⟩ := helement hnode
    exact .model hnode' hvalue
  | named hnode hvalue =>
    obtain ⟨ls', hnode'⟩ := helement hnode
    exact .named hnode' hvalue

end Displays

/-! ## Fitted documents -/

/-- A node of a binding for the current value listens for input. -/
def Listens (d : Document Listener) (root : MappingId) (b : Binding) : Prop :=
  b.facet = .model → ∃ node, d.node? b.node = some node ∧
    node.listeners = [("input", .assign root b.source)]

/-- What the text of an element has put below it is neither bound nor to be
    bound. -/
def Secluded (d : Document L) (bs : List Binding) (os : List Outline) (b : Binding) : Prop :=
  b.facet.isText = true → ∀ c ∈ d.children b.node, c ∉ preorderAll os ∧ ∀ b' ∈ bs, b'.node ≠ c

/-- A document in which some bindings are made, and some outlines are still to be
    bound. -/
structure Fitted (d : Document Listener) (root : MappingId) (bs : List Binding)
    (os : List Outline) : Prop where
  /-- Slots and links are sound. -/
  joined : d.Joined
  /-- Every binding displays something. -/
  displays : ∀ b ∈ bs, ∃ t, Displays d b t
  /-- Input is listened for. -/
  listens : ∀ b ∈ bs, Listens d root b
  /-- There is one binding at most in one place. -/
  alone : ∀ b ∈ bs, ∀ b' ∈ bs, b.node = b'.node → b.facet = b'.facet → b = b'
  /-- What is to be bound is as the template has it. -/
  fresh : ∀ o ∈ os, d.Fresh o
  /-- No node is to be bound twice. -/
  nodup : (preorderAll os).Nodup
  /-- No bound node is to be bound again. -/
  bound : ∀ b ∈ bs, b.node ∉ preorderAll os
  /-- What texts have put in their place is apart. -/
  secluded : ∀ b ∈ bs, Secluded d bs os b

namespace Fitted

variable {d d' : Document Listener} {root : MappingId} {bs : List Binding} {os os' : List Outline}

/-- Before anything is bound. -/
theorem start (hd : d.Joined) (hfresh : ∀ o ∈ os, d.Fresh o) (hnodup : (preorderAll os).Nodup) :
    Fitted d root [] os where
  joined := hd
  displays _ hb := absurd hb List.not_mem_nil
  listens _ hb := absurd hb List.not_mem_nil
  alone _ hb := absurd hb List.not_mem_nil
  fresh := hfresh
  nodup := hnodup
  bound _ hb := absurd hb List.not_mem_nil
  secluded _ hb := absurd hb List.not_mem_nil

theorem live (h : Fitted d root bs os) {b : Binding} (hb : b ∈ bs) : d.Live b.node := by
  obtain ⟨t, ht⟩ := h.displays b hb
  exact ht.live

theorem live_of_pending (h : Fitted d root bs os) {x : NodeId} (hx : x ∈ preorderAll os) :
    d.Live x := by
  obtain ⟨o, ho, hxo⟩ := Outline.mem_preorderAll.1 hx
  exact (h.fresh o ho).reads.live_of_mem hxo

/-- A node at which other nodes' bindings and outlines do not look. -/
structure Aside (d : Document L) (bs : List Binding) (os : List Outline) (n : NodeId) : Prop where
  pending : n ∉ preorderAll os
  inner : ∀ b ∈ bs, b.facet.isText = true → b.node ≠ n → n ∉ d.children b.node

/-- The nodes that bindings and outlines look at, those of one node's bindings
    apart. -/
def Seen (d : Document L) (bs : List Binding) (os : List Outline) (n x : NodeId) : Prop :=
  (∃ b ∈ bs, b.node = x) ∨ x ∈ preorderAll os ∨
    ∃ b ∈ bs, b.facet.isText = true ∧ b.node ≠ n ∧ x ∈ d.children b.node

theorem Seen.live (h : Fitted d root bs os) {x : NodeId} (hx : Seen d bs os n x) : d.Live x := by
  rcases hx with ⟨b, hb, rfl⟩ | hx | ⟨b, -, -, -, hx⟩
  · exact h.live hb
  · exact h.live_of_pending hx
  · exact h.joined.linked.live_child hx

/-- What is displayed elsewhere stays so while a node changes. -/
theorem displays_frame {n : NodeId} (haside : Aside d bs os n)
    (hsame : ∀ x, x ≠ n → Seen d bs os n x → d'.node? x = d.node? x) {b : Binding} (hb : b ∈ bs)
    (hne : b.node ≠ n) {t : String} (ht : Displays d b t) : Displays d' b t := by
  refine ht.congr (hsame _ hne (.inl ⟨b, hb, rfl⟩)) fun htext c hc => ?_
  refine hsame c ?_ (.inr (.inr ⟨b, hb, htext, hne, hc⟩))
  rintro rfl
  exact haside.inner b hb htext hne hc

/-- **A change of one node** and of what is not looked at keeps a document
    fitted, if the bindings at the node are in order. -/
theorem frame {n : NodeId} (h : Fitted d root bs os) (hjoined : d'.Joined)
    (haside : Aside d bs os n)
    (hsame : ∀ x, x ≠ n → Seen d bs os n x → d'.node? x = d.node? x)
    (hhere : ∀ b ∈ bs, b.node = n →
      (∃ t, Displays d' b t) ∧ Listens d' root b ∧ Secluded d' bs os b) :
    Fitted d' root bs os where
  joined := hjoined
  displays b hb := by
    by_cases hbn : b.node = n
    · exact (hhere b hb hbn).1
    · obtain ⟨t, ht⟩ := h.displays b hb
      exact ⟨t, displays_frame haside hsame hb hbn ht⟩
  listens b hb := by
    by_cases hbn : b.node = n
    · exact (hhere b hb hbn).2.1
    · intro hmodel
      obtain ⟨node, hnode, hlisteners⟩ := h.listens b hb hmodel
      exact ⟨node, (hsame _ hbn (.inl ⟨b, hb, rfl⟩)).trans hnode, hlisteners⟩
  alone := h.alone
  fresh o ho := by
    have hmem : ∀ x ∈ o.preorder, x ∈ preorderAll os := fun x hx =>
      Outline.mem_preorderAll.2 ⟨o, ho, hx⟩
    refine (h.fresh o ho).congr fun x hx => hsame x ?_ (.inr (.inl (hmem x hx)))
    rintro rfl
    exact haside.pending (hmem x hx)
  nodup := h.nodup
  bound := h.bound
  secluded b hb := by
    by_cases hbn : b.node = n
    · exact (hhere b hb hbn).2.2
    · intro htext c hc
      refine h.secluded b hb htext c ?_
      rwa [Document.children, hsame _ hbn (.inl ⟨b, hb, rfl⟩)] at hc

/-- Less is to be bound. -/
theorem fewer (h : Fitted d root bs os) (hfresh : ∀ o ∈ os', d.Fresh o)
    (hsub : (preorderAll os').Sublist (preorderAll os)) : Fitted d root bs os' where
  joined := h.joined
  displays := h.displays
  listens := h.listens
  alone := h.alone
  fresh := hfresh
  nodup := h.nodup.sublist hsub
  bound b hb hm := h.bound b hb (hsub.subset hm)
  secluded b hb htext c hc :=
    ⟨fun hm => (h.secluded b hb htext c hc).1 (hsub.subset hm), (h.secluded b hb htext c hc).2⟩

theorem drop (h : Fitted d root bs (os' ++ os)) : Fitted d root bs os :=
  h.fewer (fun o ho => h.fresh o (List.mem_append_right _ ho))
    (Outline.preorderAll_append os' os ▸ List.sublist_append_right _ _)

/-- One more binding is made. -/
theorem add (h : Fitted d root bs os) {b : Binding} {t : String} (ht : Displays d b t)
    (hlistens : Listens d root b) (halone : ∀ b' ∈ bs, b'.node = b.node → b'.facet ≠ b.facet)
    (haside : Aside d bs os b.node)
    (hsecluded : Secluded d (bs ++ [b]) os b) : Fitted d root (bs ++ [b]) os where
  joined := h.joined
  displays := by
    simp only [List.forall_mem_append, List.forall_mem_singleton]
    exact ⟨h.displays, t, ht⟩
  listens := by
    simp only [List.forall_mem_append, List.forall_mem_singleton]
    exact ⟨h.listens, hlistens⟩
  alone := by
    simp only [List.forall_mem_append, List.forall_mem_singleton]
    refine ⟨fun b₁ h₁ => ⟨h.alone b₁ h₁, fun hnode hfacet => ?_⟩, fun b₂ h₂ hnode hfacet => ?_,
      fun _ _ => trivial⟩
    · exact absurd hfacet (halone b₁ h₁ hnode)
    · exact absurd hfacet.symm (halone b₂ h₂ hnode.symm)
  fresh := h.fresh
  nodup := h.nodup
  bound := by
    simp only [List.forall_mem_append, List.forall_mem_singleton]
    exact ⟨h.bound, haside.pending⟩
  secluded := by
    simp only [List.forall_mem_append, List.forall_mem_singleton]
    refine ⟨fun b₁ h₁ htext c hc => ?_, hsecluded⟩
    obtain ⟨hc', hbs⟩ := h.secluded b₁ h₁ htext c hc
    refine ⟨hc', ?_⟩
    simp only [List.forall_mem_append, List.forall_mem_singleton]
    refine ⟨hbs, ?_⟩
    rintro rfl
    by_cases hne : b₁.node = b.node
    · exact hbs b₁ h₁ hne
    · exact haside.inner b₁ h₁ htext hne hc

/-! ## Changes of one element -/

theorem aside (h : Fitted d root bs os) {b : Binding} (hb : b ∈ bs) : Aside d bs os b.node where
  pending := h.bound b hb
  inner b' hb' htext _ hc := (h.secluded b' hb' htext _ hc).2 b hb rfl

section

variable {parent : Option NodeId} {children : List NodeId} {e e' : Element}
  {listeners listeners' : List (String × Listener)}

/-- What the bindings of an element display stays so if the element keeps it. -/
theorem displays_altered (h : Fitted d root bs os)
    (hn : d.node? n = some ⟨parent, children, .element e, listeners⟩)
    (ha : Altered d d' n ⟨parent, children, .element e', listeners'⟩) {b : Binding} (hb : b ∈ bs)
    (hbn : b.node = n) {t : String} (ht : Displays d b t)
    (hvalue : b.facet = .model → e'.value = e.value)
    (hattribute : ∀ name, b.facet = .attribute name →
      Keyed.get? e'.attributes name = Keyed.get? e.attributes name) : Displays d' b t := by
  subst hbn
  cases ht with
  | interpolation hnode =>
    rw [hn] at hnode
    cases hnode
  | text hnode hchildren =>
    rw [hn] at hnode
    cases hnode
    refine .text ha.here ?_
    rcases hchildren with hnil | ⟨c, rfl, hc⟩
    · exact .inl hnil
    · refine .inr ⟨c, rfl, (ha.elsewhere c fun hcn => ?_).trans hc⟩
      refine (h.secluded _ hb rfl c ?_).2 _ hb hcn.symm
      rw [Document.children_eq hn]
      exact List.mem_singleton_self c
  | model hnode hv =>
    rw [hn] at hnode
    cases hnode
    exact .model ha.here ((hvalue rfl).trans hv)
  | named hnode hv =>
    rw [hn] at hnode
    cases hnode
    exact .named ha.here ((hattribute _ rfl).trans hv)

/-- A change of an element in its place. -/
theorem altered (h : Fitted d root bs os)
    (hn : d.node? n = some ⟨parent, children, .element e, listeners⟩)
    (ha : Altered d d' n ⟨parent, children, .element e', listeners'⟩) (haside : Aside d bs os n)
    (hlisteners : ∀ b ∈ bs, b.node = n → b.facet = .model → listeners' = listeners)
    (hdisplays : ∀ b ∈ bs, b.node = n → ∃ t, Displays d' b t) : Fitted d' root bs os := by
  refine h.frame ha.joined haside (fun x hx _ => ha.elsewhere x hx) fun b hb hbn => ?_
  refine ⟨hdisplays b hb hbn, fun hmodel => ?_, fun htext c hc => ?_⟩
  · obtain ⟨node, hnode, hls⟩ := h.listens b hb hmodel
    rw [hbn, hn, Option.some.injEq] at hnode
    subst hnode hbn
    exact ⟨_, ha.here, (hlisteners b hb rfl hmodel).trans hls⟩
  · rw [hbn, Document.children_eq ha.here, ← Document.children_eq hn, ← hbn] at hc
    exact h.secluded b hb htext c hc

/-- A binding of an element is rendered in its place. -/
theorem rendered (h : Fitted d root bs os) {b : Binding} (hb : b ∈ bs)
    (hn : d.node? b.node = some ⟨parent, children, .element e, listeners⟩)
    (ha : Altered d d' b.node ⟨parent, children, .element e', listeners⟩) {s : String}
    (hshows : Displays d' b s) (hvalue : b.facet ≠ .model → e'.value = e.value)
    (hattribute : ∀ name, b.facet ≠ .attribute name →
      Keyed.get? e'.attributes name = Keyed.get? e.attributes name) :
    Fitted d' root bs os ∧ ∀ b' ∈ bs, b' ≠ b → ∀ t, Displays d b' t → Displays d' b' t := by
  have haside := h.aside hb
  have hother : ∀ b' ∈ bs, b' ≠ b → ∀ t, Displays d b' t → Displays d' b' t := by
    intro b' hb' hne t ht
    by_cases hbn : b'.node = b.node
    · have hfacet : b.facet ≠ b'.facet := fun hf => hne (h.alone b' hb' b hb hbn hf.symm)
      exact h.displays_altered hn ha hb' hbn ht (fun hf => hvalue (hf ▸ hfacet))
        fun name hf => hattribute name (hf ▸ hfacet)
    · exact displays_frame haside (fun x hx _ => ha.elsewhere x hx) hb' hbn ht
  refine ⟨h.altered hn ha haside (fun _ _ _ _ => rfl) fun b' hb' _ => ?_, hother⟩
  by_cases hbb : b' = b
  · exact ⟨s, hbb ▸ hshows⟩
  · obtain ⟨t, ht⟩ := h.displays b' hb'
    exact ⟨t, hother b' hb' hbb t ht⟩

/-- The text of an element is set, and nothing that is looked at was under it. -/
theorem retexted {s : String} (h : Fitted d root bs os)
    (hn : d.node? n = some ⟨parent, children, .element e, listeners⟩)
    (ht : Retexted d d' n ⟨parent, children, .element e, listeners⟩ s) (haside : Aside d bs os n)
    (hunder : ∀ x, d.Under n x → ¬ Seen d bs os n x) :
    Fitted d' root bs os ∧
      (∀ b ∈ bs, b.node = n → b.facet.isText = false → ∀ t, Displays d b t → Displays d' b t) ∧
      (∀ b ∈ bs, b.node ≠ n → ∀ t, Displays d b t → Displays d' b t) ∧
      ∀ source, Displays d' ⟨n, .text, source⟩ s ∧ Secluded d' bs os ⟨n, .text, source⟩ := by
  obtain ⟨children', hhere, honly, hnew⟩ := ht.here
  have hsame : ∀ x, x ≠ n → Seen d bs os n x → d'.node? x = d.node? x := fun x hx hseen =>
    ht.elsewhere x (hseen.live h) hx fun hu => hunder x hu hseen
  have hother : ∀ b ∈ bs, b.node = n → b.facet.isText = false → ∀ t, Displays d b t →
      Displays d' b t := by
    rintro b hb rfl hfacet t ht
    cases ht with
    | interpolation => cases hfacet
    | text => cases hfacet
    | model hnode hv =>
      rw [hn] at hnode
      cases hnode
      exact .model hhere hv
    | named hnode hv =>
      rw [hn] at hnode
      cases hnode
      exact .named hhere hv
  have hsecluded : ∀ c ∈ children', c ∉ preorderAll os ∧ ∀ b' ∈ bs, b'.node ≠ c := by
    intro c hc
    refine ⟨fun hm => ?_, ?_⟩
    · exact hunder c (hnew c hc (h.live_of_pending hm)) (.inr (.inl hm))
    · rintro b' hb' rfl
      exact hunder _ (hnew _ hc (h.live hb')) (.inl ⟨b', hb', rfl⟩)
  have hchildren : d'.children n = children' := Document.children_eq hhere
  refine ⟨h.frame ht.joined haside hsame fun b hb hbn => ⟨?_, fun hmodel => ?_, fun _ c hc => ?_⟩,
    hother, fun b hb hne t => displays_frame haside hsame hb hne, fun source => ⟨.text hhere honly,
      fun _ c hc => hsecluded c (hchildren ▸ hc)⟩⟩
  · obtain ⟨t, htb⟩ := h.displays b hb
    cases hfacet : b.facet.isText with
    | false => exact ⟨t, hother b hb hbn hfacet t htb⟩
    | true =>
      obtain ⟨node, facet, source⟩ := b
      obtain rfl : node = n := hbn
      cases facet <;> cases hfacet
      exact ⟨s, .text hhere honly⟩
  · obtain ⟨node, hnode, hls⟩ := h.listens b hb hmodel
    rw [hbn, hn, Option.some.injEq] at hnode
    subst hnode hbn
    exact ⟨_, hhere, hls⟩
  · rw [hbn, hchildren] at hc
    exact hsecluded c hc

end

/-! ## Rendering -/

/-- Rendering a value to a piece of text, which has no other binding. -/
theorem render_interpolation (h : Fitted d root bs os) {parent : Option NodeId} {source t : String}
    (hb : ⟨n, .text, source⟩ ∈ bs) (hnode : d.node? n = some ⟨parent, [], .text t, []⟩) (v : Value) :
    ∃ d', d.render n .text v = (.ok (), d') ∧ Fitted d' root bs os ∧
      Displays d' ⟨n, .text, source⟩ (Facet.text.shown v) ∧
      ∀ b' ∈ bs, b' ≠ ⟨n, .text, source⟩ → ∀ t, Displays d b' t → Displays d' b' t := by
  obtain ⟨d', hd', ha⟩ := Document.setText_altered h.joined hnode (Facet.text.shown v)
  have haside := h.aside hb
  have hsame : ∀ x, x ≠ n → Seen d bs os n x → d'.node? x = d.node? x := fun x hx _ =>
    ha.elsewhere x hx
  have hshows : Displays d' ⟨n, .text, source⟩ (Facet.text.shown v) := .interpolation ha.here
  have hone : ∀ b' ∈ bs, b'.node = n → b' = ⟨n, .text, source⟩ := by
    intro b' hb' hbn
    obtain ⟨t', ht'⟩ := h.displays b' hb'
    refine h.alone _ hb' _ hb hbn ?_
    cases ht' with
    | interpolation => rfl
    | text => rfl
    | model hnode' =>
      rw [← hbn, hnode'] at hnode
      cases hnode
    | named hnode' =>
      rw [← hbn, hnode'] at hnode
      cases hnode
  refine ⟨d', hd', h.frame ha.joined haside hsame fun b' hb' hbn => ?_, hshows,
    fun b' hb' hne t' ht' => displays_frame haside hsame hb' (fun hbn => hne (hone b' hb' hbn)) ht'⟩
  obtain rfl := hone b' hb' hbn
  refine ⟨⟨_, hshows⟩, nofun, fun _ c hc => ?_⟩
  rw [Document.children_eq ha.here] at hc
  cases hc

/-- Nothing that bindings and outlines look at is below an element whose text is bound. -/
theorem not_seen_of_under (h : Fitted d root bs os) {parent : Option NodeId}
    {children : List NodeId} {e : Element} {listeners : List (String × Listener)}
    {source t : String} (hb : ⟨n, .text, source⟩ ∈ bs)
    (hnode : d.node? n = some ⟨parent, children, .element e, listeners⟩)
    (hchildren : d.TextOnly n children t) {x : NodeId} (hx : d.Under n x) : ¬ Seen d bs os n x := by
  intro hseen
  have hinner : x ∈ d.children n := by
    rw [Document.children_eq hnode]
    exact hchildren.mem_of_under hnode hx
  obtain ⟨hpending, hbound⟩ := h.secluded _ hb rfl x hinner
  rcases hseen with ⟨b', hb', rfl⟩ | hm | ⟨b', hb', -, hne, hc⟩
  · exact hbound b' hb' rfl
  · exact hpending hm
  · rw [h.joined.linked.mem_children] at hc hinner
    exact hne (Option.some.inj (hc.symm.trans hinner))

/-- Rendering a value to the text of an element. -/
theorem render_text (h : Fitted d root bs os) {parent : Option NodeId} {children : List NodeId}
    {e : Element} {listeners : List (String × Listener)} {source t : String}
    (hb : ⟨n, .text, source⟩ ∈ bs)
    (hnode : d.node? n = some ⟨parent, children, .element e, listeners⟩)
    (hchildren : d.TextOnly n children t) (v : Value) :
    ∃ d', d.render n .text v = (.ok (), d') ∧ Fitted d' root bs os ∧
      Displays d' ⟨n, .text, source⟩ (Facet.text.shown v) ∧
      ∀ b' ∈ bs, b' ≠ ⟨n, .text, source⟩ → ∀ t, Displays d b' t → Displays d' b' t := by
  have hunder : ∀ x, d.Under n x → ¬ Seen d bs os n x := fun _ =>
    h.not_seen_of_under hb hnode hchildren
  obtain ⟨d', hd', hr⟩ := Document.setText_element h.joined hnode
    (fun hself => hunder n hself (.inl ⟨_, hb, rfl⟩)) (fun c hc m hm _ => by
      rcases hchildren with ⟨-, rfl⟩ | ⟨c', rfl, hc'⟩
      · cases hc
      · obtain rfl := List.mem_singleton.1 hc
        rw [hc', Option.some.injEq] at hm
        exact hm ▸ ⟨rfl, rfl⟩) (Facet.text.shown v)
  obtain ⟨hfitted, hsame, hother, hshows⟩ := h.retexted hnode hr (h.aside hb) hunder
  refine ⟨d', hd', hfitted, (hshows source).1, fun b' hb' hne t' ht' => ?_⟩
  by_cases hbn : b'.node = n
  · cases hfacet : b'.facet.isText with
    | false => exact hsame b' hb' hbn hfacet t' ht'
    | true =>
      refine absurd (h.alone _ hb' _ hb hbn ?_) hne
      cases hf : b'.facet <;> rw [hf] at hfacet <;> first | rfl | cases hfacet
  · exact hother b' hb' hbn t' ht'

/-- **Rendering a value to a binding** shows it there, and keeps what all other
    bindings display. -/
theorem render (h : Fitted d root bs os) {b : Binding} (hb : b ∈ bs) (v : Value) :
    ∃ d', d.render b.node b.facet v = (.ok (), d') ∧ Fitted d' root bs os ∧
      Displays d' b (b.facet.shown v) ∧
      ∀ b' ∈ bs, b' ≠ b → ∀ t, Displays d b' t → Displays d' b' t := by
  obtain ⟨t, ht⟩ := h.displays b hb
  cases ht with
  | interpolation hnode => exact h.render_interpolation hb hnode v
  | text hnode hchildren => exact h.render_text hb hnode hchildren v
  | @model node parent children e listeners source t hnode hvalue =>
    obtain ⟨d', hd', ha⟩ := Document.updateElement_altered h.joined hnode .setValue
      fun e => { e with value := some (Facet.model.shown v) }
    have hshows : Displays d' ⟨node, .model, source⟩ (Facet.model.shown v) := .model ha.here rfl
    obtain ⟨hfitted, hother⟩ := h.rendered hb hnode ha hshows (fun hf => absurd rfl hf)
      fun _ _ => rfl
    exact ⟨d', hd', hfitted, hshows, hother⟩
  | @named node parent children e listeners name source t hnode hvalue =>
    obtain ⟨d', hd', ha⟩ := Document.updateElement_altered h.joined hnode .setAttribute
      fun e => { e with attributes := Keyed.put e.attributes name ((Facet.attribute name).shown v) }
    have hshows : Displays d' ⟨node, .attribute name, source⟩ ((Facet.attribute name).shown v) :=
      .named ha.here (Keyed.get?_put_self _ _ _)
    obtain ⟨hfitted, hother⟩ := h.rendered hb hnode ha hshows (fun _ => rfl) fun name' hf =>
      Keyed.get?_put_other _ _ fun hname => hf (hname ▸ rfl)
    exact ⟨d', hd', hfitted, hshows, hother⟩

end Fitted

end DataBinding
