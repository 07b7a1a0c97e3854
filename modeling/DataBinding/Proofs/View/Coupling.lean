/-
  Watchers and listeners, coupled to the nodes they are for.

  A `Duty` is what a watcher is there for.  A document is `Coupled` to the duties of a
  view model if every element listens as the duties at it ask for, there is nothing but
  texts where a duty sets the text of an element, and the outlines that are still to be
  bound have no duties at their elements.

  * `Coupled.altered`, `Coupled.texted`: a node changed in its place, and a text put below
    an element, with new duties at the node;
  * `Coupled.rendered`: rendering keeps a document coupled, and changes what has been
    entered in an element only where it is meant to.
-/
import DataBinding.Proofs.Document.Retexting
import DataBinding.Proofs.View.Staging

namespace DataBinding

open Document (Altered Bears Texted)
open Outline (preorderAll mem_preorder mem_preorderAll)

/-! ## Duties -/

/-- Whether a reaction sets the value of a node. -/
def Reaction.models (document : DocumentId) (n : NodeId) : Reaction → Bool
  | render i m .model => decide (i = document ∧ m = n)
  | _ => false

/-- Whether a reaction sets the text of a node. -/
def Reaction.words : Reaction → Bool
  | render _ _ .text | fill _ _ _ _ => true
  | _ => false

theorem Reaction.models_iff {document : DocumentId} {n : NodeId} {r : Reaction} :
    r.models document n = true ↔ r = .render document n .model := by
  constructor
  · intro h
    match r, h with
    | render i m .model, h =>
      obtain ⟨rfl, rfl⟩ := of_decide_eq_true h
      rfl
  · rintro rfl
    exact decide_eq_true ⟨rfl, rfl⟩

/-- What a watcher is there for: an expression, and what is done with its value. -/
structure Duty where
  /-- The mapping that the expression starts from. -/
  root : MappingId
  /-- The expression. -/
  expression : String
  /-- What is done when the value has changed. -/
  reaction : Reaction

/-- What a watcher is there for. -/
def Watcher.duty (w : Watcher Reaction) : Duty := ⟨w.root, w.expression, w.reaction⟩

/-- What the watchers are there for, in order. -/
def Store.duties (s : Store Reaction) : List Duty := s.watchers.toList.map Watcher.duty

namespace Duty

/-- The duty of a view model at a node: to render there, but no markup. -/
inductive At (vm : ViewModel) (n : NodeId) : Duty → Prop
  /-- A value is rendered. -/
  | render (expression : String) {facet : Facet} (hfacet : facet ≠ .html) :
      At vm n ⟨vm.data, expression, .render vm.document n facet⟩
  /-- A text is filled in. -/
  | fill (expression template : String) :
      At vm n ⟨vm.data, expression, .fill vm.document n vm.data template⟩

/-- The duties that set the value of a node. -/
def modelsAt (qs : List Duty) (document : DocumentId) (n : NodeId) : List Duty :=
  qs.filter (·.reaction.models document n)

/-- What listens for the sake of a duty. -/
def listener (q : Duty) : String × Listener := ("input", .assign q.root q.expression)

/-- The value of a node is set for one duty at most, and what listens there does so for its
    sake. -/
def Heard (qs : List Duty) (document : DocumentId) (n : NodeId)
    (listeners : List (String × Listener)) : Prop :=
  (modelsAt qs document n).length ≤ 1 ∧ listeners = (modelsAt qs document n).map listener

variable {vm : ViewModel} {n x : NodeId} {q : Duty} {qs added : List Duty}
  {document : DocumentId}

theorem modelsAt_append :
    modelsAt (qs ++ added) document n = modelsAt qs document n ++ modelsAt added document n :=
  List.filter_append ..

/-- Duties at other nodes set no value here. -/
theorem modelsAt_eq_nil (h : ∀ q ∈ added, q.At vm n ∧ (x = n → q.reaction.words = true)) :
    modelsAt added vm.document x = [] := by
  refine List.filter_eq_nil_iff.2 fun q hq => ?_
  obtain ⟨hat, hwords⟩ := h q hq
  rw [Reaction.models_iff]
  intro hmodels
  cases hat with
  | render expression hfacet =>
    obtain ⟨-, rfl, rfl⟩ := Reaction.render.inj hmodels
    exact Bool.false_ne_true (hwords rfl)
  | fill expression template => cases hmodels

/-- Duties that set no value here are not heard here. -/
theorem Heard.append {listeners : List (String × Listener)} (h : Heard qs document x listeners)
    (hnone : modelsAt added document x = []) : Heard (qs ++ added) document x listeners := by
  rwa [Heard, modelsAt_append, hnone, List.append_nil]

theorem At.unique (h : q.At vm n) (h' : q.At vm x) : x = n := by
  cases h <;> cases h' <;> rfl

/-- What renders to a node is there for that node. -/
theorem At.eq_of_render (h : q.At vm n) {facet : Facet}
    (hq : q.reaction = .render document x facet) : x = n := by
  cases h with
  | render => exact (Reaction.render.inj hq).2.1.symm
  | fill => cases hq

end Duty

/-! ## What has been entered -/

/-- What has been entered in an element, if anything has. -/
def Document.entered? {L : Type} (d : Document L) (x : NodeId) : Option (Option String) :=
  (d.element? x).map Element.value

theorem Document.entered?_equipped {L : Type} {d : Document L} {x : NodeId} :
    d.entered? x = (d.equipped? x).map fun entry => entry.1.value := by
  rw [entered?, element?_equipped, Option.map_map]
  rfl

theorem Document.entered?_congr {L : Type} {d d' : Document L} {x : NodeId}
    (h : d'.equipped? x = d.equipped? x) : d'.entered? x = d.entered? x := by
  rw [entered?_equipped, entered?_equipped, h]

/-- What has been entered is the current value. -/
theorem Document.value?_of_entered {L : Type} {d : Document L} {x : NodeId} {s : String}
    (h : d.entered? x = some (some s)) : d.value? x = some s := by
  obtain ⟨e, he, hvalue⟩ := Option.map_eq_some_iff.1 h
  rw [value?, he, Option.bind_some, hvalue]
  rfl

/-- What a watcher has seen is what is entered in its element. -/
def Watcher.ShownIn (w : Watcher Reaction) (document : DocumentId) (d : Document Listener) : Prop :=
  ∀ n, w.reaction = .render document n .model →
    ∀ text, d.entered? n = some text → text = some (Facet.model.shown w.value)

/-! ## Coupled documents -/

/-- A document in which nodes are as the duties of a view model ask for, and outlines that
    are still to be bound. -/
structure Coupled (vm : ViewModel) (qs : List Duty) (d : Document Listener)
    (os : List Outline) : Prop where
  /-- Slots and links are sound. -/
  joined : d.Joined
  /-- There is nothing below texts. -/
  leafy : d.Leafy
  /-- The outlines are there. -/
  reads : ∀ o ∈ os, d.Reads o
  /-- They are apart. -/
  nodup : (preorderAll os).Nodup
  /-- The duties are those of the view model. -/
  duties : ∀ q ∈ qs, ∃ n, q.At vm n
  /-- There are none at elements to be bound. -/
  pending : ∀ q ∈ qs, ∀ n, q.At vm n → n ∈ preorderAll os → d.equipped? n = none
  /-- They are at elements and texts only. -/
  kinds : ∀ q ∈ qs, ∀ n, q.At vm n → d.kind? n ≠ some .document ∧ d.kind? n ≠ some .comment
  /-- There are but texts where a text is set. -/
  worded : ∀ q ∈ qs, ∀ n, q.At vm n → q.reaction.words = true → d.Worded n
  /-- Elements listen for the sake of duties. -/
  heard : ∀ n e listeners, d.equipped? n = some (e, listeners) →
    Duty.Heard qs vm.document n listeners

namespace Coupled

variable {vm : ViewModel} {qs : List Duty} {d d' : Document Listener} {n : NodeId}
  {os os' rest : List Outline}

/-- Fewer outlines are to be bound. -/
theorem mono (h : Coupled vm qs d os) (hos : ∀ o ∈ os', d.Reads o)
    (hnodup : (preorderAll os').Nodup) (hmem : ∀ x ∈ preorderAll os', x ∈ preorderAll os) :
    Coupled vm qs d os' :=
  { h with
    reads := hos
    nodup := hnodup
    pending := fun q hq n hat hn => h.pending q hq n hat (hmem n hn) }

/-- No outline is to be bound. -/
theorem done (h : Coupled vm qs d os) : Coupled vm qs d [] :=
  h.mono (fun _ => nofun) List.nodup_nil fun _ => nofun

/-- A node is opened: what is below it, and the other outlines, are to be bound. -/
theorem opened {content : Option NodeContent} {children : List Outline}
    (h : Coupled vm qs d (.node n content children :: rest)) :
    Coupled vm qs d (children ++ rest) ∧ n ∉ preorderAll (children ++ rest) := by
  have hall : preorderAll (.node n content children :: rest) = n :: preorderAll (children ++ rest) := by
    rw [preorderAll, Outline.preorder, Outline.preorderAll_append]
    rfl
  have hnodup := h.nodup
  rw [hall, List.nodup_cons] at hnodup
  refine ⟨h.mono (fun o ho => ?_) hnodup.2 fun x hx => ?_, hnodup.1⟩
  · rcases List.mem_append.1 ho with ho | ho
    · obtain @⟨_, _, _, _, _, -, hchildren⟩ := h.reads _ List.mem_cons_self
      exact hchildren o ho
    · exact h.reads o (List.mem_cons_of_mem _ ho)
  · rw [hall]
    exact List.mem_cons_of_mem n hx

/-- **A node changes** in its place, and has new duties. -/
theorem altered (h : Coupled vm qs d os) (added : List Duty) {parent : Option NodeId} {children : List NodeId}
    {content content' : NodeContent} {listeners listeners' : List (String × Listener)}
    (hn : d.node? n = some ⟨parent, children, content, listeners⟩)
    (ha : Altered d d' n ⟨parent, children, content', listeners'⟩) (hnot : n ∉ preorderAll os)
    (hkind : content'.kind = content.kind)
    (hleafy : Node.Leafy ⟨parent, children, content', listeners'⟩)
    (hat : ∀ q ∈ added, q.At vm n ∧ content.kind ≠ .document ∧ content.kind ≠ .comment ∧
      (q.reaction.words = true → d.Worded n))
    (hheard : ∀ e, content' = .element e → Duty.Heard (qs ++ added) vm.document n listeners') :
    Coupled vm (qs ++ added) d' os := by
  exact {
    joined := ha.joined
    leafy := ha.leafy h.leafy hleafy
    reads := fun o ho =>
      ha.reads (h.reads o ho) fun hmem => hnot (mem_preorderAll.2 ⟨o, ho, hmem⟩)
    nodup := h.nodup
    duties := List.forall_mem_append.2 ⟨h.duties, fun q hq => ⟨n, (hat q hq).1⟩⟩
    pending := fun q hq x hx hmem => by
      have hxn : x ≠ n := fun heq => hnot (heq ▸ hmem)
      rcases List.mem_append.1 hq with hq | hq
      · rw [Document.equipped?_congr (ha.elsewhere x hxn)]
        exact h.pending q hq x hx hmem
      · exact absurd ((hat q hq).1.unique hx) hxn
    kinds := fun q hq x hx => by
      rw [ha.kind?_eq hn hkind]
      rcases List.mem_append.1 hq with hq | hq
      · exact h.kinds q hq x hx
      · obtain ⟨hqn, hdocument, hcomment, -⟩ := hat q hq
        obtain rfl := hqn.unique hx
        rw [Document.kind?, hn, Option.map_some]
        exact ⟨fun heq => hdocument (Option.some.inj heq), fun heq => hcomment (Option.some.inj heq)⟩
    worded := fun q hq x hx hwords => by
      refine ha.worded hn hkind ?_
      rcases List.mem_append.1 hq with hq | hq
      · exact h.worded q hq x hx hwords
      · obtain ⟨hqn, -, -, hworded⟩ := hat q hq
        obtain rfl := hqn.unique hx
        exact hworded hwords
    heard := fun x e ls hx => by
      by_cases hxn : x = n
      · subst hxn
        obtain ⟨_, _, hhere⟩ := Document.equipped?_eq_some hx
        obtain ⟨-, -, rfl, rfl⟩ := Node.mk.inj (Option.some.inj (ha.here.symm.trans hhere))
        exact hheard e rfl
      · rw [Document.equipped?_congr (ha.elsewhere x hxn)] at hx
        exact (h.heard x e ls hx).append
          (Duty.modelsAt_eq_nil fun q hq => ⟨(hat q hq).1, fun heq => absurd heq hxn⟩) }

/-- **A text is put** below an element, for the sake of new duties. -/
theorem texted (h : Coupled vm qs d (os ++ rest)) (added : List Duty) (hbears : d.Bears n os)
    (ht : Texted d d' n os os') (hnot : n ∉ preorderAll (os ++ rest))
    (hat : ∀ q ∈ added, q.At vm n ∧ q.reaction.words = true) :
    Coupled vm (qs ++ added) d' (os' ++ rest) := by
  have hequipped := ht.equipped? hbears
  have hnodup := h.nodup
  rw [Outline.preorderAll_append, List.nodup_append'] at hnodup
  rw [Outline.preorderAll_append, List.mem_append, not_or] at hnot
  have hreads : ∀ o ∈ rest, d.Reads o := fun o ho => h.reads o (List.mem_append_right _ ho)
  exact {
    joined := ht.bears.joined
    leafy := ht.bears.leafy
    reads := List.forall_mem_append.2 ⟨ht.bears.reads, fun o ho => by
      have hmem : ∀ x ∈ o.preorder, x ∈ preorderAll rest := fun x hx =>
        mem_preorderAll.2 ⟨o, ho, hx⟩
      exact ht.reads (hreads o ho) (fun hn => hnot.2 (hmem n hn))
        fun x hx hxos => hnodup.2.2 hxos (hmem x hx)⟩
    nodup := by
      rw [Outline.preorderAll_append, List.nodup_append']
      refine ⟨ht.bears.nodup, hnodup.2.1, fun x hx hxrest => ?_⟩
      rcases ht.inside x hx with hmem | hdead
      · exact hnodup.2.2 hmem hxrest
      · obtain ⟨o, ho, hxo⟩ := mem_preorderAll.1 hxrest
        exact hdead ((hreads o ho).live_of_mem hxo)
    duties := List.forall_mem_append.2 ⟨h.duties, fun q hq => ⟨n, (hat q hq).1⟩⟩
    pending := fun q hq x hx hmem => by
      rw [Outline.preorderAll_append, List.mem_append] at hmem
      rcases hmem with hmem | hmem
      · obtain ⟨_, _, _, _, hnode⟩ := Document.kind?_text (ht.leaves x hmem)
        exact Document.equipped?_text hnode
      · rw [hequipped, if_neg fun hxos => hnodup.2.2 hxos hmem]
        rcases List.mem_append.1 hq with hq | hq
        · refine h.pending q hq x hx ?_
          rw [Outline.preorderAll_append]
          exact List.mem_append_right _ hmem
        · obtain rfl := (hat q hq).1.unique hx
          exact absurd hmem hnot.2
    kinds := fun q hq x hx => by
      have hwas : d.kind? x ≠ some .document ∧ d.kind? x ≠ some .comment := by
        rcases List.mem_append.1 hq with hq | hq
        · exact h.kinds q hq x hx
        · obtain rfl := (hat q hq).1.unique hx
          obtain ⟨_, _, _, hnode⟩ := hbears.here
          rw [Document.kind?, hnode]
          exact ⟨by rintro ⟨⟩, by rintro ⟨⟩⟩
      rcases ht.kind?_cases hbears x with hkind | hkind | hkind <;> rw [hkind]
      · exact ⟨by rintro ⟨⟩, by rintro ⟨⟩⟩
      · exact ⟨by rintro ⟨⟩, by rintro ⟨⟩⟩
      · exact hwas
    worded := fun q hq x hx hwords => by
      rcases List.mem_append.1 hq with hq | hq
      · exact ht.worded hbears (h.worded q hq x hx hwords)
      · obtain rfl := (hat q hq).1.unique hx
        exact ht.worded_self
    heard := fun x e ls hx => by
      rw [hequipped] at hx
      split at hx
      · cases hx
      · exact (h.heard x e ls hx).append
          (Duty.modelsAt_eq_nil fun q hq => ⟨(hat q hq).1, fun _ => (hat q hq).2⟩) }

/-- Where there are but texts below an element, they may be bound once more. -/
theorem reopened (h : Coupled vm qs d []) {e : Element} {listeners : List (String × Listener)}
    (hn : d.equipped? n = some (e, listeners)) (hworded : d.Worded n) :
    ∃ os, d.Bears n os ∧ Coupled vm qs d (os ++ []) ∧ ∀ x ∈ preorderAll os, d.equipped? x = none := by
  obtain ⟨os, hbears, htexts⟩ := hworded.bears h.joined h.leafy hn
  have hnone : ∀ x ∈ preorderAll os, d.equipped? x = none := fun x hx => by
    obtain ⟨_, _, _, _, hnode⟩ := Document.kind?_text (htexts x hx)
    exact Document.equipped?_text hnode
  refine ⟨os, hbears, ?_, hnone⟩
  rw [List.append_nil]
  exact { h with
    reads := hbears.reads
    nodup := hbears.nodup
    pending := fun _ _ x _ hx => hnone x hx }

/-- A refused change of an element. -/
theorem updateElement_refused (hn : d.element? n = none) (operation : NodeOperation)
    (f : Element → Element) :
    ∃ err, d.updateElement n operation f = (.error err, d) := by
  rw [Document.updateElement]
  rw [Document.element?] at hn
  cases hnode : d.node? n with
  | none => exact ⟨_, rfl⟩
  | some node =>
    rw [hnode, Option.bind_some] at hn
    obtain ⟨parent, children, content, listeners⟩ := node
    cases content with
    | element e => cases hn
    | _ => exact ⟨_, rfl⟩

/-- An element changes in its place. -/
theorem updated (h : Coupled vm qs d []) (operation : NodeOperation) (f : Element → Element) :
    Coupled vm qs (d.updateElement n operation f).2 [] ∧
      (∀ err, (d.updateElement n operation f).1 = .error err →
        (d.updateElement n operation f).2 = d) ∧
      ∀ x, (d.updateElement n operation f).2.entered? x =
        if x = n then (d.element? x).map fun e => (f e).value else d.entered? x := by
  cases hequipped : d.equipped? n with
  | none =>
    have hn : d.element? n = none := by rw [Document.element?_equipped, hequipped]; rfl
    obtain ⟨err, herr⟩ := updateElement_refused hn operation f
    rw [herr]
    refine ⟨h, fun _ _ => rfl, fun x => ?_⟩
    split
    next hx =>
      subst hx
      rw [Document.entered?, hn]
      rfl
    next => rfl
  | some entry =>
    obtain ⟨e, listeners⟩ := entry
    obtain ⟨parent, children, hn⟩ := Document.equipped?_eq_some hequipped
    obtain ⟨d', hd', ha⟩ := Document.updateElement_altered h.joined hn operation f
    rw [hd']
    have hcoupled := h.altered [] hn ha List.not_mem_nil rfl nofun (fun _ => nofun)
      fun e' he' => by
        rw [List.append_nil]
        exact h.heard n e listeners hequipped
    rw [List.append_nil] at hcoupled
    refine ⟨hcoupled, fun _ herr => (nomatch herr), fun x => ?_⟩
    dsimp only
    rw [Document.entered?_equipped, ha.equipped?]
    split
    next hx =>
      rw [hx, Document.element?_equipped, hequipped]
      rfl
    next => exact Document.entered?_equipped.symm

/-- The text of a node is set. -/
theorem setText (h : Coupled vm qs d []) (hdocument : d.kind? n ≠ some .document)
    (hcomment : d.kind? n ≠ some .comment) (hworded : d.Worded n) (s : String) :
    Coupled vm qs (d.setText n s).2 [] ∧
      (∀ err, (d.setText n s).1 = .error err → (d.setText n s).2 = d) ∧
      ∀ x, (d.setText n s).2.entered? x = d.entered? x := by
  cases hn : d.node? n with
  | none =>
    rw [Document.setText, hn]
    exact ⟨h, fun _ _ => rfl, fun _ => rfl⟩
  | some node =>
    obtain ⟨parent, children, content, listeners⟩ := node
    rw [Document.kind?, hn] at hdocument hcomment
    cases content with
    | document => exact absurd rfl hdocument
    | comment t => exact absurd rfl hcomment
    | text t =>
      obtain ⟨d', hd', ha⟩ := Document.setText_altered h.joined hn s
      rw [hd']
      have hleaf := h.leafy n _ hn rfl
      have hcoupled := h.altered [] hn ha List.not_mem_nil rfl (fun _ => hleaf)
        (List.forall_mem_nil _) fun _ => by rintro ⟨⟩
      rw [List.append_nil] at hcoupled
      exact ⟨hcoupled, fun _ => by rintro ⟨⟩, fun x =>
        Document.entered?_congr (ha.equipped?_of_text hn x)⟩
    | element e =>
      obtain ⟨os, hbears, hopen, hnone⟩ :=
        h.reopened (Document.equipped?_element hn) hworded
      obtain ⟨d', os', hd', ht⟩ := hbears.setText s
      rw [hd']
      have hnot : n ∉ preorderAll (os ++ []) := by
        rw [List.append_nil]
        exact hbears.not_mem
      have hcoupled := (hopen.texted [] hbears ht hnot (List.forall_mem_nil _)).done
      rw [List.append_nil] at hcoupled
      refine ⟨hcoupled, fun _ => by rintro ⟨⟩, fun x => Document.entered?_congr ?_⟩
      dsimp only
      rw [ht.equipped? hbears]
      split
      next hx => exact (hnone x hx).symm
      next => rfl

/-- **Rendering** keeps a document coupled.  It is refused without effect, or changes what
    has been entered in its element, if it is to set the value. -/
theorem rendered (h : Coupled vm qs d []) {facet : Facet} (hhtml : facet ≠ .html)
    (htext : facet = .text →
      d.kind? n ≠ some .document ∧ d.kind? n ≠ some .comment ∧ d.Worded n) (v : Value) :
    Coupled vm qs (d.render n facet v).2 [] ∧
      (∀ err, (d.render n facet v).1 = .error err → (d.render n facet v).2 = d) ∧
      ∀ x, (d.render n facet v).2.entered? x =
        if x = n ∧ facet = .model then (d.entered? x).map fun _ => some (facet.shown v)
        else d.entered? x := by
  cases facet with
  | html => exact absurd rfl hhtml
  | text =>
    obtain ⟨hdocument, hcomment, hworded⟩ := htext rfl
    obtain ⟨hcoupled, hrefused, hentered⟩ :=
      h.setText hdocument hcomment hworded (Facet.text.shown v)
    refine ⟨hcoupled, hrefused, fun x => ?_⟩
    rw [if_neg fun hx => nomatch hx.2]
    exact hentered x
  | model =>
    obtain ⟨hcoupled, hrefused, hentered⟩ := h.updated (n := n) .setValue
      fun e => { e with value := some (Facet.model.shown v) }
    refine ⟨hcoupled, hrefused, fun x => (hentered x).trans ?_⟩
    by_cases hx : x = n
    · rw [if_pos hx, if_pos ⟨hx, rfl⟩, Document.entered?, Option.map_map]
      rfl
    · rw [if_neg hx, if_neg fun hx' => hx hx'.1]
  | «attribute» name =>
    obtain ⟨hcoupled, hrefused, hentered⟩ := h.updated (n := n) .setAttribute
      fun e => { e with attributes := Keyed.put e.attributes name (v.display) }
    refine ⟨hcoupled, hrefused, fun x => (hentered x).trans ?_⟩
    rw [if_neg fun hx : x = n ∧ _ => nomatch hx.2]
    exact ite_self _

end Coupled

end DataBinding
