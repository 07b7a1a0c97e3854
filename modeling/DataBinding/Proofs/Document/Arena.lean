/-
  What every document keeps, whatever is done to it.

  An `Edit` is one change with the handles it is given, stale ones and ones that
  put a node into itself included; `run` makes changes one after the other,
  refused ones too, and `history` are the documents on the way.

  * `Sound.apply`: one change keeps a document sound, and adds slots only as far
    as they are occupied;
  * `consistent_run`: after any changes, the free list and the links are those of
    an arena of trees and rings (`Consistent`), there are as many slots as there
    were ever nodes at once, and clearing the children of any node ends.
-/
import DataBinding.Proofs.Document.Release

namespace DataBinding

variable {L : Type}

/-! ## Markup -/

namespace Markup

mutual

/-- No two attributes of an element in a node have the same name. -/
def Distinct : Markup → Prop
  | .text _ => True
  | .comment _ => True
  | .element _ attributes children => (Keyed.keys attributes).Nodup ∧ DistinctAll children

/-- No two attributes of an element in a forest have the same name. -/
def DistinctAll : List Markup → Prop
  | [] => True
  | node :: rest => Distinct node ∧ DistinctAll rest

end

end Markup

namespace NodeContent

/-- No two attributes have the same name. -/
def Distinct (content : NodeContent) : Prop :=
  ∀ e, content.element? = some e → (Keyed.keys e.attributes).Nodup

theorem distinct_text (s : String) : Distinct (.text s) := fun _ h => by cases h

theorem distinct_comment (s : String) : Distinct (.comment s) := fun _ h => by cases h

theorem distinct_element {e : Element} : Distinct (.element e) ↔ (Keyed.keys e.attributes).Nodup :=
  ⟨fun h => h e rfl, fun h _ he => Option.some.inj he ▸ h⟩

end NodeContent

namespace Document

variable {d d' : Document L}

/-! ## New nodes -/

theorem Joined.alloc (h : d.Joined) (content : NodeContent) : (d.alloc content).2.Joined where
  pooled := h.pooled.alloc content
  linked := by
    have hnew : d.node? (d.alloc content).1 = none := by
      simpa [Live] using h.pooled.not_live_alloc content
    refine h.linked.congr (fun x => ?_) (fun x => ?_)
    · by_cases hx : x = (d.alloc content).1
      · simp [children, h.pooled.node?_alloc, hx, hnew, isolated]
      · simp [children, h.pooled.node?_alloc, hx]
    · by_cases hx : x = (d.alloc content).1
      · simp [parent?, h.pooled.node?_alloc, hx, hnew, isolated]
      · simp [parent?, h.pooled.node?_alloc, hx]

theorem Sound.alloc (h : d.Sound) {content : NodeContent} (hc : content.Distinct) :
    (d.alloc content).2.Sound where
  toJoined := h.toJoined.alloc content
  attributes id e he := by
    rw [element?, h.pooled.node?_alloc] at he
    by_cases hx : id = (d.alloc content).1
    · rw [if_pos hx] at he; exact hc e he
    · rw [if_neg hx] at he; exact h.attributes id e he

/-- A change of a node that keeps its links. -/
theorem Joined.update (h : d.Joined) {id : NodeId} {f : Node L → Node L}
    (hp : ∀ node, (f node).parent = node.parent)
    (hch : ∀ node, (f node).children = node.children) : (d.update id f).Joined where
  pooled := h.pooled.update id f
  linked := by
    refine h.linked.congr (fun x => ?_) (fun x => ?_)
    · rw [children_update]
      by_cases hx : x = id
      · subst hx; rw [if_pos rfl, children]; cases d.node? x <;> simp [hch]
      · rw [if_neg hx]
    · rw [parent?, node?_update, parent?]
      by_cases hx : x = id
      · subst hx; rw [if_pos rfl]; cases d.node? x <;> simp [hp]
      · rw [if_neg hx]

theorem Sound.update (h : d.Sound) {id : NodeId} {f : Node L → Node L}
    (hp : ∀ node, (f node).parent = node.parent) (hch : ∀ node, (f node).children = node.children)
    (hcontent : ∀ node, d.node? id = some node → (f node).content.Distinct) :
    (d.update id f).Sound where
  toJoined := h.toJoined.update hp hch
  attributes x e he := by
    rw [element?, node?_update] at he
    by_cases hx : x = id
    · subst hx
      rw [if_pos rfl] at he
      cases hn : d.node? x with
      | none => simp [hn] at he
      | some node => exact hcontent node hn e (by simpa [hn] using he)
    · rw [if_neg hx] at he; exact h.attributes x e he

/-! ## Moves -/

theorem content?_moved {parent child : NodeId}
    (hx : ∀ x, d'.node? x = (d.node? x).map (Node.moved parent child x)) (x : NodeId) :
    d'.content? x = d.content? x := by
  rw [content?, hx, Option.map_map, content?]; rfl

/-- A node moved to the end of another. -/
theorem Joined.moved (h : d.Joined) {parent child : NodeId} {node : Node L}
    (hp : d.node? parent = some node) (hc : d.Live child) (hr : Reshaped d d')
    (hx : ∀ x, d'.node? x = (d.node? x).map (Node.moved parent child x)) : d'.Joined :=
  ⟨hr.pooled h.pooled, h.linked.append (.of_eq hp) hc hx⟩

/-- A move, done or refused, keeps a document sound and its slots as they are. -/
theorem Sound.append (h : d.Sound) (parent child : NodeId) :
    (d.append parent child).2.Sound ∧ Enlarged d (d.append parent child).2 := by
  obtain ⟨e, he⟩ | ⟨node, d', hp, -, hc, hd', hr, hx⟩ := append_cases h.linked parent child
  · rw [he]; exact ⟨h, .refl d⟩
  · rw [hd']
    exact ⟨⟨h.toJoined.moved hp hc hr hx, h.attributes.congr (content?_moved hx)⟩, hr.enlarged⟩

/-- A new node moved to the end of another, or refused. -/
theorem Sound.grow (h : d.Sound) {content : NodeContent} (hc : content.Distinct)
    (parent : NodeId) :
    ((d.alloc content).2.append parent (d.alloc content).1).2.Sound ∧
      Enlarged d ((d.alloc content).2.append parent (d.alloc content).1).2 := by
  obtain ⟨hs, he⟩ := (h.alloc hc).append parent (d.alloc content).1
  exact ⟨hs, (Enlarged.alloc h.pooled content).trans he⟩

theorem insertNode_element (parent : NodeId) (tag : String) (attributes : List (String × String))
    (children : List Markup) (d : Document L) :
    d.insertNode parent (.element tag attributes children) =
      match insertForest (d.alloc (.element ⟨tag, attributes, none⟩)).1 children
        (d.alloc (.element ⟨tag, attributes, none⟩)).2 with
      | (.ok (), d') => d'.append parent (d.alloc (.element ⟨tag, attributes, none⟩)).1
      | failed => failed := by
  unfold insertNode
  rfl

mutual

theorem Sound.insertNode (parent : NodeId) : ∀ (m : Markup) {d : Document L}, d.Sound →
    m.Distinct → (d.insertNode parent m).2.Sound ∧ Enlarged d (d.insertNode parent m).2
  | .text s, d, h, _ => by
    rw [Document.insertNode]; exact h.grow (NodeContent.distinct_text s) parent
  | .comment s, d, h, _ => by
    rw [Document.insertNode]; exact h.grow (NodeContent.distinct_comment s) parent
  | .element tag attributes children, d, h, hm => by
    rw [Markup.Distinct] at hm
    have hc : NodeContent.Distinct (.element ⟨tag, attributes, none⟩) :=
      NodeContent.distinct_element.2 hm.1
    obtain ⟨hs, he⟩ := Sound.insertForest (d.alloc (.element ⟨tag, attributes, none⟩)).1 children
      (h.alloc hc) hm.2
    have he' := (Enlarged.alloc h.pooled _).trans he
    rw [insertNode_element]
    split
    next d₁ heq =>
      rw [heq] at hs he'
      obtain ⟨hs', he''⟩ := hs.append parent (d.alloc (.element ⟨tag, attributes, none⟩)).1
      exact ⟨hs', he'.trans he''⟩
    next => exact ⟨hs, he'⟩

theorem Sound.insertForest (parent : NodeId) : ∀ (forest : List Markup) {d : Document L},
    d.Sound → Markup.DistinctAll forest →
      (d.insertForest parent forest).2.Sound ∧ Enlarged d (d.insertForest parent forest).2
  | [], d, h, _ => ⟨h, .refl d⟩
  | m :: rest, d, h, hm => by
    rw [Markup.DistinctAll] at hm
    obtain ⟨hs, he⟩ := Sound.insertNode parent m h hm.1
    rw [Document.insertForest]
    split
    next d₁ heq =>
      rw [heq] at hs he
      obtain ⟨hs', he'⟩ := Sound.insertForest parent rest hs hm.2
      exact ⟨hs', he.trans he'⟩
    next => exact ⟨hs, he⟩

end

/-! ## Clearing -/

theorem content?_childless (d : Document L) (p x : NodeId) :
    (d.childless p).content? x = d.content? x := by
  rw [content?, childless, node?_update, content?]
  by_cases hx : x = p
  · subst hx; rw [if_pos rfl, Option.map_map]; rfl
  · rw [if_neg hx]

/-- Clearing the children of a node keeps a document sound and adds no slot. -/
theorem Sound.clearChildren (h : d.Sound) (p : NodeId) :
    (d.clearChildren p).Sound ∧ (d.clearChildren p).slots.size = d.slots.size := by
  cases hp : d.node? p with
  | none => rw [Document.clearChildren, hp]; exact ⟨h, rfl⟩
  | some node =>
    obtain ⟨gone, hlive, hgone, heq, -⟩ := clearChildren_eq h.linked hp
    have hlive' : (d.childless p).AllLive gone :=
      ⟨hlive.1, fun y hy => (live_childless y).2 (hlive.2 y hy)⟩
    rw [heq]
    refine ⟨⟨⟨(h.pooled.update p _).vacateAll hlive', h.linked.clear hlive hgone⟩, ?_⟩, ?_⟩
    · intro id e he
      rw [element?, node?_vacateAll hlive'] at he
      by_cases hid : id ∈ gone
      · simp [hid] at he
      · rw [if_neg hid, ← element?, element?_eq, content?_childless, ← element?_eq] at he
        exact h.attributes id e he
    · rw [vacateAll_size, childless, update_size]

/-! ## Changes -/

/-- A change of a document, with the handles it is given. -/
inductive Edit (L : Type) where
  /-- Make an element. -/
  | createElement (tag : String)
  /-- Make a text. -/
  | createText (s : String)
  /-- Move a node to the end of another. -/
  | append (parent child : NodeId)
  /-- Set the text of a node. -/
  | setText (id : NodeId) (s : String)
  /-- Replace what is below an element by nodes of markup. -/
  | setInner (id : NodeId) (forest : List Markup)
  /-- Set an attribute. -/
  | setAttribute (id : NodeId) (name value : String)
  /-- Drop an attribute. -/
  | removeAttribute (id : NodeId) (name : String)
  /-- Set the current value of an element. -/
  | setValue (id : NodeId) (value : String)
  /-- Add a listener to an element. -/
  | addListener (id : NodeId) (eventType : String) (listener : L)

namespace Edit

/-- Make a change. -/
def apply (d : Document L) : Edit L → Edited L
  | createElement tag => (.ok (), (d.createElement tag).2)
  | createText s => (.ok (), (d.createText s).2)
  | append parent child => d.append parent child
  | setText id s => d.setText id s
  | setInner id forest => d.setInner id forest
  | setAttribute id name value => d.setAttribute id name value
  | removeAttribute id name => d.removeAttribute id name
  | setValue id value => d.setValue id value
  | addListener id eventType listener => d.addListener id eventType listener

/-- The markup that a change brings names no attribute of an element twice. -/
def Distinct : Edit L → Prop
  | setInner _ forest => Markup.DistinctAll forest
  | _ => True

end Edit

/-- A step from a document to the next one: sound, and with more slots only as
    far as they are occupied. -/
def Grown (d d' : Document L) : Prop :=
  d'.Sound ∧ d'.slots.size = max d.slots.size d'.nodeCount

theorem Grown.of_enlarged (h : d'.Sound ∧ Enlarged d d') : Grown d d' := ⟨h.1, h.2.size_eq⟩

theorem Sound.grown_refl (h : d.Sound) : Grown d d := .of_enlarged ⟨h, .refl d⟩

/-- A change of the attributes or the value of an element. -/
theorem Sound.updateElement (h : d.Sound) (id : NodeId) (operation : NodeOperation)
    {f : Element → Element}
    (hf : ∀ e, (Keyed.keys e.attributes).Nodup → (Keyed.keys (f e).attributes).Nodup) :
    Grown d (d.updateElement id operation f).2 := by
  rw [Document.updateElement]
  cases hn : d.node? id with
  | none => exact h.grown_refl
  | some node =>
    obtain ⟨parent, children, content, listeners⟩ := node
    cases content with
    | element e =>
      refine .of_enlarged ⟨h.update (fun node => ?_) (fun node => ?_) fun node hnode => ?_, .update _ _⟩
      · cases hc : node.content <;> simp
      · cases hc : node.content <;> simp
      · rw [hn, Option.some.injEq] at hnode
        subst hnode
        exact NodeContent.distinct_element.2 (hf e (h.attributes id e (by simp [element?, hn,
          NodeContent.element?])))
    | _ => exact h.grown_refl

theorem Sound.setInner (h : d.Sound) (id : NodeId) {forest : List Markup}
    (hf : Markup.DistinctAll forest) : Grown d (d.setInner id forest).2 := by
  rw [Document.setInner]
  cases hn : d.node? id with
  | none => exact h.grown_refl
  | some node =>
    obtain ⟨parent, children, content, listeners⟩ := node
    cases content with
    | element e =>
      obtain ⟨hs, hsize⟩ := h.clearChildren id
      obtain ⟨hs', he⟩ := Sound.insertForest id forest hs hf
      exact ⟨hs', hsize ▸ he.size_eq⟩
    | _ => exact h.grown_refl

theorem Sound.replaceByText (h : d.Sound) (id : NodeId) (s : String) :
    Grown d (d.replaceByText id s).2 := by
  obtain ⟨hs, hsize⟩ := h.clearChildren id
  rw [Document.replaceByText]
  split
  · exact ⟨hs, by rw [hsize, nodeCount, hsize]; omega⟩
  · obtain ⟨hs', he⟩ := hs.grow (NodeContent.distinct_text s) id
    exact ⟨hs', hsize ▸ he.size_eq⟩

theorem Sound.setText (h : d.Sound) (id : NodeId) (s : String) : Grown d (d.setText id s).2 := by
  have hset : ∀ (x : NodeId) {content : NodeContent}, content.Distinct →
      Grown d (d.update x fun node => { node with content := content }) := fun x _ hc =>
    .of_enlarged ⟨h.update (fun _ => rfl) (fun _ => rfl) fun _ _ => hc, .update _ _⟩
  rw [Document.setText]
  cases hn : d.node? id with
  | none => exact h.grown_refl
  | some node =>
    obtain ⟨parent, children, content, listeners⟩ := node
    cases content with
    | text t => exact hset id (NodeContent.distinct_text s)
    | comment t => exact hset id (NodeContent.distinct_comment s)
    | _ =>
      dsimp only
      split
      · split
        · exact h.replaceByText id s
        · exact hset _ (NodeContent.distinct_text s)
      · exact h.replaceByText id s

theorem Sound.addListener (h : d.Sound) (id : NodeId) (eventType : String) (listener : L) :
    Grown d (d.addListener id eventType listener).2 := by
  rw [Document.addListener]
  cases hn : d.node? id with
  | none => exact h.grown_refl
  | some node =>
    obtain ⟨parent, children, content, listeners⟩ := node
    cases content with
    | element e =>
      refine .of_enlarged ⟨h.update (fun _ => rfl) (fun _ => rfl) fun node hnode => ?_, .update _ _⟩
      exact fun e he => h.attributes id e (by simpa [element?, hnode] using he)
    | _ => exact h.grown_refl

/-- **One change**, done or refused, keeps a document sound, and adds slots only
    as far as they are occupied. -/
theorem Sound.apply (h : d.Sound) {e : Edit L} (he : e.Distinct) : Grown d (e.apply d).2 := by
  cases e with
  | createElement tag =>
    exact .of_enlarged ⟨h.alloc (NodeContent.distinct_element.2 List.nodup_nil),
      .alloc h.pooled _⟩
  | createText s => exact .of_enlarged ⟨h.alloc (NodeContent.distinct_text s), .alloc h.pooled _⟩
  | append parent child => exact .of_enlarged (h.append parent child)
  | setText id s => exact h.setText id s
  | setInner id forest => exact h.setInner id he
  | setAttribute id name value =>
    refine h.updateElement id _ fun e hnd => ?_
    rw [Keyed.keys_put]
    split
    next => exact hnd
    next hm => exact hnd.append (List.nodup_singleton name) fun k hk hk' => hm (by
      rwa [List.mem_singleton.1 hk'] at hk)
  | removeAttribute id name =>
    exact h.updateElement id _ fun e hnd => hnd.sublist (List.filter_sublist.map _)
  | setValue id value => exact h.updateElement id _ fun e hnd => hnd
  | addListener id eventType listener => exact h.addListener id eventType listener

/-! ## Slots and links, whatever the attributes -/

namespace Joined

/-- A move, done or refused. -/
theorem append (h : d.Joined) (parent child : NodeId) : (d.append parent child).2.Joined := by
  obtain ⟨e, he⟩ | ⟨node, d', hp, -, hc, hd', hr, hx⟩ := append_cases h.linked parent child
  · rw [he]
    exact h
  · rw [hd']
    exact h.moved hp hc hr hx

mutual

theorem insertNode (parent : NodeId) : ∀ (m : Markup) {d : Document L}, d.Joined →
    (d.insertNode parent m).2.Joined
  | .text s, d, h => by
    rw [Document.insertNode]
    exact (h.alloc (.text s)).append parent _
  | .comment s, d, h => by
    rw [Document.insertNode]
    exact (h.alloc (.comment s)).append parent _
  | .element tag attributes children, d, h => by
    have hforest := insertForest (d.alloc (.element ⟨tag, attributes, none⟩)).1 children
      (h.alloc (.element ⟨tag, attributes, none⟩))
    rw [insertNode_element]
    split
    next d₁ heq =>
      rw [heq] at hforest
      exact hforest.append parent _
    next => exact hforest

theorem insertForest (parent : NodeId) : ∀ (forest : List Markup) {d : Document L}, d.Joined →
    (d.insertForest parent forest).2.Joined
  | [], d, h => h
  | m :: rest, d, h => by
    have hnode := insertNode parent m h
    rw [Document.insertForest]
    split
    next d₁ heq =>
      rw [heq] at hnode
      exact insertForest parent rest hnode
    next => exact hnode

end

theorem clear (h : d.Joined) (id : NodeId) : (d.clearChildren id).Joined := by
  cases hn : d.node? id with
  | none =>
    rw [Document.clearChildren, hn]
    exact h
  | some node =>
    obtain ⟨gone, hlive, hgone, heq, -⟩ := clearChildren_eq h.linked hn
    have hlive' : (d.childless id).AllLive gone :=
      ⟨hlive.1, fun y hy => (live_childless y).2 (hlive.2 y hy)⟩
    rw [heq]
    exact ⟨(h.pooled.update id _).vacateAll hlive', h.linked.clear hlive hgone⟩

theorem replaceByText (h : d.Joined) (id : NodeId) (s : String) :
    (d.replaceByText id s).2.Joined := by
  rw [Document.replaceByText]
  split
  · exact h.clear id
  · exact ((h.clear id).alloc (.text s)).append id _

theorem setText (h : d.Joined) (id : NodeId) (s : String) : (d.setText id s).2.Joined := by
  have hset : ∀ (x : NodeId) (content : NodeContent),
      (d.update x fun node => { node with content := content }).Joined := fun x content =>
    h.update (fun _ => rfl) fun _ => rfl
  rw [Document.setText]
  cases hn : d.node? id with
  | none => exact h
  | some node =>
    obtain ⟨parent, children, content, listeners⟩ := node
    cases content with
    | text t => exact hset id _
    | comment t => exact hset id _
    | _ =>
      dsimp only
      split
      · split
        · exact h.replaceByText id s
        · exact hset _ _
      · exact h.replaceByText id s

theorem setInner (h : d.Joined) (id : NodeId) (forest : List Markup) :
    (d.setInner id forest).2.Joined := by
  rw [Document.setInner]
  split
  · exact h
  · split
    · exact insertForest id forest (h.clear id)
    · exact h

theorem updateElement (h : d.Joined) (id : NodeId) (operation : NodeOperation)
    (f : Element → Element) : (d.updateElement id operation f).2.Joined := by
  rw [Document.updateElement]
  split
  · exact h
  · split
    · refine h.update (fun node => ?_) fun node => ?_ <;> cases hc : node.content <;> simp
    · exact h

theorem addListener (h : d.Joined) (id : NodeId) (eventType : String) (listener : L) :
    (d.addListener id eventType listener).2.Joined := by
  rw [Document.addListener]
  split
  · exact h
  · split
    · exact h.update (fun _ => rfl) fun _ => rfl
    · exact h

/-- One change, done or refused, keeps slots and links sound. -/
theorem apply (h : d.Joined) (e : Edit L) : (e.apply d).2.Joined := by
  cases e with
  | createElement tag => exact h.alloc _
  | createText s => exact h.alloc _
  | append parent child => exact h.append parent child
  | setText id s => exact h.setText id s
  | setInner id forest => exact h.setInner id forest
  | setAttribute id name value => exact h.updateElement id _ _
  | removeAttribute id name => exact h.updateElement id _ _
  | setValue id value => exact h.updateElement id _ _
  | addListener id eventType listener => exact h.addListener id eventType listener

end Joined

/-! ## Runs -/

/-- The document after some changes, whatever they came to. -/
def run (d : Document L) (edits : List (Edit L)) : Document L :=
  edits.foldl (fun d e => (e.apply d).2) d

/-- The documents on the way, the first and the last one included. -/
def history (d : Document L) : List (Edit L) → List (Document L)
  | [] => [d]
  | e :: rest => d :: history (e.apply d).2 rest

/-- A run keeps a document sound; its slots are those it began with, or as many as
    there were nodes at some time, and never fewer. -/
theorem Sound.run (h : d.Sound) {edits : List (Edit L)} (hedits : ∀ e ∈ edits, e.Distinct) :
    (d.run edits).Sound ∧ (∀ s ∈ d.history edits, s.nodeCount ≤ (d.run edits).slots.size) ∧
      d.slots.size ≤ (d.run edits).slots.size ∧
      ((d.run edits).slots.size = d.slots.size ∨
        ∃ s ∈ d.history edits, s.nodeCount = (d.run edits).slots.size) := by
  induction edits generalizing d with
  | nil =>
    refine ⟨h, fun s hs => ?_, Nat.le_refl _, .inl rfl⟩
    rw [List.mem_singleton.1 hs, nodeCount]
    exact Nat.sub_le _ _
  | cons e rest ih =>
    obtain ⟨hs, hsize⟩ := h.apply (hedits e (by simp))
    obtain ⟨hsound, hle, hmono, hmax⟩ := ih hs fun x hx => hedits x (by simp [hx])
    rw [show d.run (e :: rest) = (e.apply d).2.run rest from rfl]
    have hstart : d.slots.size ≤ ((e.apply d).2.run rest).slots.size := by omega
    refine ⟨hsound, ?_, hstart, ?_⟩
    · refine List.forall_mem_cons.2 ⟨Nat.le_trans (Nat.sub_le _ _) hstart, hle⟩
    · rcases hmax with heq | ⟨s, hmem, hcount⟩
      · by_cases hgrow : (e.apply d).2.nodeCount ≤ d.slots.size
        · left; omega
        · refine .inr ⟨(e.apply d).2, ?_, by omega⟩
          cases rest <;> simp [history]
      · exact .inr ⟨s, by simp [history, hmem], hcount⟩

/-- A document without slots. -/
theorem joined_nil : Joined (⟨#[], []⟩ : Document L) := by
  have hnone : ∀ x, (⟨#[], []⟩ : Document L).node? x = none := fun x => rfl
  refine ⟨⟨List.nodup_nil, fun i => ?_⟩, ⟨fun p => ?_, fun p c => ?_⟩⟩
  · simp [Vacant]
  · simp [children, hnone]
  · simp [children, parent?, hnone]

theorem joined_ofForest (forest : List Markup) : (ofForest forest : Document L).Joined :=
  Joined.insertForest root forest (joined_nil.alloc .document)

theorem sound_empty : (empty : Document L).Sound := by
  have h0 : Sound (⟨#[], []⟩ : Document L) := ⟨joined_nil, fun id e he => by cases he⟩
  exact h0.alloc fun e he => by cases he

/-- A document of markup is sound and has no free slot. -/
theorem sound_ofForest {forest : List Markup} (hf : Markup.DistinctAll forest) :
    (ofForest forest : Document L).Sound ∧
      (ofForest forest : Document L).slots.size = (ofForest forest : Document L).nodeCount := by
  obtain ⟨hs, he⟩ := Sound.insertForest (L := L) root forest sound_empty hf
  refine ⟨hs, ?_⟩
  have hsize := he.size_eq
  have hle := he.nodeCount_le
  have hone : (empty : Document L).slots.size = 1 := rfl
  have hcount : (empty : Document L).nodeCount = 1 := rfl
  rw [ofForest]; omega

/-- What holds of the free list, the links and the attributes of a document. -/
structure Consistent (d : Document L) : Prop where
  /-- The free list names no slot twice. -/
  free_nodup : d.free.Nodup
  /-- It names exactly the slots without a node. -/
  free_eq : ∀ i, i ∈ d.free ↔ ∃ slot, d.slots[i]? = some slot ∧ slot.node = none
  /-- The number of nodes is the number of occupied slots. -/
  count : d.nodeCount = d.slots.toList.countP fun slot => slot.node.isSome
  /-- The children of a node are there and have it as their parent. -/
  children : ∀ p node, d.node? p = some node →
    ∀ c ∈ node.children, ∃ child, d.node? c = some child ∧ child.parent = some p
  /-- No child is listed twice. -/
  children_nodup : ∀ p node, d.node? p = some node → node.children.Nodup
  /-- The parent of a node, if it has one, is there and lists it. -/
  parent : ∀ c node, d.node? c = some node → ∀ p, node.parent = some p →
    ∃ parent, d.node? p = some parent ∧ c ∈ parent.children
  /-- No two attributes of an element have the same name. -/
  attributes : ∀ id e, d.element? id = some e → (Keyed.keys e.attributes).Nodup

theorem Sound.consistent (h : d.Sound) : d.Consistent where
  free_nodup := h.pooled.free_nodup
  free_eq := h.pooled.mem_free
  count := h.pooled.nodeCount_eq
  children p node hp c hc := by
    have hparent := (h.linked.mem_children p c).1 (by rwa [children_eq hp])
    obtain ⟨child, hchild⟩ := live_iff.1 (live_of_parent? hparent)
    exact ⟨child, hchild, by rwa [parent?_eq hchild] at hparent⟩
  children_nodup p node hp := children_eq hp ▸ h.linked.children_nodup p
  parent c node hc p hp := by
    have hmem := (h.linked.mem_children p c).2 (by rwa [parent?_eq hc])
    obtain ⟨parent, hparent⟩ := live_iff.1 (live_of_mem_children hmem)
    exact ⟨parent, hparent, by rwa [children_eq hparent] at hmem⟩
  attributes := h.attributes

/-- **The arena of a document is consistent after any changes**, done or refused,
    with whatever handles: there are as many slots as the largest number of nodes
    there have been at once, and every release below a node ends. -/
theorem consistent_run {forest : List Markup} (hforest : Markup.DistinctAll forest)
    {edits : List (Edit L)} (hedits : ∀ e ∈ edits, e.Distinct) :
    ((ofForest forest).run edits).Consistent ∧
      (∀ s ∈ (ofForest forest).history edits,
        s.nodeCount ≤ ((ofForest forest).run edits).slots.size) ∧
      (∃ s ∈ (ofForest forest).history edits,
        s.nodeCount = ((ofForest forest).run edits).slots.size) ∧
      ∀ p node, ((ofForest forest).run edits).node? p = some node →
        Released (((ofForest forest).run edits).childless p) node.children
          (((ofForest forest).run edits).clearChildren p) := by
  obtain ⟨hs, hsize⟩ := sound_ofForest (L := L) hforest
  obtain ⟨hrun, hle, -, hmax⟩ := hs.run hedits
  refine ⟨hrun.consistent, hle, ?_, fun p node hp => ?_⟩
  · rcases hmax with heq | hmax
    · refine ⟨ofForest forest, ?_, by rw [heq, hsize]⟩
      cases edits <;> simp [history]
    · exact hmax
  · obtain ⟨gone, -, -, -, hrel⟩ := clearChildren_eq hrun.linked hp
    exact hrel

/-- An element put into itself, its content replaced, and the stale handle used
    again. -/
theorem consistent_run_of_ring :
    let forest := [Markup.element "div" [("id", "a"), ("class", "b")] [.text "x"]]
    let edits : List (Edit Unit) :=
      [.append ⟨1, 0⟩ ⟨1, 0⟩, .setInner ⟨1, 0⟩ [.element "p" [("id", "c")] []],
        .setAttribute ⟨1, 0⟩ "id" "d"]
    Markup.DistinctAll forest ∧ (∀ e ∈ edits, e.Distinct) ∧
      ((ofForest forest).run edits).Consistent ∧
      ∃ s ∈ (ofForest forest).history edits,
        s.nodeCount = ((ofForest forest).run edits).slots.size := by
  intro forest edits
  have hforest : Markup.DistinctAll forest := by
    simp [forest, Markup.DistinctAll, Markup.Distinct, Keyed.keys]
  have hedits : ∀ e ∈ edits, e.Distinct := by
    simp [edits, Edit.Distinct, Markup.DistinctAll, Markup.Distinct, Keyed.keys]
  obtain ⟨h, -, hmax, -⟩ := consistent_run hforest hedits
  exact ⟨hforest, hedits, h, hmax⟩

end Document

end DataBinding
