/-
  Mounting a template that binds values in both directions.

  While a template is bound, the document is coupled to the watchers that have been made,
  and what has been entered in an element is what its watcher saw (`Assembled`).  A text
  that replaces what is below an element has no elements in it, so that every element of
  the template is bound or gone in the end (`Covered`).

  * `Underway.bindEntry`: one attribute of an element is bound;
  * `Assembled.compileNode`: one node is bound by itself;
  * `Play.compile_assembles`: nodes and what is below them, by induction on the bound on
    the depth and along the nodes;
  * `Play.mount_assembles`: a template has been mounted.
-/
import DataBinding.Proofs.View.Coupling
import DataBinding.Proofs.View.Registration

namespace DataBinding

open Effect (each)
open Document (Altered Bears Texted)
open Outline (preorderAll mem_preorder mem_preorderAll)

/-! ## Attributes -/

/-- No directive for markup or for an event. -/
def Directive.Bare : Option Directive → Prop
  | some html | some (on _) => False
  | none | some text | some model | some (bind _) => True

instance : DecidablePred Directive.Bare
  | some .html | some (.on _) => .isFalse id
  | none | some .text | some .model | some (.bind _) => .isTrue trivial

/-- Attributes without a directive for markup or for an event, and with one for the value
    at most. -/
structure Modelled (attributes : List (String × String)) : Prop where
  /-- There are no such directives. -/
  bare : ∀ entry ∈ attributes, Directive.Bare (Directive.of? entry.1)
  /-- The value is bound once at most. -/
  once : (attributes.countP fun entry => Directive.of? entry.1 == some .model) ≤ 1

instance : DecidablePred Modelled := fun _ =>
  decidable_of_iff (_ ∧ _) ⟨fun ⟨hb, ho⟩ => ⟨hb, ho⟩, fun h => ⟨h.bare, h.once⟩⟩

/-- What holds of the attributes of an outline holds of those of its elements. -/
theorem Outline.Every.attributes {L : Type} {d : Document L}
    {A : List (String × String) → Prop} {o : Outline} (h : d.Reads o) (ho : o.Every A) :
    ∀ n ∈ o.preorder, ∀ e, d.element? n = some e → A e.attributes := by
  induction h with
  | @node x parent content children listeners hnode hchildren ih =>
    intro n hn e he
    rcases mem_preorder.1 hn with rfl | ⟨o, hmem, hno⟩
    · rw [Document.element?, hnode, Option.bind_some] at he
      cases content with
      | element e' =>
        obtain rfl := Option.some.inj he
        exact ho.1 _ rfl
      | _ => cases he
    · exact ih o hmem (Outline.everyOf_iff.1 ho.2 o hmem) n hno e he

/-- What is of the kind of no element is none. -/
theorem NodeContent.element?_of_kind {content content' : NodeContent}
    (hkind : content'.kind = content.kind) (h : content.element? = none) :
    content'.element? = none := by
  cases content' with
  | element e' =>
    cases content with
    | element e => cases h
    | _ => cases hkind
  | _ => rfl

/-! ## Stores with more watchers -/

/-- A store with the same data and more watchers. -/
structure Store.Gains {R : Type} (s : Store R) (added : List (Watcher R)) (s' : Store R) :
    Prop where
  /-- The data is as before. -/
  data : s.SameData s'
  /-- There are no other slots. -/
  size : s'.slots.size = s.slots.size
  /-- The same watchers collect. -/
  collecting : s'.collecting = s.collecting
  /-- There are more watchers. -/
  watchers : s'.watchers.toList = s.watchers.toList ++ added

namespace Store.Gains

variable {R : Type} {s s' s'' : Store R} {added added' : List (Watcher R)}

theorem refl (s : Store R) : s.Gains [] s := ⟨.refl s, rfl, rfl, (List.append_nil _).symm⟩

theorem trans (h : s.Gains added s') (h' : s'.Gains added' s'') :
    s.Gains (added ++ added') s'' where
  data := h.data.trans h'.data
  size := h'.size.trans h.size
  collecting := h'.collecting.trans h.collecting
  watchers := by rw [h'.watchers, h.watchers, List.append_assoc]

theorem watched (s : Store R) (root : MappingId) (e : String) (label : R) (v : Value) :
    s.Gains [⟨root, e, label, v, 1⟩] (s.watched root e label v) :=
  ⟨.watched s root e label v, size_slots_watched s root e label v, rfl, Array.toList_push⟩

theorem duties {s s' : Store Reaction} {added : List (Watcher Reaction)}
    (h : s.Gains added s') : s'.duties = s.duties ++ added.map Watcher.duty := by
  rw [Store.duties, h.watchers, List.map_append]
  rfl

end Store.Gains

namespace Play

variable {u u' : World Reaction Stage} {vm : ViewModel} {n : NodeId} {d : Document Listener}

/-- Rendering an expression makes a watcher that has seen what is rendered. -/
theorem bindValue_eq_ok {e : String} {facet : Facet}
    (hstaged : u.stage.documents[vm.document]? = some d) (hquiet : u.store.collecting = [])
    (h : bindValue vm n e facet u = (.ok (), u')) :
    ∃ v d', d.render n facet v = (.ok (), d') ∧ u'.stage.documents[vm.document]? = some d' ∧
      u.store.Gains [⟨vm.data, e, .render vm.document n facet, v, 1⟩] u'.store := by
  rw [bindValue, Effect.mapFault_eq_ok] at h
  obtain ⟨w, u₁, hwatch, h⟩ := Effect.bind_eq_ok.1 h
  obtain ⟨v, u₂, hget, h⟩ := Effect.bind_eq_ok.1 h
  cases hresolve : (u.store.resolve vm.data e).2 with
  | error err =>
    rw [Effect.watch_of_error hresolve] at hwatch
    cases hwatch
  | ok seen =>
    rw [Effect.watch_of_ok hresolve] at hwatch
    cases hwatch
    have hgains := Store.Gains.watched u.store vm.data e (.render vm.document n facet) seen
    rw [Effect.getPath_apply] at hget
    dsimp only at hget
    rw [hgains.data.resolve, hresolve,
      Store.trackAll_of_not_collecting _ (hgains.collecting.trans hquiet)] at hget
    cases hget
    obtain ⟨d', hrender, rfl⟩ := edit_eq_ok h hstaged
    exact ⟨_, d', hrender, World.documents_put hstaged d', hgains⟩

/-- The watchers of the placeholders of a text are made. -/
theorem fills_eq_ok {template : String} : ∀ {es : List String} {u : World Reaction Stage},
    each (fun e => do
        let _ ← Effect.watch vm.data e (.fill vm.document n vm.data template)) es u = (.ok (), u') →
      u'.stage = u.stage ∧ ∃ added, u.store.Gains added u'.store ∧
        ∀ w ∈ added, w.duty.At vm n ∧ w.reaction.words = true
  | [], u, h => by
    cases h
    exact ⟨rfl, [], .refl _, fun _ => nofun⟩
  | e :: es, u, h => by
    obtain ⟨u₁, hwatch, h⟩ := Effect.each_cons_eq_ok.1 h
    obtain ⟨w, u₂, hwatch, hpure⟩ := Effect.bind_eq_ok.1 hwatch
    cases hpure
    obtain ⟨seen, rfl⟩ := Effect.watch_eq_ok hwatch
    obtain ⟨hstage, added, hgains, hadded⟩ := fills_eq_ok h
    refine ⟨hstage, _, (Store.Gains.watched u.store vm.data e _ seen).trans hgains, ?_⟩
    refine List.forall_mem_append.2 ⟨List.forall_mem_singleton.2 ⟨?_, rfl⟩, hadded⟩
    exact .fill e template

/-- Binding the text of a node makes watchers that set it. -/
theorem bindText_eq_ok {source : String} (hstaged : u.stage.documents[vm.document]? = some d)
    (hquiet : u.store.collecting = []) (h : bindText vm n source u = (.ok (), u')) :
    ∃ v d' added, d.render n .text v = (.ok (), d') ∧
      u'.stage.documents[vm.document]? = some d' ∧ u.store.Gains added u'.store ∧
      ∀ w ∈ added, w.duty.At vm n ∧ w.reaction.words = true := by
  unfold bindText at h
  cases hplaceholders : Template.placeholders source with
  | nil =>
    rw [hplaceholders] at h
    obtain ⟨v, d', hrender, hstaged', hgains⟩ := bindValue_eq_ok hstaged hquiet h
    refine ⟨v, d', _, hrender, hstaged', hgains, List.forall_mem_singleton.2 ⟨?_, rfl⟩⟩
    exact .render source nofun
  | cons e es =>
    rw [hplaceholders] at h
    obtain ⟨u₁, text, slots, hwatch, hedit⟩ := bindTemplate_eq_ok h
    obtain ⟨hstage, added, hgains, hadded⟩ := fills_eq_ok hwatch
    rw [← hstage] at hstaged
    obtain ⟨d', hrender, rfl⟩ := edit_eq_ok hedit hstaged
    refine ⟨.string text, d', added, hrender, World.documents_put hstaged d', ?_, hadded⟩
    change u.store.Gains added (u₁.store.trackAll slots)
    rwa [Store.trackAll_of_not_collecting _ (hgains.collecting.trans hquiet)]

end Play

/-! ## Bindings being made -/

/-- A world in which a view model is being made, on data that has been made reactive: some
    outlines are still to be bound. -/
structure Assembled (vm : ViewModel) (template : Document Listener) (s₀ : Store Reaction)
    (u : World Reaction Stage) (d : Document Listener) (os : List Outline) : Prop where
  /-- The data is as it was. -/
  data : s₀.SameData u.store
  /-- There are no other slots. -/
  size : u.store.slots.size = s₀.slots.size
  /-- No watcher collects. -/
  quiet : u.store.collecting = []
  /-- The document is on the stage. -/
  staged : u.stage.documents[vm.document]? = some d
  /-- It is coupled to the watchers. -/
  coupled : Coupled vm u.store.duties d os
  /-- What the watchers have seen is entered. -/
  shown : ∀ w ∈ u.store.watchers.toList, w.ShownIn vm.document d
  /-- The elements that are to be bound are those of the template. -/
  origin : ∀ n ∈ preorderAll os, ∀ e, d.element? n = some e →
    template.element? n = some e ∧ Modelled e.attributes

/-- More has been bound: there are more watchers, and no more elements. -/
structure Furthered (u : World Reaction Stage) (d : Document Listener)
    (u' : World Reaction Stage) (d' : Document Listener) : Prop where
  /-- The watchers are there still. -/
  duties : ∀ q ∈ u.store.duties, q ∈ u'.store.duties
  /-- There are no new elements. -/
  gone : ∀ x, d.element? x = none → d'.element? x = none

theorem Furthered.refl (u : World Reaction Stage) (d : Document Listener) : Furthered u d u d :=
  ⟨fun _ => id, fun _ => id⟩

theorem Furthered.trans {u u' u'' : World Reaction Stage} {d d' d'' : Document Listener}
    (h : Furthered u d u' d') (h' : Furthered u' d' u'' d'') : Furthered u d u'' d'' :=
  ⟨fun q hq => h'.duties q (h.duties q hq), fun x hx => h'.gone x (h.gone x hx)⟩

/-- A node is no element, or the watchers are there that its attributes in the template
    ask for. -/
def Covered (vm : ViewModel) (template : Document Listener) (u : World Reaction Stage)
    (d : Document Listener) (n : NodeId) : Prop :=
  ∀ entry ∈ template.attributes n, Directive.of? entry.1 = some .model →
    d.element? n = none ∨ ⟨vm.data, entry.2, .render vm.document n .model⟩ ∈ u.store.duties

theorem Covered.of_gone {vm : ViewModel} {template : Document Listener}
    {u : World Reaction Stage} {d : Document Listener} {n : NodeId} (h : d.element? n = none) :
    Covered vm template u d n := fun _ _ _ => .inl h

theorem Covered.mono {vm : ViewModel} {template : Document Listener}
    {u u' : World Reaction Stage} {d d' : Document Listener} {n : NodeId}
    (h : Covered vm template u d n) (h' : Furthered u d u' d') : Covered vm template u' d' n :=
  fun entry hentry hmodel => (h entry hentry hmodel).imp (h'.gone n) (h'.duties _)

namespace Assembled

variable {vm : ViewModel} {template : Document Listener} {s₀ : Store Reaction}
  {u u' : World Reaction Stage} {d d' : Document Listener} {os os' rest : List Outline}
  {n : NodeId} {added : List (Watcher Reaction)}

/-- **A node changes** in its place, and watchers of it are made. -/
theorem altered (h : Assembled vm template s₀ u d os) {parent : Option NodeId}
    {children : List NodeId} {content content' : NodeContent}
    {listeners listeners' : List (String × Listener)}
    (hgains : u.store.Gains added u'.store) (hstaged : u'.stage.documents[vm.document]? = some d')
    (hn : d.node? n = some ⟨parent, children, content, listeners⟩)
    (ha : Altered d d' n ⟨parent, children, content', listeners'⟩) (hnot : n ∉ preorderAll os)
    (hkind : content'.kind = content.kind)
    (hleafy : Node.Leafy ⟨parent, children, content', listeners'⟩)
    (hat : ∀ w ∈ added, w.duty.At vm n ∧ content.kind ≠ .document ∧ content.kind ≠ .comment ∧
      (w.reaction.words = true → d.Worded n))
    (hheard : ∀ e, content' = .element e →
      Duty.Heard (u.store.duties ++ added.map Watcher.duty) vm.document n listeners')
    (hshown : ∀ e, content' = .element e → ∀ w ∈ u.store.watchers.toList ++ added,
      w.reaction = .render vm.document n .model → e.value = some (Facet.model.shown w.value)) :
    Assembled vm template s₀ u' d' os ∧ Furthered u d u' d' := by
  have helement : ∀ x, x ≠ n → d'.element? x = d.element? x := fun x hx => by
    rw [Document.element?, Document.element?, ha.elsewhere x hx]
  refine ⟨⟨h.data.trans hgains.data, hgains.size.trans h.size, hgains.collecting.trans h.quiet,
    hstaged, ?_, ?_, fun x hx e he => ?_⟩, fun q hq => ?_, fun x hx => ?_⟩
  · rw [hgains.duties]
    refine h.coupled.altered _ hn ha hnot hkind hleafy (fun q hq => ?_) hheard
    obtain ⟨w, hw, rfl⟩ := List.mem_map.1 hq
    exact hat w hw
  · intro w hw x hmodel text htext
    rw [hgains.watchers] at hw
    by_cases hx : x = n
    · subst hx
      rw [Document.entered?, Document.element?, ha.here, Option.bind_some] at htext
      cases content' with
      | element e =>
        obtain rfl := Option.some.inj htext
        exact hshown e rfl w hw hmodel
      | _ => cases htext
    · rw [Document.entered?, helement x hx] at htext
      rcases List.mem_append.1 hw with hw | hw
      · exact h.shown w hw x hmodel text htext
      · exact absurd ((hat w hw).1.eq_of_render hmodel) hx
  · have hxn : x ≠ n := fun heq => hnot (heq ▸ hx)
    rw [helement x hxn] at he
    exact h.origin x hx e he
  · rw [hgains.duties]
    exact List.mem_append_left _ hq
  · by_cases hxn : x = n
    · subst hxn
      rw [Document.element?, hn, Option.bind_some] at hx
      rw [Document.element?, ha.here, Option.bind_some]
      exact NodeContent.element?_of_kind hkind hx
    · rw [helement x hxn]
      exact hx

/-- **A text is put** below an element, and watchers that set it are made. -/
theorem texted (h : Assembled vm template s₀ u d (os ++ rest))
    (hgains : u.store.Gains added u'.store) (hstaged : u'.stage.documents[vm.document]? = some d')
    (hbears : d.Bears n os) (ht : Texted d d' n os os') (hnot : n ∉ preorderAll (os ++ rest))
    (hat : ∀ w ∈ added, w.duty.At vm n ∧ w.reaction.words = true) :
    Assembled vm template s₀ u' d' (os' ++ rest) ∧ Furthered u d u' d' ∧
      ∀ x ∈ preorderAll os, d'.element? x = none := by
  have hequipped := ht.equipped? hbears
  have helement : ∀ x, d'.element? x = if x ∈ preorderAll os then none else d.element? x :=
    fun x => by
      rw [Document.element?_equipped, hequipped]
      split
      · rfl
      · exact (Document.element?_equipped d x).symm
  refine ⟨⟨h.data.trans hgains.data, hgains.size.trans h.size, hgains.collecting.trans h.quiet,
    hstaged, ?_, ?_, fun x hx e he => ?_⟩, ⟨fun q hq => ?_, fun x hx => ?_⟩, fun x hx => ?_⟩
  · rw [hgains.duties]
    refine h.coupled.texted _ hbears ht hnot fun q hq => ?_
    obtain ⟨w, hw, rfl⟩ := List.mem_map.1 hq
    exact hat w hw
  · intro w hw x hmodel text htext
    rw [Document.entered?, helement] at htext
    split at htext
    · cases htext
    · rw [hgains.watchers] at hw
      rcases List.mem_append.1 hw with hw | hw
      · exact h.shown w hw x hmodel text htext
      · have hwords := (hat w hw).2
        rw [hmodel] at hwords
        cases hwords
  · rw [Outline.preorderAll_append, List.mem_append] at hx
    rcases hx with hx | hx
    · obtain ⟨_, _, _, _, hnode⟩ := Document.kind?_text (ht.leaves x hx)
      rw [Document.element?, hnode] at he
      cases he
    · rw [helement] at he
      split at he
      · cases he
      · refine h.origin x ?_ e he
        rw [Outline.preorderAll_append]
        exact List.mem_append_right _ hx
  · rw [hgains.duties]
    exact List.mem_append_left _ hq
  · rw [helement, hx, ite_self]
  · rw [helement, if_pos hx]

end Assembled

/-! ## Binding an element -/

/-- A world in which an element is being bound: some of its attributes are left, and what
    is below it. -/
structure Underway (vm : ViewModel) (template : Document Listener) (s₀ : Store Reaction)
    (n : NodeId) (entries : List (String × String)) (rest : List Outline)
    (u : World Reaction Stage) (d : Document Listener) (os : List Outline) : Prop extends
    Assembled vm template s₀ u d (os ++ rest) where
  /-- The element is there, with what is below it. -/
  bears : d.Bears n os
  /-- It is not below itself. -/
  apart : n ∉ preorderAll (os ++ rest)
  /-- The value is bound once at most. -/
  once : (Duty.modelsAt u.store.duties vm.document n).length +
    (entries.countP fun entry => Directive.of? entry.1 == some .model) ≤ 1

/-- More of an element has been bound: what is below it is as it was, or is no element any
    more. -/
structure Advanced (u : World Reaction Stage) (d : Document Listener) (os : List Outline)
    (u' : World Reaction Stage) (d' : Document Listener) (os' : List Outline) : Prop extends
    Furthered u d u' d' where
  /-- What is below the element. -/
  below : os' = os ∨ ∀ x ∈ preorderAll os, d'.element? x = none

theorem Advanced.trans {u u' u'' : World Reaction Stage} {d d' d'' : Document Listener}
    {os os' os'' : List Outline} (h : Advanced u d os u' d' os')
    (h' : Advanced u' d' os' u'' d'' os'') : Advanced u d os u'' d'' os'' where
  toFurthered := h.toFurthered.trans h'.toFurthered
  below := by
    rcases h.below with rfl | hgone
    · exact h'.below
    · exact .inr fun x hx => h'.gone x (hgone x hx)

namespace Underway

variable {vm : ViewModel} {template : Document Listener} {s₀ : Store Reaction}
  {u u' : World Reaction Stage} {d d' : Document Listener} {os os' rest : List Outline}
  {n : NodeId} {entry : String × String} {entries : List (String × String)}
  {vid : ViewModelId} {added : List (Watcher Reaction)}

/-- An attribute is left out. -/
theorem skip (h : Underway vm template s₀ n (entry :: entries) rest u d os) :
    Underway vm template s₀ n entries rest u d os :=
  { h with
    once := Nat.le_trans (Nat.add_le_add_left (List.Sublist.countP_le (List.sublist_cons_self _ _)) _)
      h.once }

/-- The element changes in its place, and watchers of it are made. -/
theorem altered (h : Underway vm template s₀ n entries rest u d os) {parent : Option NodeId}
    {children : List NodeId} {e e' : Element} {listeners listeners' : List (String × Listener)}
    (hgains : u.store.Gains added u'.store) (hstaged : u'.stage.documents[vm.document]? = some d')
    (hn : d.node? n = some ⟨parent, children, .element e, listeners⟩)
    (ha : Altered d d' n ⟨parent, children, .element e', listeners'⟩)
    (hat : ∀ w ∈ added, w.duty.At vm n ∧ w.reaction.words = false)
    (hheard : Duty.Heard (u.store.duties ++ added.map Watcher.duty) vm.document n listeners')
    (hshown : ∀ w ∈ u.store.watchers.toList ++ added, w.reaction = .render vm.document n .model →
      e'.value = some (Facet.model.shown w.value)) {entries' : List (String × String)}
    (honce : (Duty.modelsAt u'.store.duties vm.document n).length +
      (entries'.countP fun entry => Directive.of? entry.1 == some .model) ≤ 1) :
    Underway vm template s₀ n entries' rest u' d' os ∧ Advanced u d os u' d' os := by
  obtain ⟨hassembled, hfurthered⟩ := h.toAssembled.altered hgains hstaged hn ha h.apart rfl
    (fun hleaf => nomatch hleaf) (fun w hw => ⟨(hat w hw).1, nofun, nofun, fun hwords =>
      absurd ((hat w hw).2.symm.trans hwords) Bool.false_ne_true⟩)
    (fun _ _ => hheard) (fun _ he => NodeContent.element.inj he ▸ hshown)
  have hchildren : children = os.map Outline.id := by
    rw [← h.bears.children_eq, Document.children_eq hn]
  refine ⟨⟨hassembled, ⟨ha.joined, ha.leafy h.coupled.leafy nofun, ⟨parent, e', listeners', ?_⟩,
    fun o ho => ?_⟩, h.apart, honce⟩, hfurthered, .inl rfl⟩
  · rw [ha.here, hchildren]
  · exact hassembled.coupled.reads o (List.mem_append_left _ ho)

/-- What the watchers of the value have seen is entered in the element. -/
theorem shown_value (h : Underway vm template s₀ n entries rest u d os) {parent : Option NodeId}
    {children : List NodeId} {e : Element} {listeners : List (String × Listener)}
    (hn : d.node? n = some ⟨parent, children, .element e, listeners⟩) :
    ∀ w ∈ u.store.watchers.toList, w.reaction = .render vm.document n .model →
      e.value = some (Facet.model.shown w.value) := fun w hw hmodel => by
  refine h.shown w hw n hmodel e.value ?_
  rw [Document.entered?, Document.element?, hn]
  rfl

/-- The element changes in its place, but for its value; no watcher of it is made. -/
theorem edited (h : Underway vm template s₀ n entries rest u d os)
    {change : Document Listener → Document.Edited Listener} {f : Element → Element}
    (hf : ∀ e, (f e).value = e.value)
    (hchange : ∀ parent children e listeners,
      d.node? n = some ⟨parent, children, .element e, listeners⟩ →
      ∃ d', change d = (.ok (), d') ∧ Altered d d' n ⟨parent, children, .element (f e), listeners⟩)
    (hrun : Play.edit vm.document change u = (.ok (), u')) :
    ∃ d', Underway vm template s₀ n entries rest u' d' os ∧ Advanced u d os u' d' os := by
  obtain ⟨parent, e, listeners, hn⟩ := h.bears.here
  obtain ⟨d', hd', rfl⟩ := Play.edit_eq_ok hrun h.staged
  obtain ⟨d'', hd'', ha⟩ := hchange _ _ _ _ hn
  obtain rfl : d' = d'' := congrArg Prod.snd (hd'.symm.trans hd'')
  have hgains : u.store.Gains [] (u.put vm.document d').store := .refl _
  refine ⟨d', h.altered hgains (World.documents_put h.staged d') hn ha (fun _ => nofun) ?_
    (fun w hw hmodel => ?_) h.once⟩
  · rw [List.map_nil, List.append_nil]
    exact h.coupled.heard n e listeners (Document.equipped?_element hn)
  · rw [List.append_nil] at hw
    rw [hf]
    exact h.shown_value hn w hw hmodel

/-- The text of the element is bound: what was below it is gone. -/
theorem bindText (h : Underway vm template s₀ n (entry :: entries) rest u d os)
    (hrun : Play.bindText vm n entry.2 u = (.ok (), u')) :
    ∃ d' os', Underway vm template s₀ n entries rest u' d' os' ∧ Advanced u d os u' d' os' := by
  obtain ⟨v, d', added, hrender, hstaged, hgains, hat⟩ := Play.bindText_eq_ok h.staged h.quiet hrun
  obtain ⟨d'', os', hd'', ht⟩ := h.bears.setText (Facet.text.shown v)
  obtain rfl : d' = d'' := congrArg Prod.snd (hrender.symm.trans hd'')
  obtain ⟨hassembled, hfurthered, hgone⟩ :=
    h.toAssembled.texted hgains hstaged h.bears ht h.apart hat
  refine ⟨d', os', ⟨hassembled, ht.bears, fun hmem => ?_, ?_⟩, ⟨hfurthered, .inr hgone⟩⟩
  · rw [Outline.preorderAll_append, List.mem_append] at hmem
    rcases hmem with hmem | hmem
    · exact ht.bears.not_mem hmem
    · refine h.apart ?_
      rw [Outline.preorderAll_append]
      exact List.mem_append_right _ hmem
  · have hnone : Duty.modelsAt (added.map Watcher.duty) vm.document n = [] :=
      Duty.modelsAt_eq_nil fun q hq => by
        obtain ⟨w, hw, rfl⟩ := List.mem_map.1 hq
        exact ⟨(hat w hw).1, fun _ => (hat w hw).2⟩
    rw [hgains.duties, Duty.modelsAt_append, hnone, List.append_nil]
    exact h.skip.once

/-- An attribute of the element is bound. -/
theorem bindAttribute (h : Underway vm template s₀ n (entry :: entries) rest u d os)
    {target : String} (hrun : Play.bindValue vm n entry.2 (.attribute target) u = (.ok (), u')) :
    ∃ d', Underway vm template s₀ n entries rest u' d' os ∧ Advanced u d os u' d' os := by
  obtain ⟨parent, e, listeners, hn⟩ := h.bears.here
  have hheard := h.coupled.heard n e listeners (Document.equipped?_element hn)
  have hshown := h.shown_value hn
  obtain ⟨v, d', hrender, hstaged, hgains⟩ := Play.bindValue_eq_ok h.staged h.quiet hrun
  obtain ⟨d'', hd'', ha⟩ := Document.updateElement_altered h.coupled.joined hn .setAttribute
    fun e => { e with attributes := Keyed.put e.attributes target v.display }
  obtain rfl : d' = d'' := congrArg Prod.snd (hrender.symm.trans hd'')
  have hmodels : Duty.modelsAt u'.store.duties vm.document n =
      Duty.modelsAt u.store.duties vm.document n := by
    rw [hgains.duties, Duty.modelsAt_append]
    exact List.append_nil _
  have hattribute : Facet.attribute target ≠ .html := by rintro ⟨⟩
  have hother : Reaction.render vm.document n (.attribute target) ≠
      .render vm.document n .model := by rintro ⟨⟩
  exact ⟨d', h.altered hgains hstaged hn ha
    (List.forall_mem_singleton.2 ⟨.render entry.2 hattribute, rfl⟩)
    (by rwa [Duty.Heard, ← hgains.duties, hmodels])
    (List.forall_mem_append.2 ⟨hshown, List.forall_mem_singleton.2 fun hmodel =>
      absurd hmodel hother⟩)
    (hmodels ▸ h.skip.once)⟩

/-- A value that is still to be bound has not been bound before, and is not bound again. -/
theorem value_unbound (h : Underway vm template s₀ n (entry :: entries) rest u d os)
    (hof : Directive.of? entry.1 = some .model) :
    Duty.modelsAt u.store.duties vm.document n = [] ∧
      (entries.countP fun entry => Directive.of? entry.1 == some .model) = 0 := by
  have honce := h.once
  rw [List.countP_cons_of_pos (by rw [hof]; rfl), ← Nat.add_assoc] at honce
  rw [← List.length_eq_zero_iff]
  exact Nat.add_eq_zero_iff.1 (Nat.le_zero.1 (Nat.le_of_succ_le_succ honce))

/-- The value of the element is bound, in both directions. -/
theorem bindModel (h : Underway vm template s₀ n (entry :: entries) rest u d os)
    (hof : Directive.of? entry.1 = some .model)
    (hrun : Play.bindDirective vid vm n entry.2 .model u = (.ok (), u')) :
    ∃ d', Underway vm template s₀ n entries rest u' d' os ∧ Advanced u d os u' d' os ∧
      ⟨vm.data, entry.2, .render vm.document n .model⟩ ∈ u'.store.duties := by
  obtain ⟨parent, e, listeners, hn⟩ := h.bears.here
  have hheard := h.coupled.heard n e listeners (Document.equipped?_element hn)
  obtain ⟨⟨⟩, u₁, hvalue, hlisten⟩ := Effect.bind_eq_ok.1 hrun
  -- the value is set
  obtain ⟨v, d₁, hrender, hstaged₁, hgains⟩ := Play.bindValue_eq_ok h.staged h.quiet hvalue
  obtain ⟨d'', hd'', ha₁⟩ := Document.updateElement_altered h.coupled.joined hn .setValue
    fun e => { e with value := some (Facet.model.shown v) }
  obtain rfl : d₁ = d'' := congrArg Prod.snd (hrender.symm.trans hd'')
  -- the listener is added
  rw [Effect.mapFault_eq_ok] at hlisten
  obtain ⟨d₂, hd₂, rfl⟩ := Play.edit_eq_ok hlisten hstaged₁
  obtain ⟨d'', hd'', ha₂⟩ := Document.addListener_altered ha₁.joined ha₁.here "input"
    (.assign vm.data entry.2)
  obtain rfl : d₂ = d'' := congrArg Prod.snd (hd₂.symm.trans hd'')
  -- the only watcher of the value is the new one
  obtain ⟨hbefore, hafter⟩ := h.value_unbound hof
  rw [Duty.Heard, hbefore] at hheard
  obtain ⟨-, rfl⟩ := hheard
  let q : Duty := ⟨vm.data, entry.2, .render vm.document n .model⟩
  have hmodels : Duty.modelsAt u₁.store.duties vm.document n = [q] := by
    have hself : q.reaction.models vm.document n = true := Reaction.models_iff.2 rfl
    rw [hgains.duties, Duty.modelsAt_append, hbefore]
    exact List.filter_eq_self.2 (List.forall_mem_singleton.2 hself)
  have hnever : ∀ w ∈ u.store.watchers.toList, w.reaction ≠ .render vm.document n .model := by
    intro w hw hmodel
    have hmem : w.duty ∈ Duty.modelsAt u.store.duties vm.document n :=
      List.mem_filter.2 ⟨List.mem_map_of_mem hw, Reaction.models_iff.2 hmodel⟩
    rw [hbefore] at hmem
    cases hmem
  have hgains₂ : u.store.Gains _ (u₁.put vm.document d₂).store := hgains
  have hfacet : Facet.model ≠ .html := by rintro ⟨⟩
  obtain ⟨hnext, hadvanced⟩ := h.altered hgains₂ (World.documents_put hstaged₁ d₂) hn
    (ha₁.trans ha₂) (List.forall_mem_singleton.2 ⟨.render entry.2 hfacet, rfl⟩)
    (by
      rw [Duty.Heard, ← hgains.duties, hmodels]
      exact ⟨Nat.le_refl 1, rfl⟩)
    (List.forall_mem_append.2 ⟨fun w hw hmodel => absurd hmodel (hnever w hw),
      List.forall_mem_singleton.2 fun _ => rfl⟩)
    (by
      change (Duty.modelsAt u₁.store.duties vm.document n).length + _ ≤ 1
      rw [hmodels, hafter]
      exact Nat.le_refl 1)
  refine ⟨d₂, hnext, hadvanced, ?_⟩
  have hmem : q ∈ Duty.modelsAt u₁.store.duties vm.document n := hmodels ▸ List.mem_singleton_self q
  exact (List.mem_filter.1 hmem).1

/-- A directive is bound. -/
theorem bindDirective (h : Underway vm template s₀ n (entry :: entries) rest u d os)
    {directive : Directive} (hof : Directive.of? entry.1 = some directive)
    (hbare : Directive.Bare (some directive))
    (hrun : Play.bindDirective vid vm n entry.2 directive u = (.ok (), u')) :
    ∃ d' os', Underway vm template s₀ n entries rest u' d' os' ∧ Advanced u d os u' d' os' ∧
      (directive = .model →
        ⟨vm.data, entry.2, .render vm.document n .model⟩ ∈ u'.store.duties) := by
  cases directive with
  | html => exact absurd hbare id
  | on eventType => exact absurd hbare id
  | text =>
    obtain ⟨d', os', hnext, hadvanced⟩ := h.bindText hrun
    exact ⟨d', os', hnext, hadvanced, by rintro ⟨⟩⟩
  | bind target =>
    obtain ⟨d', hnext, hadvanced⟩ := h.bindAttribute hrun
    exact ⟨d', os, hnext, hadvanced, by rintro ⟨⟩⟩
  | model =>
    obtain ⟨d', hnext, hadvanced, hduty⟩ := h.bindModel hof hrun
    exact ⟨d', os, hnext, hadvanced, fun _ => hduty⟩

/-- An attribute is bound, and dropped if it is a directive. -/
theorem bindEntry (h : Underway vm template s₀ n (entry :: entries) rest u d os)
    (hbare : Directive.Bare (Directive.of? entry.1))
    (hrun : Play.compileAttribute vid vm n entry u = (.ok (), u')) :
    ∃ d' os', Underway vm template s₀ n entries rest u' d' os' ∧ Advanced u d os u' d' os' ∧
      (Directive.of? entry.1 = some .model →
        ⟨vm.data, entry.2, .render vm.document n .model⟩ ∈ u'.store.duties) := by
  obtain ⟨hparse, rfl⟩ | ⟨directive, u₁, hparse, hbind, herase⟩ :=
    Play.compileAttribute_eq_ok hrun
  · rw [Directive.of?_of_parse hparse]
    exact ⟨d, os, h.skip, ⟨.refl u' d, .inl rfl⟩, by rintro ⟨⟩⟩
  · have hof := Directive.of?_of_parse hparse
    rw [hof] at hbare ⊢
    obtain ⟨d₁, os₁, h₁, hadvanced₁, hduty⟩ := h.bindDirective hof hbare hbind
    obtain ⟨d₂, h₂, hadvanced₂⟩ := h₁.edited (f := fun e =>
        { e with attributes := Keyed.erase e.attributes entry.1 }) (fun _ => rfl)
      (fun _ _ _ _ hn => Document.updateElement_altered h₁.coupled.joined hn _ _) herase
    exact ⟨d₂, os₁, h₂, hadvanced₁.trans hadvanced₂, fun hmodel =>
      hadvanced₂.duties _ (hduty (Option.some.inj hmodel))⟩

/-- The attributes of an element are bound, one after the other. -/
theorem bindEntries : ∀ {entries : List (String × String)} {u : World Reaction Stage}
    {d : Document Listener} {os : List Outline},
    Underway vm template s₀ n entries rest u d os →
    (∀ entry ∈ entries, Directive.Bare (Directive.of? entry.1)) →
    each (Play.compileAttribute vid vm n) entries u = (.ok (), u') →
    ∃ d' os', Underway vm template s₀ n [] rest u' d' os' ∧ Advanced u d os u' d' os' ∧
      ∀ entry ∈ entries, Directive.of? entry.1 = some .model →
        ⟨vm.data, entry.2, .render vm.document n .model⟩ ∈ u'.store.duties
  | [], u, d, os, h, _, hrun => by
    cases hrun
    exact ⟨d, os, h, ⟨.refl _ d, .inl rfl⟩, fun _ => nofun⟩
  | entry :: entries, u, d, os, h, hbare, hrun => by
    obtain ⟨hfirst, hbare⟩ := List.forall_mem_cons.1 hbare
    obtain ⟨u₁, hrun₁, hrun⟩ := Effect.each_cons_eq_ok.1 hrun
    obtain ⟨d₁, os₁, h₁, hadvanced₁, hduty⟩ := h.bindEntry hfirst hrun₁
    obtain ⟨d₂, os₂, h₂, hadvanced₂, hduties⟩ := bindEntries h₁ hbare hrun
    exact ⟨d₂, os₂, h₂, hadvanced₁.trans hadvanced₂, List.forall_mem_cons.2
      ⟨fun hmodel => hadvanced₂.duties _ (hduty hmodel), hduties⟩⟩

end Underway

/-! ## Binding nodes and what is below them -/

namespace Assembled

variable {vm : ViewModel} {template : Document Listener} {s₀ : Store Reaction}
  {u u' : World Reaction Stage} {d : Document Listener} {rest children : List Outline}
  {n : NodeId} {vid : ViewModelId} {content : Option NodeContent}

/-- What is below a node, and the other outlines, are to be bound. -/
theorem opened (h : Assembled vm template s₀ u d (.node n content children :: rest)) :
    Assembled vm template s₀ u d (children ++ rest) :=
  { h with
    coupled := h.coupled.opened.1
    origin := fun x hx => h.origin x (by
      rw [preorderAll, Outline.preorder, List.cons_append, ← Outline.preorderAll_append]
      exact List.mem_cons_of_mem n hx) }

/-- An element that is to be bound has no duties yet. -/
theorem modelsAt_eq_nil (h : Assembled vm template s₀ u d (.node n content children :: rest))
    {entry : Element × List (String × Listener)} (hn : d.equipped? n = some entry) :
    Duty.modelsAt u.store.duties vm.document n = [] := by
  refine List.filter_eq_nil_iff.2 fun q hq hmodels => ?_
  obtain ⟨x, hat⟩ := h.coupled.duties q hq
  obtain rfl := hat.eq_of_render (Reaction.models_iff.1 hmodels)
  have hnone := h.coupled.pending q hq n hat List.mem_cons_self
  rw [hn] at hnone
  cases hnone

/-- A node that is no element needs no binding. -/
theorem compileNode_other (h : Assembled vm template s₀ u d (.node n content children :: rest))
    {parent : Option NodeId} {kids : List NodeId} {other : NodeContent}
    {listeners : List (String × Listener)} (hnode : d.node? n = some ⟨parent, kids, other, listeners⟩)
    (hkids : kids = children.map Outline.id) (hother : other.kind ≠ .element) :
    ∃ d' os', Assembled vm template s₀ u d' (os' ++ rest) ∧ d'.children n = os'.map Outline.id ∧
      Advanced u d children u d' os' ∧ Covered vm template u d' n := by
  refine ⟨d, children, h.opened, (Document.children_eq hnode).trans hkids, ⟨.refl _ d, .inl rfl⟩,
    .of_gone ?_⟩
  rw [Document.element?, hnode, Option.bind_some]
  cases other with
  | element e => exact absurd rfl hother
  | _ => rfl

/-- An element is bound by its attributes. -/
theorem compileNode_element
    (h : Assembled vm template s₀ u d (.node n content children :: rest))
    {parent : Option NodeId} {e : Element} {listeners : List (String × Listener)}
    (hnode : d.node? n = some ⟨parent, children.map Outline.id, .element e, listeners⟩)
    (hrun : Play.compileNode vid vm n u = (.ok (), u')) :
    ∃ d' os', Assembled vm template s₀ u' d' (os' ++ rest) ∧ d'.children n = os'.map Outline.id ∧
      Advanced u d children u' d' os' ∧ Covered vm template u' d' n := by
  obtain ⟨hcoupled, hnot⟩ := h.coupled.opened
  have hequipped := Document.equipped?_element hnode
  have helement : d.element? n = some e := by rw [Document.element?_equipped, hequipped]; rfl
  obtain ⟨htemplate, hmodelled⟩ := h.origin n List.mem_cons_self e helement
  rw [Play.compileNode_element h.staged hnode] at hrun
  have hstart : Underway vm template s₀ n e.attributes rest u d children := by
    refine ⟨h.opened, ⟨hcoupled.joined, hcoupled.leafy, ⟨parent, e, listeners, hnode⟩, fun o ho =>
      hcoupled.reads o (List.mem_append_left _ ho)⟩, hnot, ?_⟩
    rw [h.modelsAt_eq_nil hequipped, List.length_nil, Nat.zero_add]
    exact hmodelled.once
  obtain ⟨d', os', h', hadvanced, hduties⟩ := hstart.bindEntries hmodelled.bare hrun
  refine ⟨d', os', h'.toAssembled, h'.bears.children_eq, hadvanced, fun entry hentry hmodel => ?_⟩
  rw [Document.attributes, htemplate] at hentry
  exact .inr (hduties entry hentry hmodel)

/-- A text with placeholders is bound. -/
theorem compileNode_text (h : Assembled vm template s₀ u d (.node n content [] :: rest))
    {parent : Option NodeId} {s : String} {listeners : List (String × Listener)}
    (hnode : d.node? n = some ⟨parent, [], .text s, listeners⟩)
    (hrun : Play.bindText vm n s u = (.ok (), u')) :
    ∃ d' os', Assembled vm template s₀ u' d' (os' ++ rest) ∧ d'.children n = os'.map Outline.id ∧
      Advanced u d [] u' d' os' ∧ Covered vm template u' d' n := by
  obtain ⟨hcoupled, hnot⟩ := h.coupled.opened
  have helement : ∀ t e, NodeContent.text t ≠ .element e := fun _ _ => by rintro ⟨⟩
  have hkind : NodeKind.text ≠ .document ∧ NodeKind.text ≠ .comment := by decide
  obtain ⟨v, d', added, hrender, hstaged, hgains, hat⟩ :=
    Play.bindText_eq_ok h.staged h.quiet hrun
  obtain ⟨d'', hd'', ha⟩ := Document.setText_altered hcoupled.joined hnode (Facet.text.shown v)
  obtain rfl : d' = d'' := congrArg Prod.snd (hrender.symm.trans hd'')
  have hleaf := hcoupled.leafy n _ hnode rfl
  have hworded : d.Worded n := fun c hc => by
    rw [Document.children_eq hnode] at hc
    cases hc
  obtain ⟨h', hfurthered⟩ := h.opened.altered hgains hstaged hnode ha hnot rfl (fun _ => hleaf)
    (fun w hw => ⟨(hat w hw).1, hkind.1, hkind.2, fun _ => hworded⟩)
    (fun e he => absurd he (helement _ e)) (fun e he => absurd he (helement _ e))
  refine ⟨d', [], h', Document.children_eq ha.here, ⟨hfurthered, .inl rfl⟩, .of_gone ?_⟩
  rw [Document.element?, ha.here]
  rfl

/-- **A node is bound** by itself. -/
theorem compileNode (h : Assembled vm template s₀ u d (.node n content children :: rest))
    (hrun : Play.compileNode vid vm n u = (.ok (), u')) :
    ∃ d' os', Assembled vm template s₀ u' d' (os' ++ rest) ∧
      d'.children n = os'.map Outline.id ∧ Advanced u d children u' d' os' ∧
      Covered vm template u' d' n := by
  obtain @⟨_, parent, content, _, listeners, hnode, -⟩ := h.coupled.reads _ List.mem_cons_self
  cases content with
  | document =>
    have hkind : NodeKind.document ≠ .element ∧ NodeKind.document ≠ .text := by decide
    rw [Play.compileNode_other h.staged hnode hkind.1 hkind.2] at hrun
    cases hrun
    exact h.compileNode_other hnode rfl hkind.1
  | comment s =>
    have hkind : NodeKind.comment ≠ .element ∧ NodeKind.comment ≠ .text := by decide
    rw [Play.compileNode_other h.staged hnode hkind.1 hkind.2] at hrun
    cases hrun
    exact h.compileNode_other hnode rfl hkind.1
  | element e => exact h.compileNode_element hnode hrun
  | text s =>
    have hkind : NodeKind.text ≠ .element := by decide
    obtain rfl : children = [] := List.map_eq_nil_iff.1 (h.coupled.leafy n _ hnode rfl).1
    rw [Play.compileNode_text h.staged hnode] at hrun
    split at hrun
    · exact h.compileNode_text hnode hrun
    · cases hrun
      exact h.compileNode_other hnode rfl hkind

end Assembled

/-- Binding nodes and what is below them, at most so deep, covers them. -/
def Assembling (vm : ViewModel) (vid : ViewModelId) (template : Document Listener)
    (s₀ : Store Reaction) (fuel : Nat) (os : List Outline) : Prop :=
  ∀ ⦃rest : List Outline⦄ ⦃d : Document Listener⦄ ⦃u u' : World Reaction Stage⦄,
    Assembled vm template s₀ u d (os ++ rest) →
    each (fun child => do Play.compileNode vid vm child; Play.compile vid vm fuel child)
        (os.map Outline.id) u = (.ok (), u') →
    ∃ d', Assembled vm template s₀ u' d' rest ∧ Furthered u d u' d' ∧
      ∀ n ∈ preorderAll os, Covered vm template u' d' n

namespace Assembling

variable {vm : ViewModel} {vid : ViewModelId} {template : Document Listener}
  {s₀ : Store Reaction} {fuel : Nat}

theorem nil : Assembling vm vid template s₀ fuel [] := by
  intro rest d u u' h hrun
  cases hrun
  exact ⟨d, h, .refl u d, fun _ => nofun⟩

/-- A node and what is below it, and then the others. -/
theorem cons (hbelow : ∀ os, Assembling vm vid template s₀ fuel os) {o : Outline}
    {os : List Outline} (hrest : Assembling vm vid template s₀ (fuel + 1) os) :
    Assembling vm vid template s₀ (fuel + 1) (o :: os) := by
  intro rest d u u' h hrun
  obtain ⟨u₂, hboth, hothers⟩ := Effect.each_cons_eq_ok.1 hrun
  obtain ⟨⟨⟩, u₁, hself, hcompile⟩ := Effect.bind_eq_ok.1 hboth
  obtain ⟨n, content, children⟩ := o
  -- the node itself
  obtain ⟨d₁, os₁, h₁, hchildren₁, hadvanced, hcovered⟩ := h.compileNode hself
  -- what is below it
  obtain ⟨fuel', hfuel, heach⟩ := Play.compile_eq_ok h₁.staged hcompile
  obtain rfl := Nat.succ.inj hfuel
  rw [Outline.id, hchildren₁] at heach
  obtain ⟨d₂, h₂, hfurthered₂, hcovered₂⟩ := hbelow os₁ h₁ heach
  -- the other nodes
  obtain ⟨d₃, h₃, hfurthered₃, hcovered₃⟩ := hrest h₂ hothers
  refine ⟨d₃, h₃, hadvanced.toFurthered.trans (hfurthered₂.trans hfurthered₃), fun x hx => ?_⟩
  rw [preorderAll, Outline.preorder, List.cons_append, List.mem_cons, List.mem_append] at hx
  rcases hx with rfl | hx | hx
  · exact (hcovered.mono hfurthered₂).mono hfurthered₃
  · rcases hadvanced.below with rfl | hgone
    · exact (hcovered₂ x hx).mono hfurthered₃
    · exact .of_gone (hfurthered₃.gone x (hfurthered₂.gone x (hgone x hx)))
  · exact hcovered₃ x hx

end Assembling

/-- **Binding nodes and what is below them** covers them. -/
theorem Play.compile_assembles (vm : ViewModel) (vid : ViewModelId) (template : Document Listener)
    (s₀ : Store Reaction) : ∀ (fuel : Nat) (os : List Outline),
    Assembling vm vid template s₀ fuel os :=
  compile_induction (fun _ _ hstuck _ _ u u' _ hrun => absurd hrun (hstuck u u'))
    (fun _ => .nil) fun _ _ _ hbelow hrest => .cons hbelow hrest

/-! ## Making a view model -/

/-- Data of any kind is made reactive as a mapping is. -/
theorem Store.observeMapping_eq {R : Type} (s : Store R) (j : Json) :
    ∃ members, s.observeMapping j = s.observeMapping (.object members) := by
  cases j with
  | object members => exact ⟨members, rfl⟩
  | _ => exact ⟨[], rfl⟩

/-- Making data reactive makes no watcher. -/
theorem Store.observeMapping_watchers {R : Type} (s : Store R) (j : Json) :
    (s.observeMapping j).2.collecting = s.collecting ∧
      (s.observeMapping j).2.watchers = s.watchers := by
  obtain ⟨members, hmembers⟩ := s.observeMapping_eq j
  rw [hmembers]
  exact observeMembers_keeps
    (P := fun t : Store R => t.collecting = s.collecting ∧ t.watchers = s.watchers)
    (fun _ _ h => h) (fun _ _ h => h) members ⟨rfl, rfl⟩

namespace Play

variable {markup : String} {options : Options Script} {u u' : World Reaction Stage} {fuel : Nat}
  {vid : ViewModelId}

/-- A document of markup is coupled to no duties. -/
theorem coupled_parse {vm : ViewModel} {os : List Outline}
    (hreads : ∀ o ∈ os, (Document.parse markup : Document Listener).Reads o)
    (hnodup : (preorderAll os).Nodup) : Coupled vm [] (.parse markup) os := by
  have hplanted : (Document.parse markup : Document Listener).Planted Unrepeated :=
    Document.planted_parse markup
  refine ⟨hplanted.toJoined, Document.leafy_ofForest _, hreads, hnodup, fun _ => nofun,
    fun _ => nofun, fun _ => nofun, fun _ => nofun, fun x e listeners hx => ?_⟩
  obtain ⟨parent, children, hnode⟩ := Document.equipped?_eq_some hx
  obtain rfl : listeners = [] := (hplanted.nodes x _ hnode).listeners
  exact ⟨Nat.zero_le 1, rfl⟩

/-- Before anything is bound, outlines of a document of markup can be bound. -/
theorem making_assembled (hdocument : u.stage.documents[u.stage.document]? = some (.parse markup))
    (hwatchers : u.store.watchers = #[]) (hquiet : u.store.collecting = []) {os : List Outline}
    (hreads : ∀ o ∈ os, (Document.parse markup : Document Listener).Reads o)
    (hnodup : (preorderAll os).Nodup) (hevery : Outline.EveryOf Modelled os) :
    Assembled (u.viewModel options) (.parse markup) (u.making options).store (u.making options)
      (.parse markup) os := by
  obtain ⟨hcollecting, hnone⟩ := u.store.observeMapping_watchers options.data
  have hempty : (u.making options).store.watchers = #[] := hnone.trans hwatchers
  refine ⟨.refl _, rfl, hcollecting.trans hquiet, hdocument, ?_, fun w hw => ?_, ?_⟩
  · rw [Store.duties, hempty]
    exact coupled_parse hreads hnodup
  · rw [hempty] at hw
    cases hw
  · intro n hn e he
    obtain ⟨o, ho, hno⟩ := mem_preorderAll.1 hn
    exact ⟨he, Outline.Every.attributes (hreads o ho) (Outline.everyOf_iff.1 hevery o ho) n hno
      e he⟩

/-- **A template has been mounted**: its document is coupled to the watchers, and every
    element of it that is there has the watchers that it asks for. -/
theorem mount_assembles (hdocument : u.stage.documents[u.stage.document]? = some (.parse markup))
    (hwatchers : u.store.watchers = #[]) (hquiet : u.store.collecting = [])
    (hdirectives : Outline.EveryOf Modelled
      ((Document.parse markup : Document Listener).template options.el))
    (hmount : mount fuel options u = (.ok vid, u')) :
    ∃ d, Assembled (u.viewModel options) (.parse markup) (u.making options).store u' d [] ∧
      ∀ n ∈ preorderAll ((Document.parse markup : Document Listener).template options.el),
        Covered (u.viewModel options) (.parse markup) u' d n := by
  obtain ⟨rfl, depth, heach⟩ := mount_binds hdocument hmount
  obtain ⟨hfresh, hnodup, -⟩ := Document.template_fresh markup options.el
  have hstart : Assembled (u.viewModel options) (.parse markup) (u.making options).store
      (u.making options) (.parse markup)
      ((Document.parse markup : Document Listener).template options.el ++ []) := by
    rw [List.append_nil]
    exact making_assembled hdocument hwatchers hquiet (fun o ho => (hfresh o ho).reads) hnodup
      hdirectives
  obtain ⟨d, hassembled, -, hcovered⟩ := compile_assembles _ _ _ _ depth _ hstart heach
  exact ⟨d, hassembled, hcovered⟩

end Play

end DataBinding
