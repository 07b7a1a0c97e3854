/-
  What mounting registers.

  Mounting a template that binds no text and no markup of elements makes a watcher for
  each expression of the template, in document order, and adds the listeners that its
  attributes ask for.

  * `Listener.ofAttribute`: the listener that an attribute asks for;
  * `compileNode_element_registers`, `compileNode_text_registers`: what binding one node
    registers;
  * `compile_registers`: what binding everything below a node registers, by induction on
    the bound on the depth and along the children;
  * `mount_registers`: the subscribers of every slot, and the number of listeners of
    every node, after a view model has been made.
-/
import DataBinding.Proofs.View.Consistency
import DataBinding.Proofs.View.Enlisting

namespace DataBinding

open Effect (mapFault each)
open Outline (preorder preorderAll mem_preorder mem_preorderAll)
open Document (Altered)

/-! ## What attributes ask for -/

/-- Attributes that bind neither the text nor the markup of their element. -/
def Superficial (attributes : List (String × String)) : Prop :=
  ∀ entry ∈ attributes, Directive.of? entry.1 ≠ some .text ∧ Directive.of? entry.1 ≠ some .html

instance : DecidablePred Superficial := fun attributes =>
  inferInstanceAs (Decidable (∀ entry ∈ attributes, _))

/-- The listener that an attribute asks for, with its event type. -/
def Listener.ofAttribute (id : ViewModelId) (vm : ViewModel) (entry : String × String) :
    Option (String × Listener) :=
  match Directive.of? entry.1 with
  | some .model => some ("input", .assign vm.data entry.2)
  | some (.on eventType) =>
    (Keyed.get? vm.methods entry.2).map fun body => (eventType, .method id body)
  | _ => none

/-- The listeners that the attributes of a node ask for. -/
def NodeContent.heard (id : ViewModelId) (vm : ViewModel) : NodeContent → List (String × Listener)
  | .element e => e.attributes.filterMap (Listener.ofAttribute id vm)
  | .document | .text _ | .comment _ => []

/-- The bindings that a node asks for itself. -/
def NodeContent.bindings (n : NodeId) : NodeContent → List Binding
  | .element e => Binding.ofAttributes n e.attributes
  | .text s => if Template.hasPlaceholder s then [⟨n, .text, s⟩] else []
  | .document | .comment _ => []

/-! ## Binding one node -/

section

variable {u u' : World Reaction Stage} {vm : ViewModel} {id : ViewModelId}
  {d : Document Listener} {n : NodeId}

theorem Effect.watch_eq_ok {root : MappingId} {e : String} {label : Reaction} {w : WatcherId}
    (h : watch root e label u = (.ok w, u')) :
    ∃ v, u' = { u with store := u.store.watched root e label v } := by
  cases hresolve : (u.store.resolve root e).2 with
  | error err =>
    rw [watch_of_error hresolve] at h
    cases h
  | ok v =>
    rw [watch_of_ok hresolve] at h
    cases h
    exact ⟨v, rfl⟩

theorem Effect.getPath_store {root : MappingId} {e : String} {result : Except Stop Value}
    (h : getPath root e u = (result, u')) :
    ∃ slots, u' = { u with store := u.store.trackAll slots } := by
  rw [getPath_apply] at h
  cases h
  exact ⟨_, rfl⟩

theorem Effect.content_store {root : MappingId} {text filled : String}
    (h : content root text u = (.ok filled, u')) :
    ∃ slots, u' = { u with store := u.store.trackAll slots } := by
  obtain ⟨slots, hcontent⟩ := content_tracks root text u
  exact ⟨slots, congrArg Prod.snd (h.symm.trans hcontent)⟩

/-- Rendering an expression makes its watcher. -/
theorem Play.bindValue_enlists {e : String} {facet : Facet}
    (hstaged : u.stage.documents[vm.document]? = some d)
    (hcollecting : ∀ w ∈ u.store.collecting, w < u.store.watchers.size)
    (h : bindValue vm n e facet u = (.ok (), u')) :
    ∃ v d', d.render n facet v = (.ok (), d') ∧
      u'.stage.documents[vm.document]? = some d' ∧
      u.store.Enlists vm.data [e] u'.store := by
  rw [bindValue, Effect.mapFault_eq_ok] at h
  obtain ⟨w, u₁, hwatch, h⟩ := Effect.bind_eq_ok.1 h
  obtain ⟨v, u₂, hget, h⟩ := Effect.bind_eq_ok.1 h
  obtain ⟨seen, rfl⟩ := Effect.watch_eq_ok hwatch
  obtain ⟨slots, rfl⟩ := Effect.getPath_store hget
  obtain ⟨d', hrender, rfl⟩ := edit_eq_ok h hstaged
  have hone := Store.Enlists.watched u.store vm.data e (.render vm.document n facet) seen
  refine ⟨v, d', hrender, World.documents_put hstaged d', ?_⟩
  refine hone.trans (.trackAll _ vm.data slots fun w hw => ?_) hcollecting
  rw [hone.length]
  exact Nat.lt_succ_of_lt (hcollecting w hw)

/-- The watchers of the placeholders of a text are made. -/
theorem Play.watchers_enlist {template : String} : ∀ {es : List String}
    {u : World Reaction Stage}, (∀ w ∈ u.store.collecting, w < u.store.watchers.size) →
    each (fun e => do
        let _ ← Effect.watch vm.data e (.fill vm.document n vm.data template)) es u = (.ok (), u') →
      u'.stage = u.stage ∧ u.store.Enlists vm.data es u'.store
  | [], u, _, h => by
    cases h
    exact ⟨rfl, .refl _ _⟩
  | e :: es, u, hcollecting, h => by
    obtain ⟨u₁, hwatch, h⟩ := Effect.each_cons_eq_ok.1 h
    obtain ⟨w, u₂, hwatch, hpure⟩ := Effect.bind_eq_ok.1 hwatch
    cases hpure
    obtain ⟨seen, rfl⟩ := Effect.watch_eq_ok hwatch
    have hone := Store.Enlists.watched u.store vm.data e
      (.fill vm.document n vm.data template) seen
    obtain ⟨hstage, hrest⟩ := watchers_enlist (fun w hw => by
      rw [hone.length]
      exact Nat.lt_succ_of_lt (hcollecting w hw)) h
    exact ⟨hstage, hone.trans hrest hcollecting⟩

/-- A text with placeholders has been rendered once their watchers are made. -/
theorem Play.bindTemplate_eq_ok {template : String} {es : List String}
    (h : bindTemplate vm n template es u = (.ok (), u')) :
    ∃ u₁ text slots,
      each (fun e => do
        let _ ← Effect.watch vm.data e (.fill vm.document n vm.data template)) es u =
          (.ok (), u₁) ∧
      edit vm.document (fun d => d.render n .text (.string text))
        { u₁ with store := u₁.store.trackAll slots } = (.ok (), u') := by
  rw [bindTemplate, Effect.mapFault_eq_ok] at h
  obtain ⟨⟨⟩, u₁, hwatch, h⟩ := Effect.bind_eq_ok.1 h
  obtain ⟨text, u₂, hcontent, h⟩ := Effect.bind_eq_ok.1 h
  obtain ⟨slots, rfl⟩ := Effect.content_store hcontent
  exact ⟨u₁, text, slots, hwatch, h⟩

/-- Binding the text of a node makes the watchers of its expressions. -/
theorem Play.bindText_enlists {source : String}
    (hstaged : u.stage.documents[vm.document]? = some d)
    (hcollecting : ∀ w ∈ u.store.collecting, w < u.store.watchers.size)
    (h : bindText vm n source u = (.ok (), u')) :
    ∃ v d', d.render n .text v = (.ok (), d') ∧
      u'.stage.documents[vm.document]? = some d' ∧
      u.store.Enlists vm.data (Binding.expressions ⟨n, .text, source⟩) u'.store := by
  unfold bindText at h
  unfold Binding.expressions Binding.templated
  cases hplaceholders : Template.placeholders source with
  | nil =>
    rw [hplaceholders] at h
    exact bindValue_enlists hstaged hcollecting h
  | cons e es =>
    rw [hplaceholders] at h
    obtain ⟨u₁, text, slots, hwatch, hedit⟩ := bindTemplate_eq_ok h
    obtain ⟨hstage, hwatchers⟩ := watchers_enlist hcollecting hwatch
    rw [← hstage] at hstaged
    obtain ⟨d', hrender, rfl⟩ := edit_eq_ok hedit hstaged
    refine ⟨.string text, d', hrender, World.documents_put hstaged d', ?_⟩
    have hall := hwatchers.trans (.trackAll _ vm.data slots fun w hw => ?_) hcollecting
    · rw [List.append_nil] at hall
      exact hall
    · rw [hwatchers.collecting] at hw
      rw [hwatchers.length]
      exact Nat.lt_add_right _ (hcollecting w hw)

end

/-- What a step of mounting has registered: the watchers of expressions, and listeners at
    a node, which is another one now; no other node has changed. -/
structure Registers (vm : ViewModel) (n : NodeId) (es : List String) (node : Node Listener)
    (d : Document Listener) (u : World Reaction Stage) (d' : Document Listener)
    (u' : World Reaction Stage) : Prop where
  /-- The watchers are made. -/
  enlists : u.store.Enlists vm.data es u'.store
  /-- The document is on the stage. -/
  staged : u'.stage.documents[vm.document]? = some d'
  /-- The node is another one. -/
  altered : Altered d d' n node

namespace Registers

variable {u u' u'' : World Reaction Stage} {vm : ViewModel} {id : ViewModelId}
  {d d' d'' : Document Listener} {n : NodeId} {es es' : List String} {node node' : Node Listener}

theorem trans (h : Registers vm n es node d u d' u') (h' : Registers vm n es' node' d' u' d'' u'')
    (hcollecting : ∀ w ∈ u.store.collecting, w < u.store.watchers.size) :
    Registers vm n (es ++ es') node' d u d'' u'' where
  enlists := h.enlists.trans h'.enlists hcollecting
  staged := h'.staged
  altered := h.altered.trans h'.altered

/-- The watchers that collect are there later, too. -/
theorem collecting (h : Registers vm n es node d u d' u')
    (hcollecting : ∀ w ∈ u.store.collecting, w < u.store.watchers.size) :
    ∀ w ∈ u'.store.collecting, w < u'.store.watchers.size := by
  rw [h.enlists.collecting, h.enlists.length]
  exact fun w hw => Nat.lt_add_right _ (hcollecting w hw)

/-- A change of the document alone. -/
theorem edit {change : Document Listener → Document.Edited Listener}
    (hstaged : u.stage.documents[vm.document]? = some d)
    (hchange : ∃ d', change d = (.ok (), d') ∧ Altered d d' n node)
    (h : Play.edit vm.document change u = (.ok (), u')) :
    ∃ d', Registers vm n [] node d u d' u' := by
  obtain ⟨d', hd', rfl⟩ := Play.edit_eq_ok h hstaged
  obtain ⟨d'', hd'', haltered⟩ := hchange
  obtain rfl : d' = d'' := congrArg Prod.snd (hd'.symm.trans hd'')
  exact ⟨d', .refl _ _, World.documents_put hstaged d', haltered⟩

/-- A binding of a node that is rendered by one change. -/
theorem rendered {facet : Facet} {v : Value} (henlists : u.store.Enlists vm.data es u'.store)
    (hstaged : u'.stage.documents[vm.document]? = some d')
    (hrender : d.render n facet v = (.ok (), d'))
    (hchange : ∃ d', d.render n facet v = (.ok (), d') ∧ Altered d d' n node) :
    Registers vm n es node d u d' u' := by
  obtain ⟨d'', hd'', haltered⟩ := hchange
  obtain rfl : d' = d'' := congrArg Prod.snd (hrender.symm.trans hd'')
  exact ⟨henlists, hstaged, haltered⟩

variable {parent : Option NodeId} {children : List NodeId} {e : Element}
  {listeners : List (String × Listener)}

/-- A directive makes the watcher and adds the listener that it asks for. -/
theorem bindDirective (hstaged : u.stage.documents[vm.document]? = some d)
    (hcollecting : ∀ w ∈ u.store.collecting, w < u.store.watchers.size) (hjoined : d.Joined)
    (hnode : d.node? n = some ⟨parent, children, .element e, listeners⟩)
    {entry : String × String} {directive : Directive}
    (hof : Directive.of? entry.1 = some directive) (htext : directive ≠ .text)
    (hhtml : directive ≠ .html)
    (h : Play.bindDirective id vm n entry.2 directive u = (.ok (), u')) :
    ∃ d' e', Registers vm n ((Binding.ofAttribute n entry).toList.flatMap Binding.expressions)
      ⟨parent, children, .element e', listeners ++ (Listener.ofAttribute id vm entry).toList⟩
      d u d' u' := by
  unfold Binding.ofAttribute Listener.ofAttribute
  rw [hof]
  cases directive with
  | text => exact absurd rfl htext
  | html => exact absurd rfl hhtml
  | bind target =>
    obtain ⟨v, d', hrender, hstaged', henlists⟩ := Play.bindValue_enlists hstaged hcollecting h
    have hset := rendered henlists hstaged' hrender
      (Document.updateElement_altered hjoined hnode _ _)
    refine ⟨d', { e with attributes := Keyed.put e.attributes target v.display }, ?_⟩
    rw [Option.toList_none, List.append_nil]
    exact hset
  | model =>
    obtain ⟨⟨⟩, u₁, hvalue, hlisten⟩ := Effect.bind_eq_ok.1 h
    obtain ⟨v, d₁, hrender, hstaged₁, henlists⟩ :=
      Play.bindValue_enlists hstaged hcollecting hvalue
    have hvalue := rendered henlists hstaged₁ hrender
      (Document.updateElement_altered hjoined hnode _ _)
    rw [Effect.mapFault_eq_ok] at hlisten
    obtain ⟨d₂, hlistens⟩ := edit hstaged₁
      (Document.addListener_altered hvalue.altered.joined hvalue.altered.here _ _) hlisten
    exact ⟨d₂, _, hvalue.trans hlistens hcollecting⟩
  | on eventType =>
    dsimp only [Play.bindDirective] at h ⊢
    cases hmethod : Keyed.get? vm.methods entry.2 with
    | none =>
      rw [hmethod] at h
      cases h
      refine ⟨d, e, .refl _ _, hstaged, hjoined, ?_, fun _ _ => rfl⟩
      rw [hnode]
      exact congrArg some (congrArg _ (List.append_nil _).symm)
    | some body =>
      rw [hmethod] at h
      obtain ⟨d', hlistens⟩ := edit hstaged
        (Document.addListener_altered hjoined hnode eventType (.method id body))
        (Effect.mapFault_eq_ok.1 h)
      exact ⟨d', e, hlistens⟩

/-- An attribute is bound, and dropped if it is a directive. -/
theorem bindEntry (hstaged : u.stage.documents[vm.document]? = some d)
    (hcollecting : ∀ w ∈ u.store.collecting, w < u.store.watchers.size) (hjoined : d.Joined)
    (hnode : d.node? n = some ⟨parent, children, .element e, listeners⟩)
    {entry : String × String} (htext : Directive.of? entry.1 ≠ some .text)
    (hhtml : Directive.of? entry.1 ≠ some .html)
    (h : Play.compileAttribute id vm n entry u = (.ok (), u')) :
    ∃ d' e', Registers vm n ((Binding.ofAttribute n entry).toList.flatMap Binding.expressions)
      ⟨parent, children, .element e', listeners ++ (Listener.ofAttribute id vm entry).toList⟩
      d u d' u' := by
  obtain ⟨hparse, rfl⟩ | ⟨directive, u₁, hparse, hbind, herase⟩ := Play.compileAttribute_eq_ok h
  · unfold Binding.ofAttribute Listener.ofAttribute
    rw [Directive.of?_of_parse hparse]
    refine ⟨d, e, .refl _ _, hstaged, hjoined, ?_, fun _ _ => rfl⟩
    rw [hnode]
    exact congrArg some (congrArg _ (List.append_nil _).symm)
  · have hof := Directive.of?_of_parse hparse
    obtain ⟨d₁, e₁, hbinds⟩ := bindDirective hstaged hcollecting hjoined hnode hof
      (fun heq => htext (heq ▸ hof)) (fun heq => hhtml (heq ▸ hof)) hbind
    obtain ⟨d₂, herases⟩ := edit hbinds.staged (Document.updateElement_altered
      hbinds.altered.joined hbinds.altered.here _ _) herase
    have hboth := hbinds.trans herases hcollecting
    rw [List.append_nil] at hboth
    exact ⟨d₂, _, hboth⟩

/-- The attributes of an element are bound, one after the other. -/
theorem bindEntries : ∀ {entries : List (String × String)} {u : World Reaction Stage}
    {d : Document Listener} {e : Element} {listeners : List (String × Listener)},
    Superficial entries → u.stage.documents[vm.document]? = some d →
    (∀ w ∈ u.store.collecting, w < u.store.watchers.size) → d.Joined →
    d.node? n = some ⟨parent, children, .element e, listeners⟩ →
    each (Play.compileAttribute id vm n) entries u = (.ok (), u') →
    ∃ d' e', Registers vm n ((Binding.ofAttributes n entries).flatMap Binding.expressions)
      ⟨parent, children, .element e',
        listeners ++ entries.filterMap (Listener.ofAttribute id vm)⟩ d u d' u'
  | [], u, d, e, listeners, _, hstaged, _, hjoined, hnode, h => by
    cases h
    refine ⟨d, e, .refl _ _, hstaged, hjoined, ?_, fun _ _ => rfl⟩
    rw [hnode, List.filterMap_nil, List.append_nil]
  | entry :: entries, u, d, e, listeners, hsuper, hstaged, hcollecting, hjoined, hnode, h => by
    obtain ⟨⟨htext, hhtml⟩, hsuper⟩ := List.forall_mem_cons.1 hsuper
    obtain ⟨u₁, hfirst, hrest⟩ := Effect.each_cons_eq_ok.1 h
    obtain ⟨d₁, e₁, h₁⟩ := bindEntry hstaged hcollecting hjoined hnode htext hhtml hfirst
    obtain ⟨d₂, e₂, h₂⟩ := bindEntries hsuper h₁.staged (h₁.collecting hcollecting)
      h₁.altered.joined h₁.altered.here hrest
    have hboth := h₁.trans h₂ hcollecting
    refine ⟨d₂, e₂, ?_⟩
    rw [Binding.ofAttributes, List.filterMap_cons, List.filterMap_cons]
    rw [← List.flatMap_append, List.append_assoc] at hboth
    cases hb : Binding.ofAttribute n entry <;> cases hl : Listener.ofAttribute id vm entry <;>
      rw [hb, hl] at hboth <;> exact hboth

end Registers

/-! ## Binding what is below a node -/

/-- A document in which some nodes have the listeners more that their content asked for;
    other nodes are as before. -/
structure Document.Tuned (heard : NodeContent → List (String × Listener)) (touched : List NodeId)
    (d d' : Document Listener) : Prop where
  /-- Slots and links are sound. -/
  joined : d'.Joined
  /-- The nodes have more listeners, and the content may be another one. -/
  here : ∀ x ∈ touched, ∀ node, d.node? x = some node → ∃ content, d'.node? x =
    some { node with content := content, listeners := node.listeners ++ heard node.content }
  /-- The other nodes are as they were. -/
  elsewhere : ∀ x ∉ touched, d'.node? x = d.node? x

namespace Document.Tuned

variable {heard : NodeContent → List (String × Listener)} {touched touched' : List NodeId}
  {d d' d'' : Document Listener}

theorem refl (h : d.Joined) : Tuned heard [] d d where
  joined := h
  here _ hx := absurd hx List.not_mem_nil
  elsewhere _ _ := rfl

theorem trans (h : Tuned heard touched d d') (h' : Tuned heard touched' d' d'')
    (hdisjoint : touched.Disjoint touched') : Tuned heard (touched ++ touched') d d'' where
  joined := h'.joined
  here x hx node hnode := by
    rcases List.mem_append.1 hx with hx | hx
    · rw [h'.elsewhere x (hdisjoint hx)]
      exact h.here x hx node hnode
    · rw [← h.elsewhere x fun hx' => hdisjoint hx' hx] at hnode
      exact h'.here x hx node hnode
  elsewhere x hx := by
    rw [List.mem_append, not_or] at hx
    rw [h'.elsewhere x hx.2, h.elsewhere x hx.1]

/-- One node has been bound. -/
theorem of_altered {n : NodeId} {node : Node Listener} {content : NodeContent}
    (hnode : d.node? n = some node) (h : Altered d d' n
      { node with content := content, listeners := node.listeners ++ heard node.content }) :
    Tuned heard [n] d d' where
  joined := h.joined
  here x hx node' hnode' := by
    obtain rfl := List.mem_singleton.1 hx
    obtain rfl := Option.some.inj (hnode.symm.trans hnode')
    exact ⟨content, h.here⟩
  elsewhere x hx := h.elsewhere x fun heq => hx (List.mem_singleton.2 heq)

end Document.Tuned

/-- What binding some nodes has registered: watchers of expressions, and the listeners that
    the nodes asked for. -/
structure Registered (id : ViewModelId) (vm : ViewModel) (es : List String)
    (touched : List NodeId) (d : Document Listener) (u : World Reaction Stage)
    (d' : Document Listener) (u' : World Reaction Stage) : Prop where
  /-- The watchers are made. -/
  enlists : u.store.Enlists vm.data es u'.store
  /-- The document is on the stage. -/
  staged : u'.stage.documents[vm.document]? = some d'
  /-- The listeners are added. -/
  tuned : Document.Tuned (NodeContent.heard id vm) touched d d'

namespace Registered

variable {u u' u'' : World Reaction Stage} {vm : ViewModel} {id : ViewModelId}
  {d d' d'' : Document Listener} {n : NodeId} {es es' : List String} {touched touched' : List NodeId}

theorem refl (id : ViewModelId) (vm : ViewModel)
    (hstaged : u.stage.documents[vm.document]? = some d) (hjoined : d.Joined) :
    Registered id vm [] [] d u d u :=
  ⟨.refl _ _, hstaged, .refl hjoined⟩

theorem trans (h : Registered id vm es touched d u d' u')
    (h' : Registered id vm es' touched' d' u' d'' u'')
    (hcollecting : ∀ w ∈ u.store.collecting, w < u.store.watchers.size)
    (hdisjoint : touched.Disjoint touched') :
    Registered id vm (es ++ es') (touched ++ touched') d u d'' u'' where
  enlists := h.enlists.trans h'.enlists hcollecting
  staged := h'.staged
  tuned := h.tuned.trans h'.tuned hdisjoint

/-- The watchers that collect are there later, too. -/
theorem collecting (h : Registered id vm es touched d u d' u')
    (hcollecting : ∀ w ∈ u.store.collecting, w < u.store.watchers.size) :
    ∀ w ∈ u'.store.collecting, w < u'.store.watchers.size := by
  rw [h.enlists.collecting, h.enlists.length]
  exact fun w hw => Nat.lt_add_right _ (hcollecting w hw)

/-- A node that asks for nothing. -/
theorem idle {content : NodeContent} {parent : Option NodeId} {children : List NodeId}
    (hstaged : u.stage.documents[vm.document]? = some d) (hjoined : d.Joined)
    (hnode : d.node? n = some ⟨parent, children, content, []⟩)
    (hheard : content.heard id vm = []) : Registered id vm [] [n] d u d u := by
  have haltered : Document.Altered d d n
      ⟨parent, children, content, [] ++ content.heard id vm⟩ := by
    refine ⟨hjoined, ?_, fun _ _ => rfl⟩
    rw [hnode, hheard]
    rfl
  exact ⟨.refl _ _, hstaged, .of_altered hnode haltered⟩

/-- Superficial attributes bind no text, so that there are bindings below a node, too. -/
theorem bindings_eq {n : NodeId} {content : NodeContent} {children : List Outline}
    (hleaf : content.holdsChildren = false → children = [])
    (hsuper : ∀ e, some content = some (.element e) → Superficial e.attributes) :
    Outline.bindings (.node n (some content) children) =
      content.bindings n ++ Outline.bindingsAll children := by
  cases content with
  | document => simp [Outline.bindings, NodeContent.bindings]
  | comment s => simp [Outline.bindings, NodeContent.bindings]
  | text s =>
    obtain rfl := hleaf rfl
    rw [Outline.bindings, Outline.bindingsAll, List.append_nil]
    rfl
  | element e =>
    have hnone : (Binding.ofAttributes n e.attributes).any (fun b => b.facet.isText) = false := by
      rw [List.any_eq_false]
      intro b hb
      obtain ⟨entry, hentry, hb⟩ := List.mem_filterMap.1 hb
      obtain ⟨htext, -⟩ := hsuper e rfl entry hentry
      obtain ⟨facet, hfacet, rfl⟩ := Option.map_eq_some_iff.1 hb
      obtain ⟨directive, hof, hfacet⟩ := Option.bind_eq_some_iff.1 hfacet
      cases directive <;> cases hfacet <;> first | exact absurd hof htext | exact Bool.false_ne_true
    rw [Outline.bindings, hnone]
    rfl

/-- Binding a node registers its own bindings and listeners. -/
theorem compileNode {content : NodeContent} {children : List Outline}
    (hstaged : u.stage.documents[vm.document]? = some d) (hjoined : d.Joined)
    (hcollecting : ∀ w ∈ u.store.collecting, w < u.store.watchers.size)
    (hfresh : d.Fresh (.node n (some content) children))
    (hsuper : ∀ e, some content = some (.element e) → Superficial e.attributes)
    (h : Play.compileNode id vm n u = (.ok (), u')) :
    ∃ d', Registered id vm ((content.bindings n).flatMap Binding.expressions) [n] d u d' u' := by
  obtain ⟨hnode, hleaf, -⟩ := hfresh
  cases content with
  | document =>
    rw [Play.compileNode_other hstaged hnode nofun nofun] at h
    cases h
    exact ⟨d, idle hstaged hjoined hnode rfl⟩
  | comment s =>
    rw [Play.compileNode_other hstaged hnode nofun nofun] at h
    cases h
    exact ⟨d, idle hstaged hjoined hnode rfl⟩
  | element e =>
    rw [Play.compileNode_element hstaged hnode] at h
    obtain ⟨d', e', hregisters⟩ := Registers.bindEntries (hsuper e rfl) hstaged hcollecting hjoined
      hnode h
    exact ⟨d', hregisters.enlists, hregisters.staged, .of_altered hnode hregisters.altered⟩
  | text s =>
    obtain rfl := hleaf rfl
    rw [Play.compileNode_text hstaged hnode] at h
    rw [NodeContent.bindings]
    split at h
    next hplaceholder =>
      obtain ⟨v, d', hrender, hstaged', henlists⟩ := Play.bindText_enlists hstaged hcollecting h
      have hregisters := Registers.rendered henlists hstaged' hrender
        (Document.setText_altered hjoined hnode _)
      rw [if_pos hplaceholder, List.flatMap_singleton]
      exact ⟨d', henlists, hstaged', .of_altered hnode hregisters.altered⟩
    next hplaceholder =>
      cases h
      rw [if_neg hplaceholder]
      exact ⟨d, idle hstaged hjoined hnode rfl⟩

end Registered

/-- Binding nodes and what is below them, at most so deep, makes the watchers of their
    bindings and adds the listeners that they ask for. -/
def Registering (id : ViewModelId) (vm : ViewModel) (fuel : Nat) (os : List Outline) : Prop :=
  ∀ ⦃d : Document Listener⦄ ⦃u u' : World Reaction Stage⦄, Outline.EveryOf Superficial os →
    (∀ o ∈ os, d.Fresh o) → (preorderAll os).Nodup →
    u.stage.documents[vm.document]? = some d → d.Joined →
    (∀ w ∈ u.store.collecting, w < u.store.watchers.size) →
    each (fun child => do Play.compileNode id vm child; Play.compile id vm fuel child)
        (os.map Outline.id) u = (.ok (), u') →
    ∃ d', Registered id vm ((Outline.bindingsAll os).flatMap Binding.expressions)
      (preorderAll os) d u d' u'

namespace Registering

variable {vm : ViewModel} {id : ViewModelId} {fuel : Nat}

theorem nil : Registering id vm fuel [] := by
  intro d u u' _ _ _ hstaged hjoined _ hrun
  cases hrun
  exact ⟨d, .refl id vm hstaged hjoined⟩

/-- A node and what is below it, and then the others. -/
theorem cons (hbelow : ∀ os, Registering id vm fuel os) {o : Outline} {os : List Outline}
    (hrest : Registering id vm (fuel + 1) os) : Registering id vm (fuel + 1) (o :: os) := by
  intro d u u' hsuper hfresh hnodup hstaged hjoined hcollecting hrun
  obtain ⟨hfresho, hfreshos⟩ := List.forall_mem_cons.1 hfresh
  obtain ⟨u₂, hboth, hothers⟩ := Effect.each_cons_eq_ok.1 hrun
  obtain ⟨⟨⟩, u₁, hself, hcompile⟩ := Effect.bind_eq_ok.1 hboth
  obtain @⟨n, parent, content, children, hnode, hleaf, hchildren⟩ := hfresho
  have hnodup' : (n :: (preorderAll children ++ preorderAll os)).Nodup := hnodup
  obtain ⟨hn, hlower⟩ := List.nodup_cons.1 hnodup'
  obtain ⟨hnodup₁, hnodup₂, hdisjoint⟩ := List.nodup_append'.1 hlower
  rw [List.mem_append, not_or] at hn
  -- the node itself
  obtain ⟨d₁, h₁⟩ := Registered.compileNode hstaged hjoined hcollecting
    (.node hnode hleaf hchildren) hsuper.1.1 hself
  obtain ⟨content₁, hnode₁⟩ := h₁.tuned.here n (List.mem_singleton_self n) _ hnode
  have helsewhere₁ : ∀ x, x ≠ n → d₁.node? x = d.node? x := fun x hx =>
    h₁.tuned.elsewhere x fun hmem => hx (List.mem_singleton.1 hmem)
  -- what is below it
  obtain ⟨fuel', hfuel, heach⟩ := Play.compile_eq_ok h₁.staged hcompile
  obtain rfl := Nat.succ.inj hfuel
  rw [Outline.id, Document.children_eq hnode₁] at heach
  obtain ⟨d₂, h₂⟩ := hbelow children hsuper.1.2 (fun o ho => (hchildren o ho).congr fun x hx =>
    helsewhere₁ x fun heq => hn.1 (heq ▸ mem_preorderAll.2 ⟨o, ho, hx⟩)) hnodup₁ h₁.staged
    h₁.tuned.joined (h₁.collecting hcollecting) heach
  have h₁₂ := h₁.trans h₂ hcollecting (List.singleton_disjoint.2 hn.1)
  -- the other nodes
  obtain ⟨d₃, h₃⟩ := hrest hsuper.2 (fun o ho => (hfreshos o ho).congr fun x hx => by
    have hmem := mem_preorderAll.2 ⟨o, ho, hx⟩
    refine h₁₂.tuned.elsewhere x fun hx' => ?_
    rcases List.mem_cons.1 hx' with rfl | hx'
    · exact hn.2 hmem
    · exact hdisjoint hx' hmem) hnodup₂ h₁₂.staged h₁₂.tuned.joined (h₁₂.collecting hcollecting)
    hothers
  have hall := h₁₂.trans h₃ hcollecting (List.disjoint_cons_left.2 ⟨hn.2, hdisjoint⟩)
  refine ⟨d₃, ?_⟩
  rw [Outline.bindingsAll, Registered.bindings_eq hleaf hsuper.1.1, List.flatMap_append,
    List.flatMap_append]
  exact hall

end Registering

/-- **Binding nodes and what is below them** makes the watchers of their bindings, and adds
    the listeners that they ask for. -/
theorem Play.compile_registers (id : ViewModelId) (vm : ViewModel) :
    ∀ (fuel : Nat) (os : List Outline), Registering id vm fuel os :=
  compile_induction (fun _ _ hstuck _ u u' _ _ _ _ _ _ hrun => absurd hrun (hstuck u u'))
    (fun _ => .nil) fun _ _ _ hbelow hrest => .cons hbelow hrest

/-! ## Counting listeners -/

/-- How many listeners for an event type attributes ask for: one for each `v-on` of this
    type that names a method, and one for each `v-model` if the event is an input. -/
def listenersAsked (methods : Keyed Script) (eventType : String)
    (attributes : List (String × String)) : Nat :=
  attributes.countP (fun entry => Directive.of? entry.1 = some (.on eventType) ∧
      Keyed.contains methods entry.2 = true) +
    if eventType = "input" then
      attributes.countP fun entry => Directive.of? entry.1 = some .model
    else 0

theorem length_listeners_asked (id : ViewModelId) (vm : ViewModel) (eventType : String) :
    ∀ attributes : List (String × String),
    ((attributes.filterMap (Listener.ofAttribute id vm)).filter (·.1 == eventType)).length =
      listenersAsked vm.methods eventType attributes
  | [] => by simp [listenersAsked]
  | entry :: attributes => by
    have ih := length_listeners_asked id vm eventType attributes
    unfold listenersAsked at ih ⊢
    rw [List.filterMap_cons, List.countP_cons, List.countP_cons]
    unfold Listener.ofAttribute Keyed.contains at *
    cases hof : Directive.of? entry.1 with
    | none => simpa using ih
    | some directive =>
      cases directive with
      | text => simpa using ih
      | html => simpa using ih
      | bind target => simpa using ih
      | model =>
        by_cases ht : eventType = "input"
        · subst ht
          simp [ih]
          omega
        · simp [ht, Ne.symm ht] at ih ⊢
          exact ih
      | on other =>
        cases hmethod : Keyed.get? vm.methods entry.2 with
        | none => simpa [hmethod] using ih
        | some body =>
          by_cases ht : other = eventType
          · subst ht
            simp [ih]
            omega
          · simp [ht] at ih ⊢
            exact ih

/-! ## Making a view model -/

namespace Play

variable {markup : String} {options : Options Script} {members : List (String × Json)}
  {u u' : World Reaction Stage} {fuel : Nat} {id : ViewModelId}

/-- Making data reactive adds no watcher, and nothing subscribes to the data. -/
theorem making_store (hdata : options.data = .object members) :
    (u.making options).store.collecting = u.store.collecting ∧
      (u.making options).store.watchers = u.store.watchers ∧
      (∀ i, u.store.slots.size ≤ i → (u.making options).store.subscribers i = []) ∧
      (u.making options).store.Tree (.object members) (.mapping (u.viewModel options).data) := by
  unfold World.making World.viewModel
  rw [hdata]
  have hkept := Store.observeMembers_keeps (P := fun s => s.collecting = u.store.collecting ∧
    s.watchers = u.store.watchers ∧ ∀ i, u.store.slots.size ≤ i → s.subscribers i = [])
    (fun s v h => ⟨h.1, h.2.1, fun i hi => by rw [Store.subscribers_newSlot, h.2.2 i hi]⟩)
    (fun s slots h => h) members
    ⟨rfl, rfl, fun i hi => Store.subscribers_of_size_le u.store hi⟩
  exact ⟨hkept.1, hkept.2.1, hkept.2.2, .observe (.object members) u.store⟩

/-- What has been registered when a view model has been made. -/
theorem mount_registered (hdocument : u.stage.documents[u.stage.document]? = some (.parse markup))
    (hcollecting : ∀ w ∈ u.store.collecting, w < u.store.watchers.size)
    (hdata : options.data = .object members)
    (hdirectives : Outline.EveryOf Superficial
      ((Document.parse markup : Document Listener).template options.el))
    (hmount : mount fuel options u = (.ok id, u')) :
    ∃ d, Registered id (u.viewModel options)
      (((Document.parse markup : Document Listener).bindings options.el).flatMap
        Binding.expressions)
      (preorderAll ((Document.parse markup : Document Listener).template options.el))
      (.parse markup) (u.making options) d u' := by
  obtain ⟨rfl, depth, heach⟩ := mount_binds hdocument hmount
  obtain ⟨hfresh, hnodup, -⟩ := Document.template_fresh markup options.el
  have hplanted : (Document.parse markup : Document Listener).Planted Unrepeated :=
    Document.planted_parse markup
  obtain ⟨hsame, hwatchers, -, -⟩ := making_store (u := u) hdata
  refine compile_registers _ _ depth _ hdirectives hfresh hnodup hdocument hplanted.toJoined ?_ heach
  rwa [hsame, hwatchers]

/-- **Mounting registers** exactly the bindings of the template: in the order of the
    template, the watchers of its expressions are made, each is subscribed once to every
    slot that its path goes through, and every node of the template has the listeners that
    its attributes ask for. -/
theorem mount_registers (hdocument : u.stage.documents[u.stage.document]? = some (.parse markup))
    (hcollecting : ∀ w ∈ u.store.collecting, w < u.store.watchers.size)
    (hdata : options.data = .object members)
    (hdirectives : Outline.EveryOf Superficial
      ((Document.parse markup : Document Listener).template options.el))
    (hmount : mount fuel options u = (.ok id, u')) :
    let parsed : Document Listener := .parse markup
    let root := (u.viewModel options).data
    let es := (parsed.bindings options.el).flatMap Binding.expressions
    let first := u.store.watchers.size
    (∃ added, u'.store.watchers.toList = u.store.watchers.toList ++ added ∧
      added.map (fun w => (w.root, w.expression)) = es.map fun e => (root, e)) ∧
    (∀ i, u.store.slots.size ≤ i → i < u'.store.slots.size →
      (u.store.collecting = [] → u'.store.subscribers i = u'.store.through root i first es) ∧
      (u'.store.subscribers i).filter (first ≤ ·) = u'.store.through root i first es ∧
      ∀ w ∈ u'.store.subscribers i, w < first → u.store.collecting.head? = some w) ∧
    ∃ d, u'.stage.documents[u.stage.document]? = some d ∧ ∀ n eventType,
      (d.listeners n eventType).length =
        if n ∈ preorderAll (parsed.template options.el) then
          listenersAsked options.methods eventType (parsed.attributes n)
        else 0 := by
  intro parsed root es first
  obtain ⟨hsame, hwatchers, hnone, htree⟩ := making_store (u := u) hdata
  obtain ⟨d, henlists, hstaged, htuned⟩ :=
    mount_registered hdocument hcollecting hdata hdirectives hmount
  have hplanted : parsed.Planted Unrepeated := Document.planted_parse markup
  refine ⟨?_, fun i hle hlt => ?_, d, hstaged, fun n eventType => ?_⟩
  · obtain ⟨added, hadded, hmap⟩ := henlists.watchers
    refine ⟨added, by rw [hadded, hwatchers], ?_⟩
    have := congrArg (List.map fun entry => (entry.1, entry.2.1)) hmap
    rwa [List.map_map, List.map_map] at this
  · obtain ⟨added, hadded, hfilter, hother⟩ := henlists.subscribers i (henlists.size ▸ hlt)
    rw [hnone i hle, List.nil_append] at hadded
    rw [hwatchers] at hfilter hother
    rw [hsame] at hother
    rw [Store.enlisted_eq_through (htree.nodup_resolve), ← henlists.data.through] at hfilter
    rw [hadded]
    refine ⟨fun hempty => ?_, hfilter, hother⟩
    -- without a watcher that collects, only the new ones have subscribed
    rw [← hfilter, List.filter_eq_self.2]
    intro w hw
    refine decide_eq_true (Nat.le_of_not_lt fun hlt => ?_)
    have hhead := hother w hw hlt
    rw [hempty] at hhead
    cases hhead
  · split
    next hn =>
      obtain ⟨node, hnode⟩ : ∃ node, parsed.node? n = some node := by
        obtain ⟨-, htemplate⟩ | ⟨o, -, htemplate, hfresh⟩ :=
          Document.template_parse markup options.el
        · rw [htemplate] at hn
          cases hn
        · rw [htemplate] at hn
          obtain @⟨n', parent, content, children, -, -, hchildren⟩ := hfresh
          obtain ⟨o, ho, hx⟩ := mem_preorderAll.1 hn
          exact Document.live_iff.1 ((hchildren o ho).reads.live_of_mem hx)
      obtain ⟨hlisteners, -⟩ := hplanted.nodes n node hnode
      obtain ⟨content, hcontent⟩ := htuned.here n hn node hnode
      unfold Document.listeners Document.attributes Document.element?
      rw [hcontent, hnode, Option.elim_some, hlisteners, List.nil_append, List.length_map,
        Option.bind_some]
      cases hkind : node.content with
      | element e => exact length_listeners_asked id _ eventType e.attributes
      | document => exact (length_listeners_asked id (u.viewModel options) eventType [] :)
      | text s => exact (length_listeners_asked id (u.viewModel options) eventType [] :)
      | comment s => exact (length_listeners_asked id (u.viewModel options) eventType [] :)
    next hn =>
      have helsewhere := htuned.elsewhere n hn
      unfold Document.listeners
      rw [helsewhere]
      cases hnode : parsed.node? n with
      | none => rfl
      | some node =>
        obtain ⟨hlisteners, -⟩ := hplanted.nodes n node hnode
        rw [Option.elim_some, hlisteners]
        rfl

end Play

/-! ## An element of input with a method, and its text -/

namespace Form

/-- An element of input before a text that shows the same. -/
def markup : String := "<p><input v-on:input=go v-model=a.b>\x7b\x7ba.b\x7d\x7d</p>"

/-- The options with which it is mounted. -/
def options : Options Script :=
  ⟨"p", .object [("a", .object [("b", .string "x")])], [("go", [])]⟩

/-- The world in which it has been parsed. -/
def world : World Reaction Stage where
  store := .empty
  stage := ⟨#[.parse markup], 0, #[], ⟨0, [], [], [], [], [], "", [], false⟩⟩

theorem document : world.stage.documents[world.stage.document]? = some (.parse markup) := by
  change #[Document.parse markup][0]? = some (Document.parse markup)
  generalize Document.parse markup = d
  rfl

theorem mounts : ∃ u, Play.mount 4 options world = (.ok 0, u) ∧ u.store.slots.size = 2 := by
  have hmount : (Play.mount 4 options world).1.toOption = some 0 ∧
      (Play.mount 4 options world).2.store.slots.size = 2 := by decide +kernel
  exact ⟨_, Effect.eq_ok_of_toOption hmount.1, hmount.2⟩

end Form

/-- Two watchers are subscribed to the slot that is shown twice, and two listeners wait for
    the input. -/
theorem Play.mount_registers_of_form : ∃ u d, Play.mount 4 Form.options Form.world = (.ok 0, u) ∧
    u.store.subscribers 0 = u.store.through 1 0 0 ["a.b", "a.b"] ∧
    u.stage.documents[0]? = some d ∧ (d.listeners ⟨2, 0⟩ "input").length = 2 := by
  obtain ⟨u, hmount, hsize⟩ := Form.mounts
  obtain ⟨-, hsubscribers, d, hd, hlisteners⟩ :=
    mount_registers Form.document nofun rfl (by decide +kernel) hmount
  have hes : ((Document.parse Form.markup : Document Listener).bindings Form.options.el).flatMap
      Binding.expressions = ["a.b", "a.b"] := by decide +kernel
  have hsubscribed := (hsubscribers 0 (Nat.zero_le _) (by rw [hsize]; decide)).1 rfl
  rw [hes] at hsubscribed
  refine ⟨u, d, hmount, hsubscribed, hd, (hlisteners ⟨2, 0⟩ "input").trans ?_⟩
  decide +kernel

end DataBinding
