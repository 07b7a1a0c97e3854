/-
  Mounting.

  While a view model is mounted, some of its bindings are made: they show the
  data, and watchers attend to them (`Mounting`).

  * `Mounting.attributes`: binding an element makes the bindings that its
    attributes ask for;
  * `Mounting.compile`: binding what is below a node makes all bindings of the
    template there.
-/
import DataBinding.Proofs.View.Mounted
import DataBinding.Proofs.View.Opening
import DataBinding.Proofs.View.Template
import DataBinding.Proofs.View.Wiring

namespace DataBinding

open Effect (mapFault each)
open Binding (pairs ofAttribute ofAttributes)

/-- A world in which some bindings of a view model are made, on the data that
    `u₀` has. -/
structure Mounting (u₀ : World Reaction Stage) (vm : ViewModel) (bs : List Binding)
    (d : Document Listener) (u : World Reaction Stage) : Prop where
  /-- The watchers attend to them. -/
  wired : u₀.store.Wired vm.document vm.data (pairs bs) u.store
  /-- The document is on the stage. -/
  staged : u.stage.documents[vm.document]? = some d
  /-- The view models are those of `u₀`. -/
  models : u.stage.viewModels = u₀.stage.viewModels
  /-- The bindings show the data. -/
  faithful : ∀ b ∈ bs, b.Faithful d u₀.store vm.data

theorem Binding.pairs_append (bs : List Binding) (b : Binding) :
    pairs (bs ++ [b]) = pairs bs ++ b.expressions.map (b, ·) := by
  simp [pairs]

/-- An allowed directive does not bind an attribute that is marked. -/
theorem Binding.not_marked {n : NodeId} {entry : String × String} {b : Binding}
    {directive : Option Directive} (hb : b ∈ ofAttribute n entry)
    (hparse : Directive.parse entry.1 = .ok directive) (hallowed : Directive.Allowed directive)
    {target : String} (hfacet : b.facet = .attribute target) : ¬ Directive.Marked target := by
  rw [ofAttribute, Directive.of?_of_parse hparse, Option.mem_def] at hb
  obtain ⟨facet, hof, rfl⟩ := Option.map_eq_some_iff.1 hb
  obtain ⟨directive', rfl, hof⟩ := Option.bind_eq_some_iff.1 hof
  obtain rfl : facet = .attribute target := hfacet
  cases directive' <;> cases hof
  exact hallowed

theorem Binding.ofAttributes_concat (n : NodeId) (before : List (String × String))
    (entry : String × String) :
    ofAttributes n (before ++ [entry]) = ofAttributes n before ++ (ofAttribute n entry).toList := by
  rw [ofAttributes, ofAttributes, List.filterMap_append]
  cases hb : ofAttribute n entry <;> simp [hb]

namespace Mounting

variable {u₀ u : World Reaction Stage} {vm : ViewModel} {bs own : List Binding}
  {d d' : Document Listener} {n : NodeId} {children os : List Outline}

/-- A change of the document that keeps what is displayed. -/
theorem edited (h : Mounting u₀ vm bs d u) (change : Document Listener → Document.Edited Listener)
    (hchange : change d = (.ok (), d'))
    (hkeep : ∀ b ∈ bs, ∀ t, Displays d b t → Displays d' b t) :
    Play.edit vm.document change u = (.ok (), u.put vm.document d') ∧
      Mounting u₀ vm bs d' (u.put vm.document d') := by
  refine ⟨Play.edit_apply _ h.staged hchange, h.wired, World.documents_put h.staged d', h.models,
    fun b hb => ?_⟩
  obtain ⟨text, htext, hdisplays⟩ := h.faithful b hb
  exact ⟨text, htext, hkeep b hb text hdisplays⟩

/-- One more binding is made. -/
theorem make (h : Mounting u₀ vm bs d u) {b : Binding}
    (hb : ∀ e ∈ b.expressions, u₀.store.Holds vm.data e) {P : Document Listener → Prop}
    (hrender : ∀ v, ∃ d', d.render b.node b.facet v = (.ok (), d') ∧ P d' ∧
      Displays d' b (b.facet.shown v) ∧ ∀ b' ∈ bs, ∀ t, Displays d b' t → Displays d' b' t) :
    ∃ d' u', b.make vm u = (.ok (), u') ∧ Mounting u₀ vm (bs ++ [b]) d' u' ∧ P d' := by
  obtain ⟨s', v, hwired, hshown, hmake⟩ := h.wired.make hb
  obtain ⟨d', hd', hp, hdisplays, hkeep⟩ := hrender v
  have hedit := Play.edit_apply (u := { u with store := s' })
    (fun d => d.render b.node b.facet v) h.staged hd'
  refine ⟨d', _, hmake.trans ?_, ⟨?_, World.documents_put (u := { u with store := s' }) h.staged d',
    h.models, ?_⟩, hp⟩
  · rw [mapFault, hedit]
  · rw [Binding.pairs_append]
    exact hwired
  · simp only [List.forall_mem_append, List.forall_mem_singleton]
    refine ⟨fun b' hb' => ?_, _, hshown, hdisplays⟩
    obtain ⟨text, htext, hdisplays'⟩ := h.faithful b' hb'
    exact ⟨text, htext, hkeep b' hb' text hdisplays'⟩

/-- A directive for data makes its binding. -/
theorem directive (h : Mounting u₀ vm (bs ++ own) d u)
    (ho : Opened d vm.data bs own n children os) (id : ViewModelId) {directive : Directive}
    {source : String} {b : Binding} (hallowed : Directive.Allowed (some directive))
    (hb : directive.facet? = some b.facet) (hnode : b.node = n) (hsource : b.source = source)
    (hholds : ∀ e ∈ b.expressions, u₀.store.Holds vm.data e)
    (hnew : ∀ b' ∈ own, b'.facet ≠ b.facet) :
    ∃ d' u', Play.bindDirective id vm n source directive u = (.ok (), u') ∧
      Mounting u₀ vm (bs ++ (own ++ [b])) d' u' ∧
      Opened d' vm.data bs (own ++ [b]) n children os := by
  obtain ⟨node, facet, source'⟩ := b
  obtain rfl : node = n := hnode
  obtain rfl : source' = source := hsource
  rw [← List.append_assoc]
  cases directive with
  | html => cases hallowed
  | on => cases hallowed
  | text =>
    cases hb
    obtain ⟨d', u', hu', h', ho'⟩ := h.make hholds fun v => ho.text source' hnew v
    exact ⟨d', u', (Play.bindText_eq vm node source' ▸ hu' :), h', ho'⟩
  | bind target =>
    cases hb
    obtain ⟨d', u', hu', h', ho'⟩ := h.make hholds fun v => ho.named source' hnew v
    exact ⟨d', u', (Play.bindValue_eq vm (rfl : (Facet.attribute target).isText = false) ▸ hu' :), h', ho'⟩
  | model =>
    cases hb
    obtain ⟨d₁, u₁, hu₁, h₁, d₂, hd₂, ho₂, hkeep⟩ := h.make hholds fun v => by
      obtain ⟨d₁, hd₁, hall, hlisten⟩ := ho.model source' hnew v
      exact ⟨d₁, hd₁, hlisten, hall⟩
    obtain ⟨hu₂, h₂⟩ := h₁.edited (fun d => d.addListener node "input" (.assign vm.data source')) hd₂
      fun b' _ => hkeep b'
    refine ⟨d₂, _, ?_, h₂, ho₂⟩
    have hmake : Play.bindValue vm node source' .model = Binding.make vm ⟨node, .model, source'⟩ :=
      Play.bindValue_eq vm rfl
    change (Play.bindValue vm node source' .model >>= fun _ => mapFault .binding
      (Play.listen vm.document node "input" (.assign vm.data source'))) u = _
    rw [Effect.bind_apply, hmake, hu₁]
    dsimp only
    rw [mapFault, Play.listen, hu₂]

/-- **An attribute** makes the binding that it asks for, if it does. -/
theorem bindAttribute (h : Mounting u₀ vm (bs ++ own) d u)
    (ho : Opened d vm.data bs own n children os) (id : ViewModelId) {entry : String × String}
    {directive : Option Directive} (hparse : Directive.parse entry.1 = .ok directive)
    (hallowed : Directive.Allowed directive)
    (hunmarked : ∀ b ∈ own, ∀ target, b.facet = .attribute target → ¬ Directive.Marked target)
    (hholds : ∀ b ∈ ofAttribute n entry, ∀ e ∈ b.expressions, u₀.store.Holds vm.data e)
    (hnew : ∀ b ∈ own, ∀ b' ∈ ofAttribute n entry, b.facet ≠ b'.facet) :
    ∃ d' u', Play.compileAttribute id vm n entry u = (.ok (), u') ∧
      Mounting u₀ vm (bs ++ (own ++ (ofAttribute n entry).toList)) d' u' ∧
      Opened d' vm.data bs (own ++ (ofAttribute n entry).toList) n children os := by
  have hof : Directive.of? entry.1 = directive := Directive.of?_of_parse hparse
  have hdirective : Play.directiveOf entry.1 u = (.ok directive, u) := by
    rw [Play.directiveOf, hparse]
    rfl
  unfold Play.compileAttribute
  rw [Effect.bind_apply, hdirective]
  unfold ofAttribute at hholds hnew ⊢
  rw [hof] at hholds hnew ⊢
  cases directive with
  | none => exact ⟨d, u, rfl, by simpa using h, by simpa using ho⟩
  | some directive =>
    have hmarked : Directive.Marked entry.1 := by
      by_contra hnot
      rw [Directive.parse_of_not_marked hnot] at hparse
      cases hparse
    obtain ⟨facet, hfacet⟩ : ∃ facet, directive.facet? = some facet := by
      cases directive <;> first | exact ⟨_, rfl⟩ | exact hallowed.elim
    have hplace : ∀ target, facet = .attribute target → ¬ Directive.Marked target := by
      rintro target rfl
      cases directive <;> cases hfacet
      exact hallowed
    rw [Option.bind_some, hfacet, Option.map_some] at hholds hnew ⊢
    simp only [Option.mem_def, Option.some.injEq, forall_eq'] at hholds hnew
    obtain ⟨d₁, u₁, hu₁, h₁, ho₁⟩ := h.directive ho id hallowed hfacet rfl rfl hholds hnew
    obtain ⟨d₂, hd₂, ho₂, hkeep⟩ := ho₁.erase entry.1 fun b hb => by
      rintro hb'
      rcases List.mem_append.1 hb with hb | hb
      · exact hunmarked b hb _ hb' hmarked
      · obtain rfl := List.mem_singleton.1 hb
        exact hplace _ hb' hmarked
    obtain ⟨hu₂, h₂⟩ := h₁.edited (fun d => d.removeAttribute n entry.1) hd₂ hkeep
    refine ⟨d₂, _, ?_, h₂, ho₂⟩
    dsimp only
    rw [Effect.bind_apply, hu₁]
    dsimp only
    rw [mapFault, hu₂]

/-- **The attributes of an element** make the bindings that they ask for. -/
theorem bindAttributes (id : ViewModelId) : ∀ {entries before : List (String × String)}
    {d : Document Listener} {u : World Reaction Stage},
    Mounting u₀ vm (bs ++ ofAttributes n before) d u →
    Opened d vm.data bs (ofAttributes n before) n children os →
    (∀ entry ∈ before ++ entries, ∃ directive, Directive.parse entry.1 = .ok directive ∧
      Directive.Allowed directive) →
    ((ofAttributes n (before ++ entries)).map Binding.facet).Nodup →
    (∀ b ∈ ofAttributes n entries, ∀ e ∈ b.expressions, u₀.store.Holds vm.data e) →
    ∃ d' u', each (Play.compileAttribute id vm n) entries u = (.ok (), u') ∧
      Mounting u₀ vm (bs ++ ofAttributes n (before ++ entries)) d' u' ∧
      Opened d' vm.data bs (ofAttributes n (before ++ entries)) n children os
  | [], before, d, u, h, ho, _, _, _ => ⟨d, u, rfl, by simpa using h, by simpa using ho⟩
  | entry :: entries, before, d, u, h, ho, hallowed, hnodup, hholds => by
    rw [List.append_cons] at hallowed hnodup ⊢
    have hallowed' : ∀ entry' ∈ before ++ [entry], ∃ directive,
        Directive.parse entry'.1 = .ok directive ∧ Directive.Allowed directive := fun entry' he =>
      hallowed entry' (List.mem_append_left _ he)
    obtain ⟨directive, hparse, hdirective⟩ := hallowed' entry (by simp)
    have hentry : ∀ b ∈ ofAttribute n entry, b ∈ ofAttributes n (entry :: entries) := fun b hb =>
      List.mem_filterMap.2 ⟨entry, List.mem_cons_self, hb⟩
    obtain ⟨d₁, u₁, hu₁, h₁, ho₁⟩ := h.bindAttribute ho id hparse hdirective (fun b hb target => by
      obtain ⟨entry', he, hb⟩ := List.mem_filterMap.1 hb
      obtain ⟨directive', hparse', hallowed'⟩ := hallowed' entry' (List.mem_append_left _ he)
      exact Binding.not_marked hb hparse' hallowed') (fun b hb => hholds b (hentry b hb))
      fun b hb b' hb' hfacet => by
        rw [ofAttributes, List.filterMap_append, List.map_append] at hnodup
        have hfront := (List.nodup_append.1 hnodup).1
        rw [← ofAttributes, Binding.ofAttributes_concat, List.map_append, List.nodup_append] at hfront
        exact hfront.2.2 _ (List.mem_map_of_mem hb) _
          (List.mem_map_of_mem (Option.mem_toList.2 hb')) hfacet
    rw [← Binding.ofAttributes_concat] at h₁ ho₁
    obtain ⟨d₂, u₂, hu₂, h₂, ho₂⟩ := bindAttributes id h₁ ho₁ hallowed hnodup fun b hb =>
      hholds b (by
        rw [ofAttributes, List.filterMap_cons]
        split
        · exact hb
        · exact List.mem_cons_of_mem _ hb)
    refine ⟨d₂, u₂, ?_, h₂, ho₂⟩
    rw [each, Effect.bind_apply, hu₁]
    exact hu₂

/-- Binding an element makes the bindings that its attributes ask for. -/
theorem element (h : Mounting u₀ vm bs d u) {e : Element}
    (hf : Fitted d vm.data bs (.node n (some (.element e)) children :: os)) (id : ViewModelId)
    (hplain : Plain e.attributes) (hunrepeated : Unrepeated e.attributes)
    (hholds : ∀ b ∈ ofAttributes n e.attributes, ∀ e ∈ b.expressions, u₀.store.Holds vm.data e) :
    ∃ d' u', Play.compileNode id vm n u = (.ok (), u') ∧
      Mounting u₀ vm (bs ++ ofAttributes n e.attributes) d' u' ∧
      Opened d' vm.data bs (ofAttributes n e.attributes) n children os := by
  obtain ⟨hnode, -, -⟩ := hf.fresh _ List.mem_cons_self
  have hbs : bs ++ ofAttributes n [] = bs := List.append_nil bs
  obtain ⟨d', u', hu', h', ho'⟩ := bindAttributes id
    (hbs.symm ▸ h : Mounting u₀ vm (bs ++ ofAttributes n []) d u) hf.open hplain.allowed (hplain.nodup hunrepeated n) hholds
  refine ⟨d', u', ?_, h', ho'⟩
  rw [Play.compileNode_element h.staged hnode]
  exact hu'

/-- Binding a piece of text makes its binding, if it has placeholders. -/
theorem text (h : Mounting u₀ vm bs d u) {s : String}
    (hf : Fitted d vm.data bs (.node n (some (.text s)) children :: os)) (id : ViewModelId)
    (hholds : ∀ b ∈ Outline.bindings (.node n (some (.text s)) children), ∀ e ∈ b.expressions,
      u₀.store.Holds vm.data e) :
    ∃ d' u', Play.compileNode id vm n u = (.ok (), u') ∧
      Mounting u₀ vm (bs ++ Outline.bindings (.node n (some (.text s)) children)) d' u' ∧
      Fitted d' vm.data (bs ++ Outline.bindings (.node n (some (.text s)) children)) os ∧
      d'.children n = [] := by
  obtain ⟨hnode, hleaf, -⟩ := hf.fresh _ List.mem_cons_self
  obtain rfl := hleaf rfl
  rw [Play.compileNode_text h.staged hnode]
  rw [Outline.bindings] at hholds ⊢
  split
  next hplaceholder =>
    rw [if_pos hplaceholder, List.forall_mem_singleton] at hholds
    obtain ⟨d', u', hu', h', hf', hchildren⟩ := h.make hholds fun v =>
      hf.interpolate s v
    exact ⟨d', u', (Play.bindText_eq vm n s ▸ hu' :), h', hf', hchildren⟩
  next hplaceholder =>
    rw [List.append_nil]
    refine ⟨d, u, rfl, h, hf.fewer (fun o ho => hf.fresh o (List.mem_cons_of_mem _ ho))
      (List.sublist_cons_self _ _), Document.children_eq hnode⟩

end Mounting

/-! ## Binding what is below a node -/

section

variable {u u' : World Reaction Stage} {vm : ViewModel} {id : ViewModelId} {d : Document Listener}
  {n : NodeId} {fuel : Nat}

/-- Binding what is below a node binds its children in order. -/
theorem Play.compile_eq_ok (hstaged : u.stage.documents[vm.document]? = some d)
    (hrun : compile id vm fuel n u = (.ok (), u')) :
    ∃ fuel', fuel = fuel' + 1 ∧
      each (fun child => do compileNode id vm child; compile id vm fuel' child) (d.children n) u =
        (.ok (), u') := by
  cases fuel with
  | zero => cases hrun
  | succ fuel =>
    rw [compile, Effect.bind_apply, documentAt_apply hstaged] at hrun
    exact ⟨fuel, rfl, hrun⟩

theorem Play.compile_leaf (hstaged : u.stage.documents[vm.document]? = some d)
    (hchildren : d.children n = []) (hrun : compile id vm fuel n u = (.ok (), u')) : u' = u := by
  obtain ⟨fuel', -, heach⟩ := compile_eq_ok hstaged hrun
  rw [hchildren] at heach
  cases heach
  rfl

/-- **Induction along the binding** of nodes and of what is below them: for a node and others,
    after all nodes a level deeper and after the others.  Where the bound on the depth does
    not do, the binding does not answer. -/
theorem Play.compile_induction {motive : Nat → List Outline → Prop}
    (hstuck : ∀ fuel os, (∀ u u', each (fun child => do
        compileNode id vm child
        compile id vm fuel child) (os.map Outline.id) u ≠ (.ok (), u')) → motive fuel os)
    (hnil : ∀ fuel, motive fuel [])
    (hcons : ∀ fuel o os, (∀ os, motive fuel os) → motive (fuel + 1) os →
      motive (fuel + 1) (o :: os)) :
    ∀ fuel os, motive fuel os := by
  intro fuel
  induction fuel with
  | zero =>
    intro os
    cases os with
    | nil => exact hnil 0
    | cons o os =>
      refine hstuck 0 _ fun u u' hrun => ?_
      obtain ⟨u₁, hboth, -⟩ := Effect.each_cons_eq_ok.1 hrun
      obtain ⟨-, u₂, -, hcompile⟩ := Effect.bind_eq_ok.1 hboth
      cases hcompile
  | succ fuel ih =>
    intro os
    induction os with
    | nil => exact hnil (fuel + 1)
    | cons o os ihos => exact hcons fuel o os ih ihos

/-- There is nothing to be bound in a text without placeholders. -/
theorem Play.compile_textOnly (hstaged : u.stage.documents[vm.document]? = some d) {node : Node Listener}
    {text : String} (hnode : d.node? n = some node) (honly : d.TextOnly n node.children text)
    (hliteral : Template.hasPlaceholder text = false)
    (hrun : compile id vm fuel n u = (.ok (), u')) : u' = u := by
  obtain ⟨fuel', -, heach⟩ := compile_eq_ok hstaged hrun
  rw [Document.children_eq hnode] at heach
  rcases honly with ⟨-, hnil⟩ | ⟨c, hsingle, hc⟩
  · rw [hnil] at heach
    cases heach
    rfl
  · rw [hsingle, Effect.each_cons_eq_ok] at heach
    obtain ⟨u₁, hboth, hrest⟩ := heach
    obtain ⟨⟨⟩, u₂, hu₂, hcompile⟩ := Effect.bind_eq_ok.1 hboth
    rw [compileNode_text hstaged hc, hliteral] at hu₂
    cases hu₂
    cases hrest
    exact compile_leaf hstaged (Document.children_eq hc) hcompile

end

/-- Outlines of a template that can be bound: their directives are plain, their
    expressions have values, and no text of an element has placeholders. -/
structure Bindable (u₀ : World Reaction Stage) (vm : ViewModel) (template : Document Listener)
    (os : List Outline) : Prop where
  /-- They are outlines of the template. -/
  fresh : ∀ o ∈ os, template.Fresh o
  /-- The directives are plain. -/
  every : Outline.EveryOf (fun attributes => Plain attributes ∧ Unrepeated attributes) os
  /-- The expressions have values. -/
  holds : ∀ b ∈ Outline.bindingsAll os, ∀ e ∈ b.expressions, u₀.store.Holds vm.data e
  /-- The texts of elements are literal. -/
  literal : ∀ b ∈ Outline.bindingsAll os, b.facet = .text →
    template.kind? b.node = some .element → ∀ text, b.shown u₀.store vm.data = .ok text →
      Template.hasPlaceholder text = false

namespace Bindable

variable {u₀ : World Reaction Stage} {vm : ViewModel} {template : Document Listener} {o : Outline}
  {os : List Outline}

theorem tail (h : Bindable u₀ vm template (o :: os)) : Bindable u₀ vm template os where
  fresh o ho := h.fresh o (List.mem_cons_of_mem _ ho)
  every := h.every.2
  holds b hb := h.holds b (List.mem_append_right _ hb)
  literal b hb := h.literal b (List.mem_append_right _ hb)

/-- What is below a node can be bound too, if it has bindings at all. -/
theorem below {n : NodeId} {content : Option NodeContent} {children : List Outline}
    (h : Bindable u₀ vm template (.node n content children :: os))
    (hsub : ∀ b ∈ Outline.bindingsAll children, b ∈ Outline.bindings (.node n content children)) :
    Bindable u₀ vm template children where
  fresh := by
    obtain ⟨-, -, hchildren⟩ := h.fresh _ List.mem_cons_self
    exact hchildren
  every := h.every.1.2
  holds b hb := h.holds b (List.mem_append_left _ (hsub b hb))
  literal b hb := h.literal b (List.mem_append_left _ (hsub b hb))

end Bindable

/-- Binding nodes and what is below them, at most so deep, makes their bindings. -/
def Compiles (u₀ : World Reaction Stage) (id : ViewModelId) (vm : ViewModel) (fuel : Nat)
    (os : List Outline) : Prop :=
  ∀ {rest : List Outline} {bs : List Binding} {d : Document Listener} {u u' : World Reaction Stage},
    Mounting u₀ vm bs d u → Fitted d vm.data bs (os ++ rest) →
    each (fun child => do Play.compileNode id vm child; Play.compile id vm fuel child)
        (os.map Outline.id) u = (.ok (), u') →
    ∃ d', Mounting u₀ vm (bs ++ Outline.bindingsAll os) d' u' ∧
      Fitted d' vm.data (bs ++ Outline.bindingsAll os) rest

namespace Mounting

variable {u₀ u u' : World Reaction Stage} {id : ViewModelId} {vm : ViewModel} {fuel : Nat}
  {template d : Document Listener} {n : NodeId} {children os rest : List Outline}
  {bs : List Binding}

/-- Where the text of an element is bound and has no placeholders, nothing is bound below
    it. -/
theorem compile_textual {own : List Binding} (h : Mounting u₀ vm (bs ++ own) d u)
    (ho : Opened d vm.data bs own n children rest) (htextual : Binding.textual own = true)
    (hliteral : ∀ b ∈ own, b.facet = .text → ∀ text, b.shown u₀.store vm.data = .ok text →
      Template.hasPlaceholder text = false)
    (hcompile : Play.compile id vm fuel n u = (.ok (), u')) : u' = u := by
  obtain ⟨parent, kids, e, listeners, hnode, -⟩ := ho.element
  obtain ⟨b, hb, hfacet⟩ := List.any_eq_true.1 htextual
  obtain ⟨text, htext, hdisplays⟩ := h.faithful b (List.mem_append_right _ hb)
  have hbn : b.node = n := ho.here b hb
  have hfacet' : b.facet = .text := by cases hf : b.facet <;> rw [hf] at hfacet <;> trivial
  have hplain := hliteral b hb hfacet' text htext
  obtain ⟨node, facet, source⟩ := b
  obtain rfl : node = n := hbn
  obtain rfl : facet = .text := hfacet'
  cases hdisplays with
  | interpolation hnode' =>
    rw [hnode] at hnode'
    cases hnode'
  | text hnode' honly => exact Play.compile_textOnly h.staged hnode' honly hplain hcompile

theorem compile_element (hbelow : Bindable u₀ vm template children → Compiles u₀ id vm fuel children)
    (h : Mounting u₀ vm bs d u) {e : Element}
    (hf : Fitted d vm.data bs (.node n (some (.element e)) children :: rest))
    (hb : Bindable u₀ vm template (.node n (some (.element e)) children :: os))
    (hrun : (do Play.compileNode id vm n; Play.compile id vm (fuel + 1) n : Play Unit) u =
      (.ok (), u')) :
    ∃ d', Mounting u₀ vm (bs ++ Outline.bindings (.node n (some (.element e)) children)) d' u' ∧
      Fitted d' vm.data (bs ++ Outline.bindings (.node n (some (.element e)) children)) rest := by
  have hbindings : Outline.bindings (.node n (some (.element e)) children) =
      if Binding.textual (ofAttributes n e.attributes) then ofAttributes n e.attributes
      else ofAttributes n e.attributes ++ Outline.bindingsAll children := by
    rw [Outline.bindings]
    rfl
  obtain ⟨hplain, hunrepeated⟩ := hb.every.1.1 e rfl
  have hown : ∀ b ∈ ofAttributes n e.attributes,
      b ∈ Outline.bindings (.node n (some (.element e)) children) := fun b hb => by
    rw [hbindings]
    split
    · exact hb
    · exact List.mem_append_left _ hb
  have hall : ∀ b ∈ Outline.bindings (.node n (some (.element e)) children),
      b ∈ Outline.bindingsAll (.node n (some (.element e)) children :: os) := fun b hb =>
    List.mem_append_left _ hb
  obtain ⟨d₁, u₁, hu₁, h₁, ho₁⟩ := h.element hf id hplain hunrepeated fun b hm =>
    hb.holds b (hall b (hown b hm))
  obtain ⟨⟨⟩, u₂, hu₂, hcompile⟩ := Effect.bind_eq_ok.1 hrun
  obtain rfl : u₁ = u₂ := congrArg Prod.snd (hu₁.symm.trans hu₂)
  obtain ⟨parent, kids, e', listeners, hnode, hkids, -⟩ := ho₁.element
  have hfitted := ho₁.fitted
  unfold Outline.unbound at hfitted
  cases htextual : Binding.textual (ofAttributes n e.attributes) with
  | true =>
    rw [htextual] at hfitted hbindings
    have hkind : template.kind? n = some .element := by
      obtain ⟨hnode, -, -⟩ := hb.fresh _ List.mem_cons_self
      rw [Document.kind?, hnode]
      rfl
    obtain rfl := h₁.compile_textual ho₁ htextual (fun b hm htext =>
      hb.literal b (hall b (hown b hm)) htext (by rwa [ho₁.here b hm])) hcompile
    exact ⟨d₁, hbindings ▸ h₁, hbindings ▸ hfitted⟩
  | false =>
    rw [htextual] at hfitted hbindings
    obtain rfl := hkids htextual
    obtain ⟨fuel', hfuel, heach⟩ := Play.compile_eq_ok h₁.staged hcompile
    obtain rfl := Nat.succ.inj hfuel
    rw [Document.children_eq hnode] at heach
    obtain ⟨d', h', hf'⟩ := hbelow (hb.below fun b hm => by
      rw [hbindings]
      exact List.mem_append_right _ hm) h₁ hfitted heach
    rw [hbindings]
    rw [List.append_assoc] at h' hf'
    exact ⟨d', h', hf'⟩

/-- A node that is not bound itself passes on to what is below it. -/
theorem compile_other (hbelow : Bindable u₀ vm template children → Compiles u₀ id vm fuel children)
    (h : Mounting u₀ vm bs d u) {content : NodeContent}
    (hf : Fitted d vm.data bs (.node n (some content) children :: rest))
    (hb : Bindable u₀ vm template (.node n (some content) children :: os))
    (hbindings : Outline.bindings (.node n (some content) children) = Outline.bindingsAll children)
    (hself : Play.compileNode id vm n u = (.ok (), u))
    (hrun : (do Play.compileNode id vm n; Play.compile id vm (fuel + 1) n : Play Unit) u =
      (.ok (), u')) :
    ∃ d', Mounting u₀ vm (bs ++ Outline.bindings (.node n (some content) children)) d' u' ∧
      Fitted d' vm.data (bs ++ Outline.bindings (.node n (some content) children)) rest := by
  obtain ⟨hnode, -, hchildren⟩ := hf.fresh _ List.mem_cons_self
  obtain ⟨⟨⟩, u₁, hu₁, hcompile⟩ := Effect.bind_eq_ok.1 hrun
  obtain rfl : u = u₁ := congrArg Prod.snd (hself.symm.trans hu₁)
  obtain ⟨fuel', hfuel, heach⟩ := Play.compile_eq_ok h.staged hcompile
  obtain rfl := Nat.succ.inj hfuel
  rw [Document.children_eq hnode] at heach
  rw [hbindings]
  refine hbelow (hb.below fun b hm => hbindings ▸ hm) h (hf.fewer ?_ ?_) heach
  · exact List.forall_mem_append.2 ⟨hchildren, fun o ho => hf.fresh o (List.mem_cons_of_mem _ ho)⟩
  · rw [Outline.preorderAll, Outline.preorder, Outline.preorderAll_append]
    exact List.sublist_cons_self _ _

/-- Binding one node and what is below it makes its bindings. -/
theorem compile_node (hbelow : ∀ os, Bindable u₀ vm template os → Compiles u₀ id vm fuel os)
    {o : Outline} (h : Mounting u₀ vm bs d u) (hf : Fitted d vm.data bs (o :: rest))
    (hb : Bindable u₀ vm template (o :: os))
    (hrun : (do Play.compileNode id vm o.id; Play.compile id vm (fuel + 1) o.id : Play Unit) u =
      (.ok (), u')) :
    ∃ d', Mounting u₀ vm (bs ++ o.bindings) d' u' ∧ Fitted d' vm.data (bs ++ o.bindings) rest := by
  obtain @⟨n, parent, content, children, hnode, -, -⟩ := hf.fresh _ List.mem_cons_self
  cases content with
  | element e => exact compile_element (hbelow children) h hf hb hrun
  | document =>
    exact compile_other (hbelow children) h hf hb (by simp [Outline.bindings])
      (Play.compileNode_other h.staged hnode (by rintro ⟨⟩) (by rintro ⟨⟩)) hrun
  | comment s =>
    exact compile_other (hbelow children) h hf hb (by simp [Outline.bindings])
      (Play.compileNode_other h.staged hnode (by rintro ⟨⟩) (by rintro ⟨⟩)) hrun
  | text s =>
    obtain ⟨d₁, u₁, hu₁, h₁, hf₁, hchildren⟩ := h.text hf id fun b hm =>
      hb.holds b (List.mem_append_left _ hm)
    obtain ⟨⟨⟩, u₂, hu₂, hcompile⟩ := Effect.bind_eq_ok.1 hrun
    obtain rfl : u₁ = u₂ := congrArg Prod.snd (hu₁.symm.trans hu₂)
    obtain rfl := Play.compile_leaf h₁.staged hchildren hcompile
    exact ⟨d₁, h₁, hf₁⟩

theorem compile_nil : Compiles u₀ id vm fuel [] := by
  intro rest bs d u u' h hf hrun
  cases hrun
  exact ⟨d, by rwa [Outline.bindingsAll, List.append_nil],
    by rwa [Outline.bindingsAll, List.append_nil]⟩

/-- **Binding what is below a node** makes all bindings of the template there. -/
theorem compile : ∀ (fuel : Nat) (os : List Outline), Bindable u₀ vm template os →
    Compiles u₀ id vm fuel os := by
  refine Play.compile_induction (fun fuel os hstuck _ rest bs d u u' _ _ hrun =>
    absurd hrun (hstuck u u')) (fun _ _ => compile_nil) ?_
  intro fuel o os hbelow hrest hb rest bs d u u' h hf hrun
  obtain ⟨u₁, hboth, hothers⟩ := Effect.each_cons_eq_ok.1 hrun
  obtain ⟨d₁, h₁, hf₁⟩ := compile_node hbelow h hf hb hboth
  obtain ⟨d₂, h₂, hf₂⟩ := hrest hb.tail h₁ hf₁ hothers
  rw [List.append_assoc] at h₂ hf₂
  exact ⟨d₂, h₂, hf₂⟩

/-- Once nothing is left to be bound, the world is mounted. -/
theorem mounted (h : Mounting u₀ vm bs d u) (hf : Fitted d vm.data bs [])
    (hroom : u₀.store.depth < u₀.store.limit)
    (hholds : ∀ b ∈ bs, ∀ e ∈ b.expressions, u₀.store.Holds vm.data e) :
    Mounted vm.document vm.data bs u where
  quiet := h.wired.quiet
  room := by rw [h.wired.depth, h.wired.limit]; exact hroom
  holds b hb e he := h.wired.holds (hholds b hb e he)
  attended := h.wired.attended
  informed := h.wired.informed
  view := by
    refine ⟨d, h.staged, hf, fun b hb => ?_⟩
    obtain ⟨text, htext, hdisplays⟩ := h.faithful b hb
    obtain ⟨text', htext', hsame⟩ : ∃ text, b.shown u.store vm.data = .ok text ∧
        b.shown u₀.store vm.data = .ok text := Binding.shown_alike fun e he => by
        obtain ⟨v, hv, -⟩ := (hholds b hb e he).resolve
        exact ⟨v, v, by rw [h.wired.resolve, hv], hv, .refl v⟩
    obtain rfl := Except.ok.inj (htext.symm.trans hsame)
    exact ⟨text, htext', hdisplays⟩

end Mounting

end DataBinding
