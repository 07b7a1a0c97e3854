/-
  Consistency of the view.

  A view model with a plain template is made on a freshly parsed document, and
  its data is written: through the view model, through a mapping, or by input to
  an element whose value is bound.

  * `Prepared` says what is required of the world, the data and the template;
  * `Play.mount_binds`: making a view model binds the outlines of its template;
  * `Write.Admissible` says which writes are made: of a value other than a
    mapping to a slot that holds none;
  * `Prepared.view_consistent`: after any such writes, every binding shows the data,
    and every such write answers.
-/
import DataBinding.Proofs.Document.Rooted
import DataBinding.Proofs.Reactive.Lookup
import DataBinding.Proofs.Reactive.Observed
import DataBinding.Proofs.View.Mounting

namespace DataBinding

open Effect (mapFault each)

/-! ## Before a view model is made -/

/-- What is required of the markup, the options and the world with which a view
    model is made. -/
structure Prepared (markup : String) (options : Options Script) (u : World Reaction Stage) :
    Prop where
  /-- The document in use has just been parsed. -/
  document : u.stage.documents[u.stage.document]? = some (.parse markup)
  /-- The data is a mapping without doubles. -/
  data : ∃ members, options.data = .object members ∧ Json.IntegralMembers members
  /-- No watcher collects. -/
  quiet : u.store.collecting = []
  /-- There are no other watchers. -/
  unwatched : ∀ i, u.store.subscribers i = []
  /-- A notification may be opened. -/
  room : u.store.depth < u.store.limit
  /-- The directives of the template bind text, values and attributes. -/
  plain : Outline.EveryOf Plain ((Document.parse markup : Document Listener).template options.el)
  /-- The expressions are paths without blanks to values other than mappings. -/
  paths : ∀ b ∈ (Document.parse markup : Document Listener).bindings options.el,
    ∀ e ∈ b.expressions, (∀ c ∈ Text.trimChars e.toList, Text.isBlank c = false) ∧
      ∃ i, (u.store.observeMapping options.data).2.Names
          (u.store.observeMapping options.data).1 e i ∧
        ((u.store.observeMapping options.data).2.valueAt i).isMapping = false
  /-- No text that replaces what is below an element has a placeholder. -/
  literal : ∀ b ∈ (Document.parse markup : Document Listener).bindings options.el,
    b.facet = .text → (Document.parse markup : Document Listener).kind? b.node = some .element →
      ∀ text, b.shown (u.store.observeMapping options.data).2
          (u.store.observeMapping options.data).1 = .ok text →
        Template.hasPlaceholder text = false

/-! ## Templates that are bound -/

/-- A template is what is below the node that is found, if one is. -/
theorem Document.template_parse (markup selector : String) :
    ((Document.parse markup : Document Listener).querySelector? selector = none ∧
        (Document.parse markup : Document Listener).template selector = []) ∨
      ∃ o, (Document.parse markup : Document Listener).querySelector? selector = some o.id ∧
        (Document.parse markup : Document Listener).template selector = o.inner ∧
        (Document.parse markup : Document Listener).Fresh o := by
  cases hfound : (Document.parse markup : Document Listener).querySelector? selector with
  | none =>
    refine .inl ⟨rfl, ?_⟩
    rw [Document.template, hfound]
    rfl
  | some n =>
    have hplanted : (Document.parse markup : Document Listener).Planted Unrepeated :=
      Document.planted_parse markup
    have htree : (Document.parse markup : Document Listener).Treelike :=
      Document.treelike_ofForest _
    obtain ⟨o, ho, hreads, rfl⟩ := htree.outline_of_query hplanted.linked hfound
    refine .inr ⟨o, rfl, ?_, hplanted.fresh hreads⟩
    rw [Document.template, hfound, Option.bind_some, ho]
    rfl

/-- The outlines of a template are as the markup has them, and no node is in them twice. -/
theorem Document.template_fresh (markup selector : String) :
    (∀ o ∈ (Document.parse markup : Document Listener).template selector,
        (Document.parse markup : Document Listener).Fresh o) ∧
      (Outline.preorderAll ((Document.parse markup : Document Listener).template selector)).Nodup ∧
      Outline.EveryOf Unrepeated ((Document.parse markup : Document Listener).template selector) := by
  have hplanted : (Document.parse markup : Document Listener).Planted Unrepeated :=
    Document.planted_parse markup
  obtain ⟨-, htemplate⟩ | ⟨o, -, htemplate, hfresh⟩ := template_parse markup selector
  · rw [htemplate]
    exact ⟨fun _ => nofun, List.nodup_nil, trivial⟩
  · rw [htemplate]
    have hnodup := hfresh.reads.nodup_preorder hplanted.linked
    have hevery := hplanted.every hfresh
    obtain @⟨n, parent, content, children, -, -, hchildren⟩ := hfresh
    exact ⟨hchildren, (List.nodup_cons.1 hnodup).2, hevery.2⟩

/-- **Making a view model** binds the outlines of its template, one after the other. -/
theorem Play.mount_binds {markup : String} {options : Options Script}
    {u u' : World Reaction Stage} {fuel : Nat} {id : ViewModelId}
    (hdocument : u.stage.documents[u.stage.document]? = some (.parse markup))
    (hmount : mount fuel options u = (.ok id, u')) :
    id = u.stage.viewModels.size ∧ ∃ depth,
      each (fun child => do
          compileNode id (u.viewModel options) child
          compile id (u.viewModel options) depth child)
        (((Document.parse markup : Document Listener).template options.el).map Outline.id)
        (u.making options) = (.ok (), u') := by
  obtain hdata | ⟨f, hdata⟩ := reactiveData_cases options.data (u.viewModel options).el.isSome u
  · rw [mount_apply hdata, World.viewModel_el hdocument] at hmount
    obtain ⟨hfound, htemplate⟩ | ⟨o, hfound, htemplate, hfresh⟩ :=
      Document.template_parse markup options.el
    · rw [hfound] at hmount
      cases hmount
      rw [htemplate]
      exact ⟨rfl, 0, rfl⟩
    · rw [hfound] at hmount
      obtain ⟨⟨⟩, u₁, hcompile, hpure⟩ := Effect.bind_eq_ok.1 hmount
      cases hpure
      obtain @⟨n, parent, content, children, hnode, -, -⟩ := hfresh
      have hstaged : (u.making options).stage.documents[(u.viewModel options).document]? =
          some (Document.parse markup) := hdocument
      obtain ⟨depth, -, heach⟩ := compile_eq_ok hstaged hcompile
      rw [Outline.id, Document.children_eq hnode] at heach
      rw [htemplate]
      exact ⟨rfl, depth, heach⟩
  · rw [mount_refused hdata] at hmount
    cases hmount

namespace Prepared

variable {markup : String} {options : Options Script} {u : World Reaction Stage}

/-- Nothing is subscribed to the data, and nothing else has happened to the
    store. -/
theorem start (h : Prepared markup options u) :
    (u.making options).store.collecting = [] ∧
      (u.making options).store.depth < (u.making options).store.limit ∧
      ∀ i, (u.making options).store.subscribers i = [] := by
  obtain ⟨members, hdata, -⟩ := h.data
  unfold World.making
  rw [hdata]
  refine Store.observeMembers_keeps (P := fun s => s.collecting = [] ∧ s.depth < s.limit ∧
    ∀ i, s.subscribers i = []) (fun s v hs => ?_) (fun s slots hs => hs) members
      ⟨h.quiet, h.room, h.unwatched⟩
  refine ⟨hs.1, hs.2.1, fun i => ?_⟩
  rw [Store.subscribers_newSlot]
  exact hs.2.2 i

/-- The expressions of the template have values. -/
theorem holds (h : Prepared markup options u) :
    ∀ b ∈ (Document.parse markup : Document Listener).bindings options.el,
      ∀ e ∈ b.expressions, (u.making options).store.Holds (u.viewModel options).data e := by
  intro b hb e he
  obtain ⟨members, hdata, hintegral⟩ := h.data
  obtain ⟨hblank, i, hi, hscalar⟩ := h.paths b hb e he
  unfold World.making World.viewModel
  rw [hdata] at hi hscalar ⊢
  obtain ⟨hapart, hslots⟩ := Store.apart_observeMembers hintegral (Store.Apart.start u.store)
  obtain ⟨hlt, hvalue⟩ := (hapart.newMapping hslots).names hapart.mappings_le hi
  exact ⟨hblank, i, hi, hlt, hscalar, hvalue⟩

/-- The world before the template is bound. -/
theorem mounting (h : Prepared markup options u) :
    Mounting (u.making options) (u.viewModel options) [] (.parse markup) (u.making options) where
  wired := .start h.start.1 h.start.2.2
  staged := h.document
  models := rfl
  faithful _ := nofun

/-- **A view model shows its data** when it has been made. -/
theorem mounted (h : Prepared markup options u) {fuel : Nat} {id : ViewModelId}
    {u' : World Reaction Stage} (hmount : Play.mount fuel options u = (.ok id, u')) :
    u'.stage.viewModels[id]? = some (u.viewModel options) ∧
      u'.store.mappings = (u.making options).store.mappings ∧
      Mounted (u.viewModel options).document (u.viewModel options).data
        ((Document.parse markup : Document Listener).bindings options.el) u' := by
  obtain ⟨rfl, depth, heach⟩ := Play.mount_binds h.document hmount
  obtain ⟨hfresh, hnodup, hevery⟩ := Document.template_fresh markup options.el
  have hplanted : (Document.parse markup : Document Listener).Planted Unrepeated :=
    Document.planted_parse markup
  have hpush : (u.making options).stage.viewModels[u.stage.viewModels.size]? =
      some (u.viewModel options) := Array.getElem?_push_size
  have hf : Fitted (.parse markup) (u.viewModel options).data []
      ((Document.parse markup : Document Listener).template options.el ++ []) := by
    rw [List.append_nil]
    exact .start hplanted.toJoined hfresh hnodup
  have hb : Bindable (u.making options) (u.viewModel options) (.parse markup)
      ((Document.parse markup : Document Listener).template options.el) :=
    ⟨hfresh, Outline.everyOf_and h.plain hevery, h.holds, h.literal⟩
  obtain ⟨d, hmounting, hfitted⟩ := Mounting.compile depth _ hb h.mounting hf heach
  exact ⟨hmounting.models ▸ hpush, hmounting.wired.mappings,
    hmounting.mounted hfitted h.start.2.1 hb.holds⟩

end Prepared

/-! ## Writes -/

/-- A write to the data of a view model. -/
inductive Write where
  /-- Of a property. -/
  | property (key : String) (v : Value)
  /-- Through an expression. -/
  | path (expression : String) (v : Value)
  /-- Under a key of any mapping. -/
  | member (m : MappingId) (key : String) (v : Value)
  /-- By input to an element. -/
  | input (node : NodeId) (text : String)

namespace Write

/-- Do a write. -/
def perform (engine : Engine) (vm : ViewModel) : Write → Play Unit
  | property key v => Play.setProperty engine vm key v
  | path expression v => Play.setPath engine vm expression v
  | member m key v => Effect.set engine.react m key v
  | input node text => Play.input engine vm.document node text

/-- A value without doubles, other than a mapping, is written to a slot that
    holds no mapping; input is for an element whose value is bound. -/
def Admissible (vm : ViewModel) (bs : List Binding) (s : Store Reaction) : Write → Prop
  | property key v => vm.el.isSome ∧ s.ScalarWrite vm.data key v ∧ v.Integral
  | path expression v =>
    ∃ m key, (s.target vm.data expression).2 = .ok (m, key) ∧ s.ScalarWrite m key v ∧ v.Integral
  | member m key v => s.ScalarWrite m key v ∧ v.Integral
  | input node _ => ∃ b ∈ bs, b.node = node ∧ b.facet = .model

end Write

/-- The worlds that admissible writes, one after the other, lead to. -/
inductive Written (engine : Engine) (vm : ViewModel) (bs : List Binding)
    (u : World Reaction Stage) : List Write → World Reaction Stage → Prop
  /-- Nothing has been written. -/
  | start : Written engine vm bs u [] u
  /-- One more write, whatever it answers. -/
  | next {ws : List Write} {u' : World Reaction Stage} {w : Write}
      (h : Written engine vm bs u ws u') (hw : w.Admissible vm bs u'.store) :
      Written engine vm bs u (ws ++ [w]) (w.perform engine vm u').2

namespace Mounted

variable {u : World Reaction Stage} {vm : ViewModel} {bs : List Binding} {m : MappingId}
  {key : String} {v : Value}

/-- A write of a slot answers and leaves the world mounted. -/
theorem set (h : Mounted vm.document vm.data bs u) (hwrite : u.store.ScalarWrite m key v)
    (hintegral : v.Integral) (depth : Nat) :
    ∃ u', Effect.set (Engine.ofDepth (depth + 1)).react m key v u = (.ok (), u') ∧
      Mounted vm.document vm.data bs u' ∧ u'.store.mappings = u.store.mappings := by
  obtain ⟨hv, i, hslot, hi⟩ := hwrite
  obtain ⟨d, hd, hfitted, hfaithful⟩ := h.view
  exact h.toStanding.set hslot hi hv hintegral hd hfitted (fun b hb => .inl (hfaithful b hb)) depth

/-- A write through an expression answers and leaves the world mounted. -/
theorem setPath (h : Standing vm.document vm.data bs u) {e : String} {i : SlotId}
    {d : Document Listener} (htarget : (u.store.target vm.data e).2 = .ok (m, key))
    (hwrite : u.store.ScalarWrite m key v) (hslot : u.store.slot? m key = some i)
    (hintegral : v.Integral)
    (hd : u.stage.documents[vm.document]? = some d) (hfitted : Fitted d vm.data bs [])
    (hview : ∀ b ∈ bs, b.Faithful d u.store vm.data ∨
      b.Faithful d (u.store.write i v) vm.data) (depth : Nat) :
    ∃ u', Effect.setPath (Engine.ofDepth (depth + 1)).react vm.data e v u = (.ok (), u') ∧
      Mounted vm.document vm.data bs u' ∧ u'.store.mappings = u.store.mappings := by
  obtain ⟨hv, i', hslot', hi⟩ := hwrite
  obtain rfl := Option.some.inj (hslot.symm.trans hslot')
  obtain ⟨u', hu', h'⟩ := h.set hslot hi hv hintegral hd hfitted hview depth
  refine ⟨u', ?_, h'⟩
  rw [Effect.setPath_of_ok _ htarget, Store.trackAll_of_not_collecting _ h.quiet]
  exact hu'

/-- Input to an element whose value is bound answers and leaves the world
    mounted. -/
theorem input (h : Mounted vm.document vm.data bs u) {b : Binding} (hb : b ∈ bs)
    (hmodel : b.facet = .model) (text : String) (depth : Nat) :
    ∃ u', Play.input (Engine.ofDepth (depth + 2)) vm.document b.node text u = (.ok (), u') ∧
      Mounted vm.document vm.data bs u' ∧ u'.store.mappings = u.store.mappings := by
  obtain ⟨d, hd, hfitted, hfaithful⟩ := h.view
  obtain ⟨d', hd', hfitted', hdisplays, hkeep⟩ := hfitted.render hb (.string text)
  obtain ⟨node, hnode, hlisteners⟩ := hfitted'.listens b hb hmodel
  have htemplated : b.templated = false := by
    rw [Binding.templated, hmodel]
    rfl
  have hexpressions : b.expressions = [b.source] := by
    rw [Binding.expressions, htemplated]
    rfl
  rw [hmodel] at hd' hdisplays
  have hedit := Play.edit_apply (fun d => d.setValue b.node text) hd hd'
  obtain ⟨hblank, i, hi, hlt, hscalar, -⟩ := h.holds b hb b.source (by simp [hexpressions])
  obtain ⟨m, key, htarget, hslot⟩ := hi.target hblank
  have hstanding : Standing vm.document vm.data bs (u.put vm.document d') :=
    ⟨h.quiet, h.room, h.holds, h.attended, h.informed⟩
  obtain ⟨u', hu', h'⟩ := setPath hstanding (v := .string text) htarget ⟨rfl, i, hslot, hscalar⟩ hslot
    trivial (World.documents_put hd d') hfitted' (fun b' hb' => by
      by_cases hbb : b' = b
      · -- the element shows already what is about to be written
        right
        subst hbb
        refine ⟨text, ?_, hdisplays⟩
        have hvalue := (hi.write (v := .string text) hscalar).value
        rw [Store.valueAt_write, if_pos ⟨rfl, hlt⟩] at hvalue
        rw [Binding.shown, htemplated, if_neg Bool.false_ne_true]
        change ((u.store.write i (.string text)).resolve vm.data b'.source).2.map _ = _
        rw [hvalue, hmodel]
        rfl
      · left
        obtain ⟨t, ht, hdisplays'⟩ := hfaithful b' hb'
        exact ⟨t, ht, hkeep b' hb' hbb t hdisplays'⟩) depth
  refine ⟨u', ?_, h'⟩
  have hlisteners' : d'.listeners b.node "input" = [.assign vm.data b.source] := by
    rw [Document.listeners, hnode]
    simp [hlisteners]
  unfold Play.input
  rw [Effect.bind_apply, hedit]
  dsimp only
  unfold Play.dispatch
  rw [Effect.bind_apply, Play.documentAt_apply (World.documents_put hd d')]
  dsimp only
  rw [hnode]
  dsimp only
  have heach : each (fun listener => (Engine.ofDepth (depth + 2)).call (.listener listener
      ⟨"input", (some text).or (d'.value? b.node)⟩)) [.assign vm.data b.source]
        (u.put vm.document d') = (.ok (), u') :=
    Effect.each_cons_eq_ok.2 ⟨u', hu', rfl⟩
  rw [mapFault, hlisteners', heach]

end Mounted

/-- **An admissible write answers** and leaves the world mounted. -/
theorem Write.answers {u : World Reaction Stage} {vm : ViewModel} {bs : List Binding} {w : Write}
    (h : Mounted vm.document vm.data bs u)
    (hkeys : vm.el.isSome → ∀ key i, u.store.slot? vm.data key = some i → key ∈ vm.properties)
    (hw : w.Admissible vm bs u.store) (depth : Nat) :
    ∃ u', w.perform (Engine.ofDepth (depth + 2)) vm u = (.ok (), u') ∧
      Mounted vm.document vm.data bs u' ∧ u'.store.mappings = u.store.mappings := by
  cases w with
  | property key v =>
    obtain ⟨hel, hwrite, hintegral⟩ := hw
    obtain ⟨u', hu', h'⟩ := h.set hwrite hintegral (depth + 1)
    obtain ⟨-, i, hslot, -⟩ := hwrite
    refine ⟨u', ?_, h'⟩
    have hproperty : vm.properties.contains key = true :=
      List.contains_iff_mem.2 (hkeys hel key i hslot)
    rw [perform, Play.setProperty, if_pos hproperty, mapFault, hu']
  | path e v =>
    obtain ⟨m, key, htarget, hwrite, hintegral⟩ := hw
    obtain ⟨-, i, hslot, -⟩ := id hwrite
    obtain ⟨d, hd, hfitted, hfaithful⟩ := h.view
    obtain ⟨u', hu', h'⟩ := Mounted.setPath h.toStanding htarget hwrite hslot hintegral hd hfitted
      (fun b hb => .inl (hfaithful b hb)) (depth + 1)
    refine ⟨u', ?_, h'⟩
    rw [perform, Play.setPath, mapFault, hu']
  | member m key v => exact h.set hw.1 hw.2 (depth + 1)
  | input node text =>
    obtain ⟨b, hb, rfl, hmodel⟩ := hw
    exact h.input hb hmodel text depth

/-- **Consistency of the view.** After any admissible writes to the data of a view
    model, every binding of its template shows the data, and every admissible
    write answers. -/
theorem Prepared.view_consistent {markup : String} {options : Options Script}
    {u u₁ u₂ : World Reaction Stage} (h : Prepared markup options u) {fuel depth : Nat}
    {id : ViewModelId} {vm : ViewModel} {ws : List Write}
    (hmount : Play.mount fuel options u = (.ok id, u₁))
    (hvm : u₁.stage.viewModels[id]? = some vm)
    (hwritten : Written (Engine.ofDepth (depth + 2)) vm
      ((Document.parse markup : Document Listener).bindings options.el) u₁ ws u₂) :
    (∃ d, u₂.stage.documents[vm.document]? = some d ∧
      ∀ b ∈ (Document.parse markup : Document Listener).bindings options.el,
        b.Shows d u₂.store vm.data) ∧
    ∀ w : Write, w.Admissible vm ((Document.parse markup : Document Listener).bindings options.el)
      u₂.store → (w.perform (Engine.ofDepth (depth + 2)) vm u₂).1 = .ok () := by
  obtain ⟨hvm', hmappings, hmounted⟩ := h.mounted hmount
  obtain rfl : u.viewModel options = vm := Option.some.inj (hvm'.symm.trans hvm)
  have hkeys : ∀ u' : World Reaction Stage, u'.store.mappings = (u.making options).store.mappings →
      (u.viewModel options).el.isSome → ∀ key i,
        u'.store.slot? (u.viewModel options).data key = some i →
          key ∈ (u.viewModel options).properties := by
    intro u' hu' hel key i hslot
    have hproperties : (u.viewModel options).properties =
        (u.making options).store.keys (u.viewModel options).data := if_pos hel
    rw [hproperties, Store.keys, ← Keyed.get?_isSome_iff]
    rw [Store.slot?, Store.members, hu'] at hslot
    exact Option.isSome_iff_exists.2 ⟨i, hslot⟩
  have hinv : Mounted (u.viewModel options).document (u.viewModel options).data
      ((Document.parse markup : Document Listener).bindings options.el) u₂ ∧
      u₂.store.mappings = (u.making options).store.mappings := by
    induction hwritten with
    | start => exact ⟨hmounted, hmappings⟩
    | next _ hw ih =>
      obtain ⟨hmounted', hmappings'⟩ := ih
      obtain ⟨u', hu', h', hsame⟩ := Write.answers hmounted' (hkeys _ hmappings') hw depth
      rw [hu']
      exact ⟨h', hsame.trans hmappings'⟩
  obtain ⟨hmounted₂, hmappings₂⟩ := hinv
  obtain ⟨d, hd, -, hfaithful⟩ := hmounted₂.view
  refine ⟨⟨d, hd, fun b hb => (hfaithful b hb).shows⟩, fun w hw => ?_⟩
  obtain ⟨u', hu', -⟩ := Write.answers hmounted₂ (hkeys _ hmappings₂) hw depth
  rw [hu']

/-! ## An element of input and its text -/

namespace Echo

/-- An element of input before a text that shows the same. -/
def markup : String := "<p><input v-model=n>\x7b\x7bn\x7d\x7d</p>"

/-- The options with which it is mounted. -/
def options : Options Script := .ofConfig "p" (.object [("n", .string "a")])

/-- The world in which it has been parsed. -/
def world : World Reaction Stage where
  store := .empty
  stage := ⟨#[.parse markup], 0, #[], ⟨0, [], [], [], [], [], "", [], false⟩⟩

/-- Its bindings. -/
def bindings : List Binding := (Document.parse markup : Document Listener).bindings options.el

theorem bindings_eq : bindings = [⟨⟨2, 0⟩, .model, "n"⟩, ⟨⟨3, 0⟩, .text, "\x7b\x7bn\x7d\x7d"⟩] := by
  decide +kernel

theorem names : (world.store.observeMapping options.data).2.Names
    (world.store.observeMapping options.data).1 "n" 0 := by
  refine ⟨[], ?_⟩
  have htrim : Text.trim "n" = "n" := by decide +kernel
  have hsplit : Text.splitOn '.' "n" = ["n"] := by decide +kernel
  unfold Store.resolve
  dsimp only
  rw [htrim, hsplit]
  rfl

theorem prepared : Prepared markup options world where
  document := by
    change #[Document.parse markup][0]? = some (Document.parse markup)
    generalize Document.parse markup = d
    rfl
  data := ⟨_, rfl, trivial, trivial⟩
  quiet := rfl
  unwatched _ := rfl
  room := by decide
  plain := by decide +kernel
  paths := by
    have htrim : Text.trimChars "n".toList = ['n'] := by decide +kernel
    have hblank : ∀ c ∈ Text.trimChars "n".toList, Text.isBlank c = false := by
      rw [htrim, List.forall_mem_singleton]
      decide
    have hexpressions : ∀ b ∈ bindings, b.expressions = ["n"] := by decide +kernel
    intro b hb e he
    rw [hexpressions b hb, List.mem_singleton] at he
    subst he
    exact ⟨hblank, 0, names, rfl⟩
  literal := by
    intro b hb htext helement
    have hkinds : ∀ b ∈ bindings, b.facet = .text →
        (Document.parse markup : Document Listener).kind? b.node ≠ some .element := by
      decide +kernel
    exact absurd helement (hkinds b hb htext)

theorem mounts : ∃ u, Play.mount 4 options world = (.ok 0, u) :=
  ⟨_, Effect.eq_ok_of_toOption (by decide +kernel)⟩

end Echo

/-- What is put into an element is shown where its value is bound. -/
theorem Prepared.view_consistent_of_echo : ∃ u₁ u₂ vm,
    Play.mount 4 Echo.options Echo.world = (.ok 0, u₁) ∧
    Written (Engine.ofDepth 2) vm Echo.bindings u₁ [.input ⟨2, 0⟩ "b"] u₂ ∧
    ∃ d, u₂.stage.documents[vm.document]? = some d ∧
      ∀ b ∈ Echo.bindings, b.Shows d u₂.store vm.data := by
  obtain ⟨u₁, hmount⟩ := Echo.mounts
  obtain ⟨hvm, -⟩ := Echo.prepared.mounted hmount
  have hadmissible : (Write.input ⟨2, 0⟩ "b").Admissible (Echo.world.viewModel Echo.options)
      Echo.bindings u₁.store :=
    ⟨⟨⟨2, 0⟩, .model, "n"⟩, by rw [Echo.bindings_eq]; exact .head _, rfl, rfl⟩
  have hwritten : Written (Engine.ofDepth 2) (Echo.world.viewModel Echo.options) Echo.bindings u₁
      [.input ⟨2, 0⟩ "b"] _ := .next .start hadmissible
  have hshows := (Prepared.view_consistent Echo.prepared hmount hvm hwritten).1
  exact ⟨u₁, _, _, hmount, hwritten, hshows⟩

end DataBinding
