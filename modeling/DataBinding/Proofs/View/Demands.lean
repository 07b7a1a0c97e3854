/-
  What binding asks of the data.

  Binding makes watchers of expressions and evaluates them, one after the other, up to
  the first that does not resolve.  A `Demand` is such an expression, or a fault in its
  place.

  * `Store.meet`: how far demands are met, and what is watched then;
  * `Effect.Asks`: an effect comes to what its demands come to, unless its depth is used
    up; nothing else decides how it ends and what is watched;
  * `Play.readAttributes_asks`: what the attributes of an element ask for.
-/
import DataBinding.Proofs.Reactive.Shape
import DataBinding.Proofs.Reactive.Splitting
import DataBinding.Proofs.View.Bindings
import DataBinding.Proofs.View.Compiling

namespace DataBinding

open Effect (mapFault fail each)

variable {R σ α β : Type}

/-- An expression that is to be watched and evaluated, or a fault in its place. -/
abbrev Demand := Except Fault String

/-! ## Demands on a store -/

namespace Store

/-- The expressions of the watchers, in the order in which they were made. -/
def watching (s : Store R) : List String :=
  s.watchers.toList.map Watcher.expression

/-- What demands come to, one after the other: whether all are met, and what is watched
    then. -/
def meet (s : Store R) (root : MappingId) : List Demand → Except Fault Unit × List String
  | [] => (.ok (), [])
  | .error f :: _ => (.error f, [])
  | .ok expression :: rest =>
    match (s.resolve root expression).2 with
    | .error e => (.error (.binding (.path e)), [expression])
    | .ok _ => ((meet s root rest).1, expression :: (meet s root rest).2)

section

variable {s s' : Store R} {root : MappingId} {expression : String}

theorem meet_cons_of_ok {v : Value} (h : (s.resolve root expression).2 = .ok v)
    (rest : List Demand) :
    s.meet root (.ok expression :: rest) =
      ((s.meet root rest).1, expression :: (s.meet root rest).2) := by
  rw [meet, h]

theorem meet_cons_of_error {e : PathError} (h : (s.resolve root expression).2 = .error e)
    (rest : List Demand) :
    s.meet root (.ok expression :: rest) = (.error (.binding (.path e)), [expression]) := by
  rw [meet, h]

/-- Demands that are met are followed by others. -/
theorem meet_append_of_ok : ∀ {demands rest : List Demand}, (s.meet root demands).1 = .ok () →
    s.meet root (demands ++ rest) =
      ((s.meet root rest).1, (s.meet root demands).2 ++ (s.meet root rest).2)
  | [], _, _ => rfl
  | .error f :: _, _, h => by cases h
  | .ok expression :: others, rest, h => by
    cases hv : (s.resolve root expression).2 with
    | error e =>
      rw [meet_cons_of_error hv] at h
      cases h
    | ok v =>
      rw [meet_cons_of_ok hv] at h
      rw [List.cons_append, meet_cons_of_ok hv, meet_append_of_ok h, meet_cons_of_ok hv,
        List.cons_append]

/-- After demands that are not met, nothing is asked for. -/
theorem meet_append_of_error {f : Fault} : ∀ {demands rest : List Demand},
    (s.meet root demands).1 = .error f → s.meet root (demands ++ rest) = s.meet root demands
  | .error _ :: _, _, _ => rfl
  | .ok expression :: others, rest, h => by
    cases hv : (s.resolve root expression).2 with
    | error e => rw [List.cons_append, meet_cons_of_error hv, meet_cons_of_error hv]
    | ok v =>
      rw [meet_cons_of_ok hv] at h
      rw [List.cons_append, meet_cons_of_ok hv, meet_append_of_error h, meet_cons_of_ok hv]

/-- What is watched has been asked for. -/
theorem mem_of_mem_meet : ∀ {demands : List Demand}, expression ∈ (s.meet root demands).2 →
    .ok expression ∈ demands
  | .error _ :: _, h => by cases h
  | .ok first :: rest, h => by
    cases hv : (s.resolve root first).2 with
    | error e =>
      rw [meet_cons_of_error hv, List.mem_singleton] at h
      exact h ▸ List.mem_cons_self
    | ok v =>
      rw [meet_cons_of_ok hv] at h
      rcases List.mem_cons.1 h with rfl | h
      · exact List.mem_cons_self
      · exact List.mem_cons_of_mem _ (mem_of_mem_meet h)

/-- What has been asked for resolves if all demands are met. -/
theorem resolve_of_meet : ∀ {demands : List Demand}, (s.meet root demands).1 = .ok () →
    .ok expression ∈ demands → ∃ v, (s.resolve root expression).2 = .ok v
  | .error _ :: _, h, _ => by cases h
  | .ok first :: rest, h, hmem => by
    cases hv : (s.resolve root first).2 with
    | error e =>
      rw [meet_cons_of_error hv] at h
      cases h
    | ok v =>
      rw [meet_cons_of_ok hv] at h
      rcases List.mem_cons.1 hmem with heq | hmem
      · obtain rfl := Except.ok.inj heq
        exact ⟨v, hv⟩
      · exact resolve_of_meet h hmem

theorem SameData.meet (h : s.SameData s') : ∀ demands : List Demand,
    s'.meet root demands = s.meet root demands
  | [] => rfl
  | .error _ :: _ => rfl
  | .ok expression :: rest => by
    rw [Store.meet, Store.meet, h.resolve, SameData.meet h rest]

/-- Demands come to the same in stores of the same shape. -/
theorem SameShape.meet (h : s.SameShape s') : ∀ demands : List Demand,
    s'.meet root demands = s.meet root demands
  | [] => rfl
  | .error _ :: _ => rfl
  | .ok expression :: rest => by
    have hresolve := h.resolve root expression
    rw [Store.meet, Store.meet, SameShape.meet h rest]
    generalize (s.resolve root expression).2 = found at hresolve
    generalize (s'.resolve root expression).2 = found' at hresolve
    cases hresolve <;> rfl

theorem watching_trackAll (s : Store R) (slots : List SlotId) :
    (s.trackAll slots).watching = s.watching := by
  rw [watching, watching, watchers_trackAll]

theorem watching_watched (s : Store R) (root : MappingId) (expression : String) (label : R)
    (v : Value) :
    (s.watched root expression label v).watching = s.watching ++ [expression] := by
  rw [watching, watched, Array.toList_push, List.map_append]
  rfl

end

end Store

/-! ## Demands of an effect -/

namespace Effect

variable {root : MappingId} {demands demands' : List Demand} {u : World R σ}
  {Q : α → World R σ → Prop} {Q' : β → World R σ → Prop}

/-- From one store to the other, with an end, it has come to what demands come to. -/
structure Met (root : MappingId) (demands : List Demand) (s s' : Store R) (r : Except Stop α) :
    Prop where
  /-- No value has changed. -/
  data : s.SameData s'
  /-- What is watched besides is what the demands come to. -/
  watching : s'.watching = s.watching ++ (s.meet root demands).2
  /-- All demands are met, or it has stopped as they do. -/
  result : r.map (fun _ => ()) = (s.meet root demands).1.mapError .fault

/-- From a world, an effect comes to what its demands come to, unless its depth is used
    up; if it answers, something holds of the answer and the world that is left. -/
def Asks (root : MappingId) (demands : List Demand) (a : Effect R σ α) (u : World R σ)
    (Q : α → World R σ → Prop) : Prop :=
  ∀ r u', a u = (r, u') → r ≠ .error .exhausted →
    Met root demands u.store u'.store r ∧ ∀ x, r = .ok x → Q x u'

theorem Met.ok {s s' : Store R} {x : α} (h : Met root demands s s' (.ok x)) :
    (s.meet root demands).1 = .ok () := by
  have hresult := h.result
  cases hmeet : (s.meet root demands).1 with
  | ok => rfl
  | error f =>
    rw [hmeet] at hresult
    cases hresult

theorem Met.error {s s' : Store R} {e : Stop} (h : Met root demands s s' (.error e : Except Stop α)) :
    ∃ f, e = .fault f ∧ (s.meet root demands).1 = .error f := by
  have hresult := h.result
  cases hmeet : (s.meet root demands).1 with
  | ok =>
    rw [hmeet] at hresult
    cases hresult
  | error f =>
    rw [hmeet] at hresult
    exact ⟨f, Except.error.inj hresult, rfl⟩

namespace Asks

theorem congr {a a' : Effect R σ α} (h : Asks root demands a' u Q) (ha : a u = a' u) :
    Asks root demands a u Q := fun r u' hu => h r u' (ha ▸ hu)

theorem mono {Q' : α → World R σ → Prop} {a : Effect R σ α} (h : Asks root demands a u Q)
    (hQ : ∀ x u', Met root demands u.store u'.store (.ok x : Except Stop α) → Q x u' → Q' x u') :
    Asks root demands a u Q' := by
  intro r u' hu hr
  obtain ⟨hmet, hx⟩ := h r u' hu hr
  refine ⟨hmet, fun x hok => ?_⟩
  subst hok
  exact hQ x u' hmet (hx x rfl)

theorem exhausted {a : Effect R σ α} (h : (a u).1 = .error .exhausted) : Asks root demands a u Q := by
  intro r u' hu hr
  rw [hu] at h
  exact absurd h hr

theorem pure {x : α} (hx : Q x u) : Asks root [] (pure x) u Q := by
  rintro r u' ⟨⟩ -
  refine ⟨⟨.refl u.store, (List.append_nil _).symm, rfl⟩, ?_⟩
  rintro y ⟨⟩
  exact hx

theorem fail (f : Fault) : Asks root [.error f] (fail f : Effect R σ α) u Q := by
  rintro r u' ⟨⟩ -
  refine ⟨⟨.refl u.store, (List.append_nil _).symm, rfl⟩, ?_⟩
  rintro y ⟨⟩

/-- One effect after the other asks for one after the other. -/
theorem bind {a : Effect R σ α} {f : α → Effect R σ β} (h : Asks root demands a u Q)
    (h' : ∀ x u₁, Met root demands u.store u₁.store (.ok x : Except Stop α) → Q x u₁ →
      Asks root demands' (f x) u₁ Q') :
    Asks root (demands ++ demands') (a >>= f) u Q' := by
  intro r u' hu hr
  rw [bind_apply] at hu
  rcases ha : a u with ⟨e | x, u₁⟩
  · rw [ha] at hu
    cases hu
    have hne : (.error e : Except Stop α) ≠ .error .exhausted := fun he =>
      hr (congrArg _ (Except.error.inj he))
    obtain ⟨hmet, -⟩ := h _ _ ha hne
    obtain ⟨fault, rfl, hfault⟩ := hmet.error
    refine ⟨⟨hmet.data, ?_, ?_⟩, by rintro y ⟨⟩⟩
    · rw [Store.meet_append_of_error hfault]
      exact hmet.watching
    · rw [Store.meet_append_of_error hfault, hfault]
      rfl
  · rw [ha] at hu
    obtain ⟨hmet, hx⟩ := h _ _ ha (by rintro ⟨⟩)
    obtain ⟨hmet', hy⟩ := h' x u₁ hmet (hx x rfl) r u' hu hr
    refine ⟨⟨hmet.data.trans hmet'.data, ?_, ?_⟩, hy⟩
    · rw [hmet'.watching, hmet.watching, hmet.data.meet, Store.meet_append_of_ok hmet.ok,
        List.append_assoc]
    · rw [hmet'.result, hmet.data.meet, Store.meet_append_of_ok hmet.ok]

/-- An effect after which nothing is asked for. -/
theorem followed {a : Effect R σ α} {f : α → Effect R σ β} (h : Asks root demands a u Q)
    (h' : ∀ x u₁, Met root demands u.store u₁.store (.ok x : Except Stop α) → Q x u₁ →
      Asks root [] (f x) u₁ Q') :
    Asks root demands (a >>= f) u Q' := by
  rw [← List.append_nil demands]
  exact h.bind h'

end Asks

end Effect

/-- What renders asks for what is asked for by what it reads. -/
theorem Renders.asks {document : DocumentId} {a : Play Unit} {b : Effect Reaction Unit α}
    {u : World Reaction Stage} {Q : α → Document Listener → Prop} {root : MappingId}
    {demands : List Demand} (h : Renders document a b u Q)
    (hb : Effect.Asks root demands b ⟨u.store, ()⟩ fun _ _ => True) :
    Effect.Asks root demands a u fun _ u' => ∃ x v d, b ⟨u.store, ()⟩ = (.ok x, v) ∧
      u' = u.become v.store document d ∧ Q x d := by
  intro r u' hu hr
  rcases hv : b ⟨u.store, ()⟩ with ⟨e | x, v⟩
  · obtain ⟨d, ha⟩ := h.of_error hv
    cases ha.symm.trans hu
    have hne : (.error e : Except Stop α) ≠ .error .exhausted := fun he =>
      hr (congrArg _ (Except.error.inj he))
    obtain ⟨hmet, -⟩ := hb _ _ hv hne
    exact ⟨⟨hmet.data, hmet.watching, hmet.result⟩, by rintro y ⟨⟩⟩
  · obtain ⟨d, ha, hx⟩ := h.of_ok hv
    cases ha.symm.trans hu
    obtain ⟨hmet, -⟩ := hb _ _ hv (by rintro ⟨⟩)
    exact ⟨⟨hmet.data, hmet.watching, hmet.result⟩, fun _ _ => ⟨x, v, d, rfl, rfl, hx⟩⟩

/-! ## Texts with placeholders -/

/-- A text with placeholders depends on these. -/
theorem Binding.expressions_of_hasPlaceholder (node : NodeId) {text : String}
    (h : Template.hasPlaceholder text = true) :
    (⟨node, .text, text⟩ : Binding).expressions = Template.placeholders text := by
  unfold expressions templated
  dsimp only [Facet.isText]
  cases hexpressions : Template.placeholders text with
  | nil =>
    rw [Template.placeholders_eq_nil.1 hexpressions] at h
    cases h
  | cons e es => rfl

/-! ## What is asked for by reading -/

/-- Where a template asks for data. -/
inductive Site where
  /-- An attribute that is no directive, and is refused. -/
  | refusal (e : DirectiveError)
  /-- A binding. -/
  | binding (b : Binding)
  /-- The text that a binding has put into its element. -/
  | inserted (b : Binding)

namespace Site

/-- What is asked for.  A text in an element is bound wherever it comes from, so that
    its placeholders are asked for. -/
def demands (s : Store R) (root : MappingId) : Site → List Demand
  | refusal e => [.error (.directive e)]
  | binding b => b.expressions.map .ok
  | inserted b =>
    match b.shown s root with
    | .ok text => (Template.placeholders text).map .ok
    | .error _ => []

/-- An attribute of a node. -/
def ofAttribute (node : NodeId) (entry : String × String) : List Site :=
  match Directive.parse entry.1 with
  | .error e => [.refusal e]
  | .ok _ => ((Binding.ofAttribute node entry).map Site.binding).toList

end Site

namespace Play

open Effect (Asks)

variable {vm : ViewModel} {n : NodeId} {u : World Reaction σ}

theorem watch_asks (expression : String) (label : Reaction) :
    Asks vm.data [.ok expression] (mapFault .binding (Effect.watch vm.data expression label)) u
      fun _ _ => True := by
  intro r u' hu _
  unfold mapFault at hu
  cases hv : (u.store.resolve vm.data expression).2 with
  | error e =>
    rw [Effect.watch_of_error hv] at hu
    cases hu
    refine ⟨⟨.watched _ _ _ _ _, ?_, ?_⟩, fun _ _ => trivial⟩
    · rw [Store.watching_watched, Store.meet_cons_of_error hv]
    · rw [Store.meet_cons_of_error hv]
      rfl
  | ok v =>
    rw [Effect.watch_of_ok hv] at hu
    cases hu
    refine ⟨⟨.watched _ _ _ _ _, ?_, ?_⟩, fun _ _ => trivial⟩
    · rw [Store.watching_watched, Store.meet_cons_of_ok hv]
      rfl
    · rw [Store.meet_cons_of_ok hv]
      rfl

/-- Nothing more is asked for by evaluating what resolves. -/
theorem getPath_asks {expression : String}
    (h : ∃ v, (u.store.resolve vm.data expression).2 = .ok v) :
    Asks vm.data [] (mapFault .binding (Effect.getPath vm.data expression)) u fun _ _ => True := by
  obtain ⟨v, hv⟩ := h
  intro r u' hu _
  unfold mapFault at hu
  rw [Effect.getPath_apply, hv] at hu
  cases hu
  refine ⟨⟨.trackAll _ _, ?_, rfl⟩, fun _ _ => trivial⟩
  rw [Store.watching_trackAll]
  exact (List.append_nil _).symm

theorem readValue_asks (expression : String) (facet : Facet) :
    Asks vm.data [.ok expression] (readValue vm n expression facet) u fun _ _ => True := by
  unfold readValue
  rw [Effect.mapFault_bind]
  refine (watch_asks expression _).followed fun _ u₁ hmet _ => getPath_asks ?_
  rw [hmet.data.resolve]
  exact Store.resolve_of_meet hmet.ok List.mem_cons_self

theorem watchAll_asks (label : Reaction) : ∀ {expressions : List String} {u : World Reaction σ},
    Asks vm.data (expressions.map .ok)
      (mapFault .binding (each (fun expression => do
        let _ ← Effect.watch vm.data expression label) expressions)) u fun _ _ => True
  | [], _ => .pure trivial
  | expression :: rest, u => by
    rw [each, Effect.bind_assoc, Effect.mapFault_bind]
    exact (watch_asks expression label).bind fun _ _ _ _ => watchAll_asks label

/-- Nothing more is asked for by filling in a text of which all expressions resolve. -/
theorem content_asks {text : String}
    (h : ∀ e ∈ Template.placeholders text, ∃ v, (u.store.resolve vm.data e).2 = .ok v) :
    Asks vm.data [] (mapFault .binding (do
      let filled ← Effect.content vm.data text
      pure (Value.string filled))) u fun _ _ => True := by
  have halike : ∀ e ∈ Template.placeholders text, u.store.AlikeAt u.store vm.data e :=
    fun e he => (h e he).elim fun _ => .of_ok
  obtain ⟨filled, hfilled, -⟩ := Store.fill_alike halike
  obtain ⟨slots, hcontent⟩ := Effect.content_tracks vm.data text u
  intro r u' hu _
  unfold mapFault at hu
  rw [Effect.bind_apply, hcontent, hfilled] at hu
  cases hu
  refine ⟨⟨.trackAll _ _, ?_, rfl⟩, fun _ _ => trivial⟩
  rw [Store.watching_trackAll]
  exact (List.append_nil _).symm

/-- A text asks for its placeholders, or for itself as an expression. -/
theorem readText_asks (source : String) :
    Asks vm.data ((⟨n, .text, source⟩ : Binding).expressions.map .ok) (readText vm n source) u
      fun _ _ => True := by
  unfold readText Binding.expressions Binding.templated
  cases hexpressions : Template.placeholders source with
  | nil => exact readValue_asks source .text
  | cons e es =>
    change Asks vm.data ((e :: es).map .ok) (readTemplate vm n source (e :: es)) u _
    rw [readTemplate, Effect.mapFault_bind]
    refine (watchAll_asks _).followed fun _ u₁ hmet _ => content_asks fun e' he' => ?_
    rw [hmet.data.resolve]
    rw [hexpressions] at he'
    exact Store.resolve_of_meet hmet.ok (List.mem_map_of_mem he')

/-- What stands in an element, or in a text of the template, asks for its placeholders
    only. -/
theorem readTextNode_asks (text : String) :
    Asks vm.data ((Template.placeholders text).map .ok) (readTextNode vm n text) u
      fun _ _ => True := by
  unfold readTextNode
  cases hplaceholder : Template.hasPlaceholder text with
  | false =>
    rw [Template.placeholders_eq_nil.2 hplaceholder]
    exact .pure trivial
  | true =>
    rw [← Binding.expressions_of_hasPlaceholder n hplaceholder]
    exact (readText_asks text).followed fun _ _ _ _ => .pure trivial

/-- What a text becomes is the text filled in. -/
theorem readTextNode_ok {text filled : String} {u' : World Reaction σ}
    (h : readTextNode vm n text u = (.ok filled, u')) :
    (u.store.fill vm.data text).1 = .ok filled := by
  unfold readTextNode at h
  cases hplaceholder : Template.hasPlaceholder text with
  | false =>
    rw [hplaceholder] at h
    cases h
    exact u.store.fill_of_literal vm.data hplaceholder
  | true =>
    rw [hplaceholder] at h
    obtain ⟨v, u₁, hv, h⟩ := Effect.bind_eq_ok.1 h
    cases h
    have hshown := readText_ok hv
    unfold Store.shownText at hshown
    cases hexpressions : Template.placeholders text with
    | nil =>
      rw [Template.placeholders_eq_nil.1 hexpressions] at hplaceholder
      cases hplaceholder
    | cons e es =>
      rw [hexpressions] at hshown
      exact hshown

theorem readAttribute_asks (s : Store R) (entry : String × String) :
    Asks vm.data ((Site.ofAttribute n entry).flatMap (Site.demands s vm.data))
      (readAttribute vm n entry) u fun _ _ => True := by
  unfold readAttribute Site.ofAttribute Binding.ofAttribute Directive.of?
  cases hparse : Directive.parse entry.1 with
  | error e => exact .fail _
  | ok directive? =>
    cases directive? with
    | none => exact .pure trivial
    | some directive =>
      have hvalue : ∀ facet : Facet, facet.isText = false →
          Asks vm.data ([Site.binding ⟨n, facet, entry.2⟩].flatMap (Site.demands s vm.data))
            (do return some (facet, ← readValue vm n entry.2 facet) :
              Effect Reaction σ (Option Rendering)) u fun _ _ => True := fun facet hfacet => by
        have hdemands : [Site.binding ⟨n, facet, entry.2⟩].flatMap (Site.demands s vm.data) =
            [.ok entry.2] := by
          rw [List.flatMap_singleton, Site.demands, Binding.expressions, Binding.templated]
          simp only [hfacet, Bool.false_and]
          rfl
        rw [hdemands]
        exact (readValue_asks entry.2 facet).followed fun _ _ _ _ => .pure trivial
      cases directive with
      | text =>
        have hdemands : [Site.binding ⟨n, .text, entry.2⟩].flatMap (Site.demands s vm.data) =
            (⟨n, .text, entry.2⟩ : Binding).expressions.map .ok := by
          rw [List.flatMap_singleton, Site.demands]
        exact hdemands ▸ (readText_asks entry.2).followed fun _ _ _ _ => .pure trivial
      | html => exact hvalue .html rfl
      | model => exact hvalue .model rfl
      | bind target => exact hvalue (.attribute target) rfl
      | on eventType => exact .pure trivial

/-- **The attributes** of an element ask for what their bindings depend on, up to an
    attribute that is refused. -/
theorem readAttributes_asks (s : Store R) : ∀ {entries : List (String × String)}
    {u : World Reaction σ},
    Asks vm.data ((entries.flatMap (Site.ofAttribute n)).flatMap (Site.demands s vm.data))
      (readAttributes vm n entries) u fun _ _ => True
  | [], _ => .pure trivial
  | entry :: rest, u => by
    rw [List.flatMap_cons, List.flatMap_append, readAttributes]
    exact (readAttribute_asks s entry).bind fun _ _ _ _ =>
      (readAttributes_asks s).followed fun _ _ _ _ => .pure trivial

end Play

end DataBinding
