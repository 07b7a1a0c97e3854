/-
  What a template binds, and when a node shows it.

  A `Binding` says where on a node of a document which expression, or text with
  placeholders, is shown.  `Outline.bindings` reads the bindings off a template
  in document order; below an element whose text is bound there are none, since
  its children are replaced.

  * `Binding.shown` is the text to be shown, `Binding.current?` the one that is
    there, and `Binding.Shows` says that they are the same;
  * `Binding.shown_alike`: the text depends on how the values of its expressions
    look, and on nothing else.
-/
import DataBinding.Proofs.Reactive.Display
import DataBinding.Proofs.Reactive.Path
import DataBinding.View.Stage

namespace DataBinding

variable {R L : Type}

/-! ## Filling in texts -/

namespace Value.Alike

theorem shown {v w : Value} (h : v.Alike w) (facet : Facet) : facet.shown v = facet.shown w := by
  cases facet <;> simp only [Facet.shown, h.display, h.isNull, h.isNullish]

end Value.Alike

namespace Store

/-- An expression has values in two stores that look the same. -/
def AlikeAt (s s' : Store R) (root : MappingId) (expression : String) : Prop :=
  ∃ v v', (s.resolve root expression).2 = .ok v ∧ (s'.resolve root expression).2 = .ok v' ∧
    v.Alike v'

theorem AlikeAt.of_ok {s : Store R} {root : MappingId} {expression : String} {v : Value}
    (h : (s.resolve root expression).2 = .ok v) : s.AlikeAt s root expression :=
  ⟨v, v, h, h, .refl v⟩

theorem fillPieces_alike {root : MappingId} : ∀ {pieces : List Template.Piece} {s s' : Store R},
    (∀ inner, Template.Piece.placeholder inner ∈ pieces →
      s.AlikeAt s' root (String.ofList inner)) →
    ∃ text, (s.fillPieces root pieces).1 = .ok text ∧ (s'.fillPieces root pieces).1 = .ok text
  | [], _, _, _ => ⟨[], rfl, rfl⟩
  | .literal c :: rest, s, s', h => by
    obtain ⟨text, htext, htext'⟩ := fillPieces_alike fun inner hi => h inner (List.mem_cons_of_mem _ hi)
    refine ⟨c :: text, ?_, ?_⟩
    · rw [fillPieces]
      exact congrArg (Except.map (c :: ·)) htext
    · rw [fillPieces]
      exact congrArg (Except.map (c :: ·)) htext'
  | .placeholder inner :: rest, s, s', h => by
    obtain ⟨v, v', hv, hv', halike⟩ := h inner List.mem_cons_self
    obtain ⟨text, htext, htext'⟩ : ∃ text,
        ((s.trackAll (s.resolve root (String.ofList inner)).1).fillPieces root rest).1 = .ok text ∧
        ((s'.trackAll (s'.resolve root (String.ofList inner)).1).fillPieces root rest).1 =
          .ok text := fillPieces_alike fun other ho => by
        unfold AlikeAt
        rw [resolve_trackAll, resolve_trackAll]
        exact h other (List.mem_cons_of_mem _ ho)
    refine ⟨v.display.toList ++ text, ?_, ?_⟩
    · rw [fillPieces, evaluate_eq, hv]
      exact congrArg (Except.map (v.display.toList ++ ·)) htext
    · rw [fillPieces, evaluate_eq, hv', halike.display]
      exact congrArg (Except.map (v'.display.toList ++ ·)) htext'

theorem fill_alike {root : MappingId} {template : String} {s s' : Store R}
    (h : ∀ expression ∈ Template.placeholders template, s.AlikeAt s' root expression) :
    ∃ text, (s.fill root template).1 = .ok text ∧ (s'.fill root template).1 = .ok text := by
  obtain ⟨text, htext, htext'⟩ : ∃ text, (s.fillPieces root (Template.pieces template)).1 = .ok text ∧
      (s'.fillPieces root (Template.pieces template)).1 = .ok text :=
    fillPieces_alike fun inner hi => by
      have hmem : String.ofList (Text.trimChars inner) ∈ Template.placeholders template :=
        List.mem_filterMap.2 ⟨.placeholder inner, hi, rfl⟩
      have halike := h _ hmem
      unfold AlikeAt at halike
      rwa [resolve_trimChars, resolve_trimChars] at halike
  exact ⟨String.ofList text, congrArg (Except.map String.ofList) htext,
    congrArg (Except.map String.ofList) htext'⟩

end Store

/-! ## Bindings -/

/-- Whether what is shown is the text of a node. -/
def Facet.isText : Facet → Bool
  | text => true
  | _ => false

/-- Where on a node which expression, or text with placeholders, is shown. -/
structure Binding where
  /-- The node. -/
  node : NodeId
  /-- Where on the node. -/
  facet : Facet
  /-- The expression, or the text with placeholders. -/
  source : String
  deriving DecidableEq

namespace Binding

/-- Whether the source is a text with placeholders; only text can be. -/
def templated (b : Binding) : Bool :=
  b.facet.isText && !(Template.placeholders b.source).isEmpty

/-- The expressions that a binding depends on. -/
def expressions (b : Binding) : List String :=
  if b.templated then Template.placeholders b.source else [b.source]

/-- The text to be shown. -/
def shown (s : Store R) (root : MappingId) (b : Binding) : Except PathError String :=
  if b.templated then (s.fill root b.source).1
  else (s.resolve root b.source).2.map b.facet.shown

/-- The text that is there, unless the node is gone. -/
def current? (d : Document L) (b : Binding) : Option String :=
  match b.facet with
  | .text => (d.node? b.node).map fun _ => d.textContent b.node
  | .html => (d.innerHtml? b.node).toOption
  | .model => d.value? b.node
  | .attribute name => d.attribute? b.node name

/-- The node shows the data. -/
def Shows (d : Document L) (s : Store R) (root : MappingId) (b : Binding) : Prop :=
  ∃ text, b.shown s root = .ok text ∧ b.current? d = some text

/-- What a watcher of an expression of a binding does. -/
def reaction (document : DocumentId) (root : MappingId) (b : Binding) : Reaction :=
  if b.templated then .fill document b.node root b.source
  else .render document b.node b.facet

theorem isText_of_templated {b : Binding} (h : b.templated = true) : b.facet = .text := by
  rw [templated, Bool.and_eq_true] at h
  cases hf : b.facet <;> rw [hf] at h <;> first | rfl | cases h.1

/-- **What is shown** depends on how the values of the expressions look. -/
theorem shown_alike {b : Binding} {root : MappingId} {s s' : Store R}
    (h : ∀ expression ∈ b.expressions, s.AlikeAt s' root expression) :
    ∃ text, b.shown s root = .ok text ∧ b.shown s' root = .ok text := by
  unfold expressions at h
  unfold shown
  split at h
  next ht =>
    rw [if_pos ht, if_pos ht]
    exact Store.fill_alike h
  next ht =>
    obtain ⟨v, v', hv, hv', halike⟩ := h b.source List.mem_cons_self
    rw [if_neg ht, if_neg ht, hv, hv']
    exact ⟨b.facet.shown v, rfl, congrArg Except.ok (halike.shown b.facet).symm⟩

end Binding

/-! ## Bindings of a template -/

/-- The directive that an attribute name stands for, if it is one. -/
def Directive.of? (attributeName : String) : Option Directive :=
  match parse attributeName with
  | .ok directive => directive
  | .error _ => none

theorem Directive.of?_of_parse {attributeName : String} {directive : Option Directive}
    (h : parse attributeName = .ok directive) : of? attributeName = directive := by
  rw [of?, h]

/-- Where a directive shows data, if it does. -/
def Directive.facet? : Directive → Option Facet
  | text => some .text
  | html => some .html
  | model => some .model
  | bind target => some (.attribute target)
  | on _ => none

/-- The binding that an attribute of a node asks for, if it is a directive for
    data. -/
def Binding.ofAttribute (node : NodeId) (entry : String × String) : Option Binding :=
  ((Directive.of? entry.1).bind Directive.facet?).map fun facet => ⟨node, facet, entry.2⟩

/-- The bindings that the attributes of a node ask for, in order. -/
def Binding.ofAttributes (node : NodeId) (attributes : List (String × String)) : List Binding :=
  attributes.filterMap (ofAttribute node)

namespace Outline

mutual

/-- The bindings of a node and everything below it; there are none below a node
    whose text is bound. -/
def bindings : Outline → List Binding
  | node id content children =>
    match content with
    | some (.element e) =>
      let own := Binding.ofAttributes id e.attributes
      if own.any fun b => b.facet.isText then own else own ++ bindingsAll children
    | some (.text s) => if Template.hasPlaceholder s then [⟨id, .text, s⟩] else []
    | _ => bindingsAll children

/-- The bindings of nodes and everything below them. -/
def bindingsAll : List Outline → List Binding
  | [] => []
  | o :: rest => bindings o ++ bindingsAll rest

end

/-- The outlines below a node. -/
def inner : Outline → List Outline
  | node _ _ children => children

end Outline

/-- What is below the element that a selector finds. -/
def Document.template (d : Document L) (selector : String) : List Outline :=
  ((d.querySelector? selector).bind d.outline?).elim [] Outline.inner

/-- The bindings that a view model makes below the element that its selector
    finds. -/
def Document.bindings (d : Document L) (selector : String) : List Binding :=
  Outline.bindingsAll (d.template selector)

end DataBinding
