/-
  What binding a node does to the data and to the document.

  Binding reads the data first and then renders what it has read: nothing in the
  document decides what is read, and only what is below the node is changed.

  * `compileNode_renders_element` and `compileNode_renders_text`: what is read for a
    node, and the outlines that are below it then;
  * `Dressed`: what becomes of the attributes of an element meanwhile;
  * `Filling`: what a directive puts in the place of the children of an element;
    `Refilled` says what is there then;
  * `Renewed`: outlines in the place of others, and the rest of the document as it
    was; one after the other (`Renewed.cons`), and below an element
    (`Renewed.element`).
-/
import DataBinding.Proofs.View.Consulting

namespace DataBinding

open Effect (mapFault fail each)

variable {R σ τ α : Type}

/-- What is below an element after renderings, if they have replaced what was
    there. -/
def Rendering.content : List Rendering → Option (List Markup)
  | [] => none
  | r :: rest => (content rest).or (r.1.forest? r.2)

theorem Rendering.content_append (r : Option Rendering) (rs : List Rendering) :
    content (r.toList ++ rs) = (content rs).or (content r.toList) := by
  cases r <;> simp [content]

namespace Play

open Document (Bears Reworked)
open Outline (preorderAll mem_preorder mem_preorderAll)

variable {vm : ViewModel} {u : World Reaction Stage} {d : Document Listener} {n : NodeId}
  {os : List Outline}

/-! ## Bindings -/

theorem bindValue_reads (vm : ViewModel) (node : NodeId) (expression : String) (facet : Facet) :
    bindValue vm node expression facet = readValue vm node expression facet >>= fun v =>
      mapFault .binding (edit vm.document fun d => d.render node facet v) := by
  rw [readValue, ← Effect.mapFault_bind, Effect.bind_assoc]
  rfl

theorem bindText_reads (vm : ViewModel) (node : NodeId) (expression : String) :
    bindText vm node expression = readText vm node expression >>= fun v =>
      mapFault .binding (edit vm.document fun d => d.render node .text v) := by
  unfold bindText readText
  cases Template.placeholders expression with
  | nil => exact bindValue_reads vm node expression .text
  | cons e es =>
    dsimp only
    rw [readTemplate, ← Effect.mapFault_bind]
    simp only [Effect.bind_assoc]
    rfl

end Play

/-! ## Attributes of an element -/

/-- The attributes of an element once a value has been rendered to it, as a text. -/
def Facet.dress (text : String) (attributes : Keyed String) : Facet → Keyed String
  | .attribute name => Keyed.put attributes name text
  | _ => attributes

/-- The attributes of an element once a directive has been bound, with the text of its
    value. -/
def Directive.dress (text : String) (attributes : Keyed String) : Directive → Keyed String
  | .bind target => Keyed.put attributes target text
  | _ => attributes

/-- What becomes of attributes while entries of them are bound, one after the other. -/
inductive Dressed : List (String × String) → Keyed String → Keyed String → Prop
  /-- Nothing is left to be bound. -/
  | nil (attributes) : Dressed [] attributes attributes
  /-- An entry that is no directive stays. -/
  | plain {entry rest attributes attributes'} (hparse : Directive.parse entry.1 = .ok none)
    (h : Dressed rest attributes attributes') : Dressed (entry :: rest) attributes attributes'
  /-- A directive is bound, and dropped. -/
  | directive {entry rest attributes attributes' directive}
    (hparse : Directive.parse entry.1 = .ok (some directive)) (text : String)
    (h : Dressed rest (Keyed.erase (directive.dress text attributes) entry.1) attributes') :
    Dressed (entry :: rest) attributes attributes'

namespace Document

variable {L : Type} {d : Document L} {n : NodeId} {os : List Outline}

theorem attributes_of_node {parent : Option NodeId} {children : List NodeId} {e : Element}
    {listeners : List (String × L)}
    (hn : d.node? n = some ⟨parent, children, .element e, listeners⟩) :
    d.attributes n = e.attributes := by
  rw [attributes, element?, hn]
  rfl

theorem Bears.attributes_updateElement (h : d.Bears n os) (operation : NodeOperation)
    (f : Element → Element) (g : Keyed String → Keyed String)
    (hf : ∀ e, (f e).attributes = g e.attributes) :
    (d.updateElement n operation f).2.attributes n = g (d.attributes n) := by
  obtain ⟨parent, e, listeners, hn⟩ := h.here
  obtain ⟨d', hd', ha⟩ := updateElement_altered h.joined hn operation f
  rw [hd', attributes_of_node ha.here, attributes_of_node hn, hf]

theorem Bears.attributes_addListener (h : d.Bears n os) (eventType : String) (listener : L) :
    (d.addListener n eventType listener).2.attributes n = d.attributes n := by
  obtain ⟨parent, e, listeners, hn⟩ := h.here
  obtain ⟨d', hd', ha⟩ := addListener_altered h.joined hn eventType listener
  rw [hd', attributes_of_node ha.here, attributes_of_node hn]

/-- Rendering to an element changes the attribute that it is rendered to. -/
theorem Bears.attributes_render (h : d.Bears n os) (facet : Facet) (v : Value) :
    (d.render n facet v).2.attributes n = facet.dress (facet.shown v) (d.attributes n) := by
  cases facet with
  | model => exact h.attributes_updateElement .setValue _ id fun _ => rfl
  | «attribute» name =>
    exact h.attributes_updateElement .setAttribute
      (fun e => { e with attributes := Keyed.put e.attributes name (Facet.shown _ v) })
      (Keyed.put · name (Facet.shown _ v)) fun _ => rfl
  | text =>
    obtain ⟨parent, e, listeners, hn⟩ := h.here
    obtain ⟨d', hd', -, ⟨children, hhere, -⟩, -⟩ := setText_element h.joined hn h.not_under
      (fun c _ m hm => h.leafy c m hm) (Facet.text.shown v)
    rw [render, hd', attributes_of_node hhere, attributes_of_node hn]
    rfl
  | html =>
    obtain ⟨parent, e, listeners, hn⟩ := h.here
    obtain ⟨hjoined, hhere, -⟩ := h.joined.clearChildren hn h.not_under
    obtain ⟨d', os', hd', hg, -⟩ :=
      insertForest_grafted (Markup.parseFragment (Facet.html.shown v)) hjoined hhere rfl
    have hset : d.setInnerHtml n (Facet.html.shown v) = (.ok (), d') := by
      rw [setInnerHtml, setInner, hn]
      exact hd'
    rw [render, hset, attributes_of_node hg.here, attributes_of_node hn]
    rfl

end Document

/-! ## Rendering to an element -/

namespace Renders

open Document (Bears Reworked)

variable {document : DocumentId} {u : World Reaction Stage} {d : Document Listener} {n : NodeId}
  {os : List Outline}

/-- A value is read, and rendered to an element. -/
theorem value (hstaged : u.stage.documents[document]? = some d) (h : d.Bears n os)
    {a : Play Value} {b : Effect Reaction Unit Value} (hab : Effect.Consults a b) (facet : Facet) :
    Renders document
      (a >>= fun v => mapFault .binding (Play.edit document fun d => d.render n facet v))
      (b >>= fun v => Pure.pure (some (facet, v))) u fun (r : Option Rendering) d' =>
        ∃ os' text, Reworked d d' n os os' (Rendering.content r.toList) ∧
          d'.attributes n = facet.dress text (d.attributes n) := by
  refine .consult hstaged hab fun v s => ?_
  obtain ⟨d', os', hd', hr⟩ := Document.render_reworked h facet v
  have hattributes := h.attributes_render facet v
  rw [hd'] at hattributes
  refine .edit (u := { u with store := s }) hstaged _ (fun d => d.render n facet v) hd' ?_
  exact ⟨os', _, hr, hattributes⟩

end Renders

namespace Play

open Document (Bears Reworked)

variable {vm : ViewModel} {u : World Reaction Stage} {d : Document Listener} {n : NodeId}
  {os : List Outline}

theorem bindDirective_renders (id : ViewModelId) (hstaged : u.stage.documents[vm.document]? = some d)
    (h : d.Bears n os) (expression : String) (directive : Directive) :
    Renders vm.document (bindDirective id vm n expression directive)
      (readDirective vm n expression directive) u fun r d' =>
        ∃ os' text, Reworked d d' n os os' (Rendering.content r.toList) ∧
          d'.attributes n = directive.dress text (d.attributes n) := by
  have hvalue : ∀ facet, Renders vm.document (bindValue vm n expression facet)
      (readValue vm n expression facet >>= fun v => pure (some (facet, v))) u fun r d' =>
        ∃ os' text, Reworked d d' n os os' (Rendering.content r.toList) ∧
          d'.attributes n = facet.dress text (d.attributes n) := fun facet => by
    rw [bindValue_reads]
    exact .value hstaged h (readValue_consults vm n expression facet) facet
  cases directive with
  | text =>
    rw [bindDirective, bindText_reads]
    exact .value hstaged h (readText_consults vm n expression) .text
  | html => exact hvalue .html
  | bind target => exact hvalue (.attribute target)
  | model =>
    refine (hvalue .model).followed fun r d₁ s hr => ?_
    obtain ⟨os₁, text, hr, hattributes⟩ := hr
    obtain ⟨d', hd', hr'⟩ := Document.addListener_reworked hr.bears "input" (.assign vm.data expression)
    have hkept := hr.bears.attributes_addListener "input" (.assign vm.data expression)
    rw [hd'] at hkept
    exact .edit (World.documents_become hstaged _ _) _ _ hd'
      ⟨os₁, text, hr.trans hr', hkept.trans hattributes⟩
  | on eventType =>
    rw [bindDirective]
    split
    · exact .pure hstaged ⟨os, "", .refl h, rfl⟩
    next body _ =>
      obtain ⟨d', hd', hr'⟩ := Document.addListener_reworked h eventType (.method id body)
      have hkept := h.attributes_addListener eventType (.method id body)
      rw [hd'] at hkept
      exact .edit hstaged _ _ hd' ⟨os, "", hr', hkept⟩

/-- An attribute that is a directive renders what it reads, and is dropped. -/
theorem compileAttribute_renders (id : ViewModelId)
    (hstaged : u.stage.documents[vm.document]? = some d) (h : d.Bears n os)
    (entry : String × String) :
    Renders vm.document (compileAttribute id vm n entry) (readAttribute vm n entry) u fun r d' =>
      ∃ os', Reworked d d' n os os' (Rendering.content r.toList) ∧
        ∀ {rest attributes}, Dressed rest (d'.attributes n) attributes →
          Dressed (entry :: rest) (d.attributes n) attributes := by
  unfold compileAttribute directiveOf readAttribute
  rcases hparse : Directive.parse entry.1 with e | _ | directive
  · exact .fail hstaged _
  · exact .pure hstaged ⟨os, .refl h, .plain hparse⟩
  · refine (bindDirective_renders id hstaged h entry.2 directive).followed fun r d₁ s hr => ?_
    obtain ⟨os₁, text, hr, hattributes⟩ := hr
    obtain ⟨d', hd', hr'⟩ := Document.updateElement_reworked hr.bears .removeAttribute
      fun e => { e with attributes := Keyed.erase e.attributes entry.1 }
    have herased := hr.bears.attributes_updateElement .removeAttribute
      (fun e => { e with attributes := Keyed.erase e.attributes entry.1 })
      (Keyed.erase · entry.1) fun _ => rfl
    rw [hd', hattributes] at herased
    refine .edit (World.documents_become hstaged _ _) _ _ hd' ⟨os₁, hr.trans hr', fun hrest => ?_⟩
    exact .directive hparse text (herased ▸ hrest)

/-- The attributes of an element, one after the other. -/
theorem compileAttributes_renders (id : ViewModelId) : ∀ (entries : List (String × String))
    {u : World Reaction Stage} {d : Document Listener} {os : List Outline},
    u.stage.documents[vm.document]? = some d → d.Bears n os →
    Renders vm.document (each (compileAttribute id vm n) entries) (readAttributes vm n entries) u
      fun rs d' => ∃ os', Reworked d d' n os os' (Rendering.content rs) ∧
        Dressed entries (d.attributes n) (d'.attributes n)
  | [], u, d, os, hstaged, h => .pure hstaged ⟨os, .refl h, .nil _⟩
  | entry :: rest, u, d, os, hstaged, h => by
    refine (compileAttribute_renders id hstaged h entry).bind fun r d₁ s hr _ => ?_
    obtain ⟨os₁, hr, hdress⟩ := hr
    refine .yields (compileAttributes_renders id rest (World.documents_become hstaged _ _) hr.bears)
      (r.toList ++ ·) fun rs d₂ hr' => ?_
    obtain ⟨os₂, hr', hdressed⟩ := hr'
    refine ⟨os₂, ?_, hdress hdressed⟩
    rw [Rendering.content_append]
    exact hr.trans hr'

/-- An element reads what its attributes ask for, and renders it, and its attributes are
    bound. -/
theorem compileNode_dresses (id : ViewModelId)
    (hstaged : u.stage.documents[vm.document]? = some d) {e : Element} {rest : List Outline}
    (h : d.Laid (.node n (some (.element e)) os :: rest)) :
    Renders vm.document (compileNode id vm n) (readAttributes vm n e.attributes) u
      fun rs d' => ∃ os', Reworked d d' n os os' (Rendering.content rs) ∧
        Dressed e.attributes e.attributes (d'.attributes n) := by
  obtain @⟨_, parent, _, _, listeners, hnode, -⟩ := h.reads _ List.mem_cons_self
  have hrenders := compileAttributes_renders id e.attributes hstaged h.bears
  rw [Document.attributes_of_node hnode] at hrenders
  exact hrenders.congr (compileNode_element hstaged hnode)

/-- An element reads what its attributes ask for, and renders it. -/
theorem compileNode_renders_element (id : ViewModelId)
    (hstaged : u.stage.documents[vm.document]? = some d) {e : Element} {rest : List Outline}
    (h : d.Laid (.node n (some (.element e)) os :: rest)) :
    Renders vm.document (compileNode id vm n) (readAttributes vm n e.attributes) u
      fun rs d' => ∃ os', Reworked d d' n os os' (Rendering.content rs) :=
  (compileNode_dresses id hstaged h).mono fun _ _ hr =>
    let ⟨os', hr, _⟩ := hr
    ⟨os', hr⟩

/-- What the text of a text node is to be: with placeholders it is filled in, and else
    it is left as it is. -/
def readTextNode (vm : ViewModel) (node : NodeId) (s : String) : Effect Reaction σ String :=
  if Template.hasPlaceholder s then do
    return Facet.text.shown (← readText vm node s)
  else pure s

theorem readTextNode_consults (vm : ViewModel) (node : NodeId) (s : String) :
    Effect.Consults (readTextNode vm node s : Effect Reaction σ String)
      (readTextNode vm node s : Effect Reaction τ String) := by
  unfold readTextNode
  split
  · exact .bind (readText_consults vm node s) fun _ => .pure _
  · exact .pure s

/-- A text becomes what it reads. -/
theorem compileNode_renders_text (id : ViewModelId)
    (hstaged : u.stage.documents[vm.document]? = some d) {s : String} {children rest : List Outline}
    (h : d.Laid (.node n (some (.text s)) children :: rest)) :
    Renders vm.document (compileNode id vm n) (readTextNode vm n s) u fun t d' =>
      d.Renewed d' [.node n (some (.text s)) children] [.node n (some (.text t)) children] := by
  obtain @⟨_, parent, _, _, listeners, hnode, -⟩ := h.reads _ List.mem_cons_self
  obtain rfl := h.leaf rfl
  refine .congr (compileNode_text hstaged hnode id) ?_
  unfold readTextNode
  split
  · rw [bindText_reads]
    refine .consult hstaged (readText_consults vm n s) fun v store => ?_
    obtain ⟨d', hd', hr⟩ := Document.Renewed.text h (Facet.text.shown v)
    exact .edit (u := { u with store }) hstaged _ (fun d => d.render n .text v) hd' hr
  · refine .pure hstaged (Document.Laid.refl ⟨h.joined, h.leafy, ?_⟩)
    exact List.forall_mem_singleton.2 (h.reads _ List.mem_cons_self)

end Play

/-! ## What replaces the children of an element -/

/-- What a directive puts in the place of the children of an element. -/
inductive Filling where
  /-- The text of an expression, or of a text with placeholders. -/
  | text (source : String)
  /-- The markup of an expression. -/
  | html (expression : String)

/-- The text that a node shows for an expression, or for a text with placeholders. -/
def Store.shownText (s : Store R) (root : MappingId) (source : String) : Except PathError String :=
  match Template.placeholders source with
  | [] => (s.resolve root source).2.map Facet.text.shown
  | _ :: _ => (s.fill root source).1

/-- The value under a key of the root. -/
theorem Store.resolve_of_key {s : Store R} {root : MappingId} {key : String} {i : SlotId}
    (htrim : Text.trim key = key) (hsplit : Text.splitOn '.' key = [key])
    (hkey : key.isEmpty = false) (hslot : s.slot? root key = some i) :
    (s.resolve root key).2 = .ok (s.valueAt i) := by
  unfold resolve
  simp only [htrim, hsplit, hkey, walk, hslot]
  rfl

namespace Filling

/-- That of an attribute, if it is a directive of this kind. -/
def ofEntry (entry : String × String) : Option Filling :=
  match Directive.parse entry.1 with
  | .ok (some .text) => some (.text entry.2)
  | .ok (some .html) => some (.html entry.2)
  | _ => none

/-- That of attributes: the last one stays. -/
def last? : List (String × String) → Option Filling
  | [] => none
  | entry :: rest => (last? rest).or (ofEntry entry)

/-- The nodes of markup that are put there. -/
def forest (s : Store R) (root : MappingId) : Filling → Except PathError (List Markup)
  | text source => (s.shownText root source).map Markup.ofText
  | html expression =>
    (s.resolve root expression).2.map fun v => Markup.parseFragment (Facet.html.shown v)

/-- What a text puts there is the text that is shown. -/
theorem eq_ofText {s : Store R} {root : MappingId} {source : String} {nodes : List Markup}
    (h : (text source).forest s root = .ok nodes) :
    ∃ shown, s.shownText root source = .ok shown ∧ nodes = Markup.ofText shown := by
  rw [forest] at h
  cases hshown : s.shownText root source with
  | error e =>
    rw [hshown] at h
    cases h
  | ok shown =>
    rw [hshown] at h
    exact ⟨shown, rfl, (Except.ok.inj h).symm⟩

theorem forest_sameData {s s' : Store R} (h : s.SameData s') (root : MappingId) :
    forest s' root = forest s root := by
  funext g
  cases g with
  | html expression => rw [forest, forest, h.resolve]
  | text source =>
    rw [forest, forest, Store.shownText, Store.shownText, h.resolve, h.fill]

/-- The markup of a string under a key. -/
theorem forest_of_key {s : Store R} {root : MappingId} {key text : String} {i : SlotId}
    (htrim : Text.trim key = key) (hsplit : Text.splitOn '.' key = [key])
    (hkey : key.isEmpty = false) (hslot : s.slot? root key = some i)
    (hvalue : s.valueAt i = .string text) :
    (html key).forest s root = .ok (Markup.parseFragment text) := by
  rw [forest, Store.resolve_of_key htrim hsplit hkey hslot, hvalue]
  rfl

end Filling

namespace Play

variable {vm : ViewModel} {n : NodeId} {u u' : World Reaction σ}

theorem readText_ok {source : String} {v : Value} (h : readText vm n source u = (.ok v, u')) :
    u.store.shownText vm.data source = .ok (Facet.text.shown v) := by
  unfold readText at h
  unfold Store.shownText
  cases hexpressions : Template.placeholders source with
  | nil =>
    rw [hexpressions] at h
    dsimp only at h ⊢
    rw [readValue_ok h]
    rfl
  | cons e es =>
    rw [hexpressions] at h
    obtain ⟨text, rfl, htext⟩ := readTemplate_ok h
    exact htext

/-- An attribute replaces the children by its filling, if it is a directive that
    does. -/
theorem readAttribute_content {entry : String × String} {r : Option Rendering}
    (h : readAttribute vm n entry u = (.ok r, u')) :
    (Rendering.content r.toList).map Except.ok =
      (Filling.ofEntry entry).map (Filling.forest u.store vm.data) := by
  unfold readAttribute at h
  unfold Filling.ofEntry
  rcases hparse : Directive.parse entry.1 with e | _ | directive
  · rw [hparse] at h
    cases h
  · rw [hparse] at h
    cases h
    rfl
  rw [hparse] at h
  dsimp only at h ⊢
  cases directive with
  | text =>
    obtain ⟨v, u₁, hv, h⟩ := Effect.bind_eq_ok.1 h
    cases h
    simp only [Option.map_some, Filling.forest, readText_ok hv]
    rfl
  | html =>
    obtain ⟨v, u₁, hv, h⟩ := Effect.bind_eq_ok.1 h
    cases h
    simp only [Option.map_some, Filling.forest, readValue_ok hv]
    rfl
  | model =>
    obtain ⟨v, u₁, hv, h⟩ := Effect.bind_eq_ok.1 h
    cases h
    rfl
  | bind target =>
    obtain ⟨v, u₁, hv, h⟩ := Effect.bind_eq_ok.1 h
    cases h
    rfl
  | on eventType =>
    cases h
    rfl

/-- **What replaces the children** of an element is the last filling. -/
theorem readAttributes_content : ∀ {entries : List (String × String)} {rs : List Rendering}
    {u : World Reaction σ}, readAttributes vm n entries u = (.ok rs, u') →
    (Rendering.content rs).map Except.ok =
      (Filling.last? entries).map (Filling.forest u.store vm.data)
  | [], rs, u, h => by
    cases h
    rfl
  | entry :: rest, rs, u, h => by
    obtain ⟨r, u₁, hr, h⟩ := Effect.bind_eq_ok.1 h
    obtain ⟨others, u₂, hothers, h⟩ := Effect.bind_eq_ok.1 h
    cases h
    have hsame := ((readAttribute_consults vm n entry).elim hr).2
    have hrest := readAttributes_content hothers
    rw [Filling.forest_sameData hsame] at hrest
    rw [Rendering.content_append, Option.map_or, hrest, readAttribute_content hr, Filling.last?, Option.map_or]

/-- What is below an element once its attributes are bound: what was there, or what
    stands for the last filling. -/
def Refilled (s : Store R) (root : MappingId) (e : Element) (os os' : List Outline) : Prop :=
  match Filling.last? e.attributes with
  | none => os' = os
  | some g => ∃ forest, g.forest s root = .ok forest ∧ Outline.StandAll os' forest

/-- Binding an element leaves it refilled. -/
theorem refilled_of_read {s : Store Reaction} (hs : s.SameData u.store) {e : Element}
    {rs : List Rendering} (h : readAttributes vm n e.attributes u = (.ok rs, u'))
    {os os' : List Outline}
    (hos' : (Rendering.content rs).elim (os' = os) fun forest => Outline.StandAll os' forest) :
    Refilled s vm.data e os os' := by
  have hcontent := readAttributes_content h
  rw [Filling.forest_sameData hs] at hcontent
  unfold Refilled
  cases hlast : Filling.last? e.attributes with
  | none =>
    rw [hlast, Option.map_none, Option.map_eq_none_iff] at hcontent
    rwa [hcontent] at hos'
  | some g =>
    rw [hlast, Option.map_some, Option.map_eq_some_iff] at hcontent
    obtain ⟨forest, hforest, hread⟩ := hcontent
    rw [hforest] at hos'
    exact ⟨forest, hread.symm, hos'⟩

/-! ## From node to node -/

/-- Bind a node, and everything below it at most so deep. -/
def visit (id : ViewModelId) (vm : ViewModel) (depth : Nat) (child : NodeId) : Play Unit := do
  compileNode id vm child
  compile id vm depth child

/-- Binding what is below a node visits its children. -/
theorem compile_succ {u : World Reaction Stage} {d : Document Listener}
    (hstaged : u.stage.documents[vm.document]? = some d) (id : ViewModelId) (depth : Nat)
    (node : NodeId) :
    compile id vm (depth + 1) node u = each (visit id vm depth) (d.children node) u := by
  rw [compile, Effect.bind_apply, documentAt_apply hstaged]
  rfl

end Play

end DataBinding
