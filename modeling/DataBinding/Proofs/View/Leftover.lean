/-
  Directive attributes that are left over.

  * `Document.Cleaned`: the marked attributes below a node are those that are left over;
  * `Play.directives_left`: so it is below the element of a view model that has been
    made;
  * `Play.directive_survives`: there may be some.
-/
import DataBinding.Proofs.View.Looping

namespace DataBinding

open Outline (preorderAll mem_preorder mem_preorderAll StandAll)

variable {R : Type}

/-! ## Making a view model -/

/-- Markup leads to an expression of which the markup is rendered. -/
def LeadsTo (s : Store R) (root : MappingId) (forest : List Markup) (e' : String) : Prop :=
  ∃ e ∈ Markup.htmlSourcesAll forest, Relation.ReflTransGen (Inserts s root) e e'

theorem LeadsTo.tail {s : Store R} {root : MappingId} {forest inserted : List Markup} {e e' : String}
    (h : LeadsTo s root forest e) (hinserted : (Filling.html e).forest s root = .ok inserted)
    (he' : e' ∈ Markup.htmlSourcesAll inserted) : LeadsTo s root forest e' := by
  obtain ⟨e₀, he₀, hreach⟩ := h
  exact ⟨e₀, he₀, hreach.tail ⟨inserted, hinserted, he'⟩⟩

/-- A document reads as what is in an outline that it reads as. -/
theorem Document.Reads.of_inner {L : Type} {d : Document L} {o o' : Outline} (h : d.Reads o)
    (ho' : o' ∈ o.inner) : d.Reads o' := by
  obtain ⟨-, hchildren⟩ := h
  exact hchildren o' ho'

/-- What is under a node in a document. -/
theorem Document.Reads.under_iff {L : Type} {d : Document L} {o : Outline} (h : d.Reads o)
    {x : NodeId} : d.Under o.id x ↔ x ∈ preorderAll o.inner := by
  obtain ⟨n, content, os⟩ := o
  exact h.under_node_iff

namespace Outline

mutual

/-- The elements of markup are those of the outline. -/
theorem mem_attributeLists {attributes : List (String × String)} : ∀ {o : Outline},
    attributes ∈ Markup.attributeListsAll o.markup →
    ∃ x e, (x, e) ∈ o.elements ∧ e.attributes = attributes
  | node n none children, h => by cases h
  | node n (some .document) children, h => mem_attributeListsAll h
  | node n (some (.element e)) children, h => by
    rw [markup, Markup.attributeListsAll, Markup.attributeLists, Markup.attributeListsAll,
      List.append_nil] at h
    rcases List.mem_cons.1 h with rfl | h
    · exact ⟨n, e, mem_elements.2 (.inl ⟨rfl, rfl⟩), rfl⟩
    · obtain ⟨x, e', hx, he'⟩ := mem_attributeListsAll h
      exact ⟨x, e', mem_elements.2 (.inr hx), he'⟩
  | node n (some (.text s)) children, h => by cases h
  | node n (some (.comment s)) children, h => by cases h

theorem mem_attributeListsAll {attributes : List (String × String)} : ∀ {os : List Outline},
    attributes ∈ Markup.attributeListsAll (markupAll os) →
    ∃ x e, (x, e) ∈ elementsAll os ∧ e.attributes = attributes
  | [], h => by cases h
  | o :: rest, h => by
    rw [markupAll, Markup.attributeListsAll_append] at h
    rcases List.mem_append.1 h with h | h
    · obtain ⟨x, e, hx, he⟩ := mem_attributeLists h
      exact ⟨x, e, List.mem_append_left _ hx, he⟩
    · obtain ⟨x, e, hx, he⟩ := mem_attributeListsAll h
      exact ⟨x, e, List.mem_append_right _ hx, he⟩

end

end Outline

namespace Document

variable {L : Type} {d : Document L}

/-- What is written below a node. -/
theorem innerMarkup_eq {n : NodeId} {o : Outline} (ho : d.outline? n = some o) :
    d.innerMarkup n = Outline.markupAll o.inner := by
  rw [innerMarkup, ho]
  obtain ⟨id, content, children⟩ := o
  rfl

/-- What is written below a node are the elements under it. -/
theorem Linked.element_of_innerMarkup (h : d.Linked) {n : NodeId} {attributes : List (String × String)}
    (hin : attributes ∈ Markup.attributeListsAll (d.innerMarkup n)) :
    ∃ x e, d.Under n x ∧ d.element? x = some e ∧ e.attributes = attributes := by
  cases ho : d.outline? n with
  | none =>
    rw [innerMarkup, ho] at hin
    cases hin
  | some o =>
    rw [innerMarkup_eq ho] at hin
    by_cases hlive : d.Live n
    · obtain ⟨hreads, rfl⟩ := h.reads hlive ho
      obtain ⟨x, e, hx, he⟩ := Outline.mem_attributeListsAll hin
      obtain ⟨o', ho', hxo'⟩ := Outline.mem_elementsAll.1 hx
      obtain ⟨hmem, hxe⟩ := (hreads.of_inner ho').mem_elements_iff.1 hxo'
      exact ⟨x, e, hreads.under_iff.2 (mem_preorderAll.2 ⟨o', ho', hmem⟩), hxe, he⟩
    · rw [outline?, outlineWithin?, Option.not_isSome_iff_eq_none.1 hlive] at ho
      obtain rfl := Option.some.inj ho
      cases hin

end Document

/-- The elements under a node have been bound. -/
structure Document.Cleaned (s : Store R) (root : MappingId) (el : NodeId)
    (d d' : Document Listener) : Prop where
  /-- An element there had some attributes, of its own in `d` or in the markup of an
      expression, and the marked ones that are left over of these are all that it has. -/
  elements : ∀ x e', d'.Under el x → d'.element? x = some e' → ∃ entries,
    ((∃ e, d.Under el x ∧ d.element? x = some e ∧ e.attributes = entries) ∨
      Spliced s root (LeadsTo s root (d.innerMarkup el)) entries) ∧
    ∀ name, Directive.Marked name → (name ∈ Keyed.keys e'.attributes ↔ Leftover entries name)
  /-- These elements are what is written there. -/
  written : ∀ attributes ∈ Markup.attributeListsAll (d'.innerMarkup el), ∃ x e',
    d'.Under el x ∧ d'.element? x = some e' ∧ e'.attributes = attributes

/-- Binding what is below a node of which the outline can be read. -/
theorem Play.compile_cleans {id : ViewModelId} {vm : ViewModel} {depth : Nat}
    {u u' : World Reaction Stage} {d : Document Listener} {o : Outline}
    (hstaged : u.stage.documents[vm.document]? = some d) (hjoined : d.Joined) (hleafy : d.Leafy)
    (ho : d.outline? o.id = some o) (hreads : d.Reads o)
    (hrun : compile id vm depth o.id u = (.ok (), u')) :
    ∃ d', u'.stage.documents[vm.document]? = some d' ∧ d.Cleaned u.store vm.data o.id d' := by
  have hunder := @Document.Reads.under_iff _ _ _ hreads
  have hmarkup := Document.innerMarkup_eq ho
  have hnodup := hreads.nodup_preorder hjoined.linked
  obtain @⟨n, parent, content, os, listeners, hnode, hchildren⟩ := hreads
  rw [Outline.preorder, List.nodup_cons] at hnodup
  change ∀ {x}, d.Under n x ↔ x ∈ preorderAll os at hunder
  obtain ⟨d', os', hbecome, -, hr, hstripped⟩ :=
    Strips.below (T := Spliced u.store vm.data (LeadsTo u.store vm.data (d.innerMarkup n)))
      hrun hstaged (Document.children_eq hnode) (.refl _) ⟨hjoined, hleafy, hchildren⟩ hnodup.2
      fun k _ => eachVisit_strips (fun e he forest hforest e' he' => he.tail hforest he') k os
        fun e he => ⟨e, hmarkup.symm ▸ he, .refl⟩
  refine ⟨d', hbecome ▸ World.documents_become hstaged _ _, fun x e' hx he' => ?_,
    fun _ => hr.joined.linked.element_of_innerMarkup⟩
  have hchildren' : d'.children n = os'.map Outline.id := by
    rw [Document.children, hr.elsewhere n (.of_eq hnode) hnodup.1, hnode, hr.ids]
    rfl
  obtain ⟨o', ho', hxo'⟩ := mem_preorderAll.1 (Document.Reads.mem_of_under hr.reads hchildren' hx)
  obtain ⟨entries, hfrom, hdressed⟩ := hstripped x e'
    (Outline.mem_elementsAll.2 ⟨o', ho', (hr.reads o' ho').mem_elements_iff.2 ⟨hxo', he'⟩⟩)
  refine ⟨entries, hfrom.imp_left ?_, fun name hname => ?_⟩
  · rintro ⟨e, he, hentries⟩
    obtain ⟨o, ho, heo⟩ := Outline.mem_elementsAll.1 he
    obtain ⟨hxo, hxe⟩ := (hchildren o ho).mem_elements_iff.1 heo
    exact ⟨e, hunder.2 (mem_preorderAll.2 ⟨o, ho, hxo⟩), hxe, hentries⟩
  · rw [hdressed.mem_keys_iff hname]
    exact or_iff_left fun h => h.2 h.1

namespace Play

open Document (ofForest)

/-- **The directive attributes that are there** below the element of a view model that
    has been made are those that are left over: put there by a `v-bind` that no directive
    of this name follows on the element.  So it is in every document, and with markup that
    the data puts there. -/
theorem directives_left (forest : List Markup) (edits : List (Document.Edit Listener))
    {options : Options Script} {depth : Nat} {u u' : World Reaction Stage} {id : ViewModelId}
    {el : NodeId} (hstaged : u.stage.documents[u.stage.document]? = some ((ofForest forest).run edits))
    (hel : ((ofForest forest).run edits).querySelector? options.el = some el)
    (hmount : mount depth options u = (.ok id, u')) :
    ∃ d', u'.stage.documents[u.stage.document]? = some d' ∧
      ((ofForest forest).run edits).Cleaned (u.making options).store (u.viewModel options).data el d' := by
  have hjoined := (Document.joined_ofForest forest).run edits
  have hleafy := (Document.leafy_ofForest forest).run (Document.joined_ofForest forest) edits
  have hfound : (u.viewModel options).el = some el := by
    rw [← hel, World.viewModel, Stage.documentAt, hstaged]
    rfl
  rcases reactiveData_cases options.data (u.viewModel options).el.isSome u with hdata | ⟨f, hdata⟩
  · rw [mount_apply hdata, hfound] at hmount
    obtain ⟨⟨⟩, u₁, hcompile, hid⟩ := Effect.bind_eq_ok.1 hmount
    cases hid
    obtain ⟨o, ho⟩ := compile_readable hstaged hjoined hleafy hcompile
    obtain ⟨hreads, rfl⟩ := hjoined.linked.outline_of_query hel ho
    exact compile_cleans hstaged hjoined hleafy ho hreads hcompile
  · rw [mount_refused hdata] at hmount
    cases hmount

end Play

namespace Handover

/-- An element in another, with a directive that puts another one there. -/
def markup : String := "<div><p v-bind:v-text=a></p></div>"

/-- The data that it is bound to. -/
def options : Options Script := .ofConfig "div" (.object [("a", .string "x")])

/-- The session in which it is mounted. -/
def session : Session := .start (.parse markup) .null false

/-- The document of the session. -/
theorem staged : session.stage.documents[session.stage.document]? =
    some ((Document.ofForest (Markup.parseFragment markup)).run []) := by
  change #[Document.parse markup][0]? = some (Document.ofForest (Markup.parseFragment markup))
  rw [Document.parse]
  generalize Document.ofForest (Markup.parseFragment markup) = d
  rfl

end Handover

/-- A view model is made, and the element below has what is left over. -/
theorem Play.directives_left_of_handover : ∃ d' : Document Listener,
    (mount 4 Handover.options Handover.session).2.stage.documents[0]? = some d' ∧
      ((Document.ofForest (Markup.parseFragment Handover.markup)).run []).Cleaned
        (Handover.session.making Handover.options).store
        (Handover.session.viewModel Handover.options).data ⟨1, 0⟩ d' := by
  have hel : ((Document.ofForest (Markup.parseFragment Handover.markup) : Document Listener).run
      []).querySelector? Handover.options.el = some ⟨1, 0⟩ := by decide +kernel
  have hmount : (mount 4 Handover.options Handover.session).1.toOption = some 0 := by decide +kernel
  rcases hrun : mount 4 Handover.options Handover.session with ⟨e | id, u'⟩
  · rw [hrun] at hmount
    cases hmount
  · exact directives_left _ [] Handover.staged hel hrun

/-- The attribute that a `v-bind` has put there is in the document when the view model has
    been made, and it is written. -/
theorem Play.directive_survives :
    (mount 4 Handover.options Handover.session).1.toOption = some 0 ∧
    Handover.session.stage.document = 0 ∧
    (Handover.session.viewModel Handover.options).el = some ⟨1, 0⟩ ∧
    ((mount 4 Handover.options Handover.session).2.stage.documentAt 0).Under ⟨1, 0⟩ ⟨2, 0⟩ ∧
    ((mount 4 Handover.options Handover.session).2.stage.documentAt 0).attributes ⟨2, 0⟩ =
      [("v-text", "x")] ∧
    Directive.Marked "v-text" ∧
    (((mount 4 Handover.options Handover.session).2.stage.documentAt 0).innerHtml? ⟨1, 0⟩).toOption =
      some "<p v-text=\"x\"></p>" := by
  have hchildren : ((mount 4 Handover.options Handover.session).2.stage.documentAt 0).children
      ⟨1, 0⟩ = [⟨2, 0⟩] := by decide +kernel
  refine ⟨?_, rfl, ?_, ⟨⟨2, 0⟩, hchildren ▸ List.mem_singleton_self _, .refl⟩, ?_, ⟨"text".toList, rfl⟩, ?_⟩
    <;> decide +kernel

end DataBinding
