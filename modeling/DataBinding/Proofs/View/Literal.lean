/-
  Texts of the data in a template.

  The text that is put into an element is bound like a text of the template.  So
  binding asks for the placeholders of such texts too, but for nothing else that is
  written in the data.

  * `Attains`: wherever outlines are laid, an effect asks for what is demanded;
  * `visitAll_asks`: binding asks for what the sites of its template ask for, and fills
    in the texts of the elements; so does making a view model (`Textual.mount_asks`);
  * `Play.text_literal`: making a view model depends on the texts of the data by their
    placeholders only, and an element shows a text as it is if filling it in does not
    change it;
  * `Play.text_reread`: what becomes of a text with a placeholder.
-/
import DataBinding.Proofs.Reactive.Observed
import DataBinding.Proofs.View.Sites
import DataBinding.Proofs.View.Termination

namespace DataBinding

open Effect (each Asks Met)
open Outline (preorderAll StandAll TextOnly)
open Document (Renewed)

/-! ## Binding a template -/

/-- Wherever outlines are laid, on the same data, an effect asks for what is demanded;
    if it answers, the outlines are renewed, and something holds of those that are there
    then. -/
def Attains (vm : ViewModel) (s : Store Reaction) (f : Play Unit) (os : List Outline)
    (demands : List Demand) (P : List Outline → Prop) : Prop :=
  ∀ ⦃u d⦄, s.SameData u.store → u.stage.documents[vm.document]? = some d → d.Laid os →
    (preorderAll os).Nodup →
    Asks vm.data demands f u fun _ u' =>
      ∃ d' os', u' = u.become u'.store vm.document d' ∧ Renewed d d' os os' ∧ P os'

namespace Attains

variable {id : ViewModelId} {vm : ViewModel} {s : Store Reaction} {depth : Nat} {o : Outline}
  {os : List Outline} {demands demands' : List Demand} {P P' : List Outline → Prop} {n : NodeId}

theorem mono {f : Play Unit} (h : Attains vm s f os demands P) (hP : ∀ os', P os' → P' os') :
    Attains vm s f os demands P' := by
  intro u d hs hstaged hlaid hnodup
  refine (h hs hstaged hlaid hnodup).mono fun _ u' _ hu' => ?_
  obtain ⟨d', os', hbecome, hr, hos'⟩ := hu'
  exact ⟨d', os', hbecome, hr, hP os' hos'⟩

theorem nil (h : P []) : Attains vm s (each (Play.visit id vm depth) ([].map Outline.id)) [] [] P := by
  intro u d _ hstaged hlaid _
  exact .pure ⟨d, [], (World.become_store hstaged).symm, hlaid.refl, h⟩

/-- An outline is bound, and then those that follow. -/
theorem cons (h : Attains vm s (Play.visit id vm depth o.id) [o] demands P)
    (h' : Attains vm s (each (Play.visit id vm depth) (os.map Outline.id)) os demands' P') :
    Attains vm s (each (Play.visit id vm depth) ((o :: os).map Outline.id)) (o :: os)
      (demands ++ demands') fun os' => ∃ o' rest, os' = o' :: rest ∧ P [o'] ∧ P' rest := by
  intro u d hs hstaged hlaid hnodup
  refine (h hs hstaged hlaid.head (Outline.nodup_head hnodup)).bind fun _ u₁ hmet hu₁ => ?_
  obtain ⟨d₁, os₁, hbecome, hr, hP⟩ := hu₁
  obtain ⟨o', rfl⟩ := hr.single
  have hstaged₁ : u₁.stage.documents[vm.document]? = some d₁ :=
    hbecome ▸ World.documents_become hstaged u₁.store d₁
  refine (h' (hs.trans hmet.data) hstaged₁ (hlaid.rest hnodup hr) (Outline.nodup_tail hnodup)).mono
    fun _ u₂ _ hu₂ => ?_
  obtain ⟨d₂, rest, hbecome', hr', hP'⟩ := hu₂
  refine ⟨d₂, o' :: rest, ?_, .cons hlaid hnodup hr hr', o', rest, rfl, hP, hP'⟩
  rw [hbecome', hbecome]
  exact World.become_become

/-- A text asks for its placeholders, and is filled in. -/
theorem text {text : String} :
    Attains vm s (Play.visit id vm depth n) [.node n (some (.text text)) os]
      ((Template.placeholders text).map .ok) fun os' =>
        ∃ filled, (s.fill vm.data text).1 = .ok filled ∧ os' = [.node n (some (.text filled)) []] := by
  intro u d hs hstaged hlaid _
  obtain rfl := hlaid.leaf rfl
  refine ((Play.compileNode_renders_text id hstaged hlaid).asks
    (Play.readTextNode_asks text)).followed fun _ u₁ hmet hu₁ => ?_
  obtain ⟨filled, v, d₁, hread, rfl, hr⟩ := hu₁
  have hfill := Play.readTextNode_ok hread
  have hsame : (u.store.fill vm.data text).1 = (s.fill vm.data text).1 := hs.fill vm.data text
  have hstaged₁ := World.documents_become hstaged v.store d₁
  cases depth with
  | zero => exact .exhausted rfl
  | succ depth =>
    have hchildren : d₁.children n = [] := by
      obtain ⟨hnode, -⟩ := hr.reads _ List.mem_cons_self
      exact Document.children_eq hnode
    refine .congr ?_ (Play.compile_succ hstaged₁ id depth n)
    rw [hchildren]
    exact .pure ⟨d₁, _, rfl, hr, filled, hsame ▸ hfill, rfl⟩

/-- The text that has been put into an element asks for its placeholders, and is filled
    in. -/
theorem ofText {text : String} (hos : StandAll os (Markup.ofText text)) :
    Attains vm s (each (Play.visit id vm depth) (os.map Outline.id)) os
      ((Template.placeholders text).map .ok) fun os' =>
        ∃ filled, (s.fill vm.data text).1 = .ok filled ∧ TextOnly os' filled := by
  rcases Outline.standAll_ofText hos with ⟨rfl, rfl⟩ | ⟨n, rfl⟩
  · exact .nil ⟨"", rfl, .inl ⟨rfl, rfl⟩⟩
  · have htext : Attains vm s (Play.visit id vm depth n) [.node n (some (.text text)) []]
        ((Template.placeholders text).map .ok) fun os' => ∃ filled,
          (s.fill vm.data text).1 = .ok filled ∧ os' = [.node n (some (.text filled)) []] := .text
    have hall := htext.cons (.nil (P := fun rest => rest = []) rfl)
    rw [List.append_nil] at hall
    refine hall.mono ?_
    rintro _ ⟨o', _, rfl, ⟨filled, hfilled, ho'⟩, rfl⟩
    exact ⟨filled, hfilled, .inr ⟨n, ho'⟩⟩

/-- An element asks for what its attributes ask for, and then for what is below it. -/
theorem element {e : Element}
    (h : ∀ depth os', Play.Refilled s vm.data e os os' →
      Attains vm s (each (Play.visit id vm depth) (os'.map Outline.id)) os' demands P) :
    Attains vm s (Play.visit id vm depth n) [.node n (some (.element e)) os]
      ((e.attributes.flatMap (Site.ofAttribute n)).flatMap (Site.demands s vm.data) ++ demands)
      fun os' => ∃ e' below, os' = [.node n (some (.element e')) below] ∧ P below := by
  intro u d hs hstaged hlaid _
  refine ((Play.compileNode_renders_element id hstaged hlaid).asks
    (Play.readAttributes_asks s)).bind fun _ u₁ hmet hu₁ => ?_
  obtain ⟨rs, v, d₁, hrs, rfl, os₁, hr⟩ := hu₁
  have hrefilled : Play.Refilled s vm.data e os os₁ :=
    Play.refilled_of_read (u := ⟨u.store, ()⟩) hs hrs hr.content
  have hstaged₁ := World.documents_become hstaged v.store d₁
  cases depth with
  | zero => exact .exhausted rfl
  | succ depth =>
    refine .congr ?_ (Play.compile_succ hstaged₁ id depth n)
    rw [hr.bears.children_eq]
    refine (h depth os₁ hrefilled (hs.trans hmet.data) hstaged₁ hr.bears.laid
      hr.bears.nodup).mono fun _ u₂ _ hu₂ => ?_
    obtain ⟨d₂, below, hbecome, hr', hP⟩ := hu₂
    obtain ⟨e', hr''⟩ := Renewed.element hr hr'
    exact ⟨d₂, _, hbecome.trans World.become_become, hr'', e', below, rfl, hP⟩

/-- Any other node asks for what is below it. -/
theorem other {content : NodeContent} (hcontent : content.kind ≠ .element ∧ content.kind ≠ .text)
    (h : ∀ depth, Attains vm s (each (Play.visit id vm depth) (os.map Outline.id)) os demands P) :
    Attains vm s (Play.visit id vm depth n) [.node n (some content) os] demands
      fun os' => ∃ below, os' = [.node n (some content) below] ∧ P below := by
  intro u d hs hstaged hlaid hnodup
  have hreads := hlaid.reads _ List.mem_cons_self
  have hnot : n ∉ preorderAll os := hreads.not_mem_children
  obtain @⟨_, parent, _, _, listeners, hnode, hchildren⟩ := hreads
  have hself : Play.compileNode id vm n u = (.ok (), u) :=
    Play.compileNode_other hstaged hnode hcontent.1 hcontent.2
  have hvisit : Play.visit id vm depth n u = Play.compile id vm depth n u := by
    rw [Play.visit, Effect.bind_apply, hself]
  cases depth with
  | zero => exact .exhausted (congrArg Prod.fst hvisit)
  | succ depth =>
    refine .congr ?_ (hvisit.trans (Play.compile_succ hstaged id depth n))
    rw [Document.children_eq hnode]
    refine (h depth hs hstaged ⟨hlaid.joined, hlaid.leafy, hchildren⟩
      (Outline.nodup_below hnodup)).mono fun _ u₁ _ hu₁ => ?_
    obtain ⟨d₁, below, hbecome, hr, hP⟩ := hu₁
    exact ⟨d₁, _, hbecome, .node hnode hnot (fun _ _ _ _ => rfl) (fun _ => .inl) hr, below, rfl, hP⟩

end Attains

section

variable {id : ViewModelId} {vm : ViewModel} {s : Store Reaction}

/-- The text that a binding has put into an element asks for its placeholders, and is
    filled in. -/
theorem inserted_asks {n : NodeId} {e : Element} {source : String} {os os' : List Outline}
    (hlast : Filling.last? e.attributes = some (.text source))
    (h : Play.Refilled s vm.data e os os') (depth : Nat) :
    Attains vm s (each (Play.visit id vm depth) (os'.map Outline.id)) os'
      (Site.demands s vm.data (.inserted ⟨n, .text, source⟩)) fun below =>
        ∃ text filled, s.shownText vm.data source = .ok text ∧
          (s.fill vm.data text).1 = .ok filled ∧ TextOnly below filled := by
  unfold Play.Refilled at h
  rw [hlast] at h
  obtain ⟨forest, hforest, hstand⟩ := h
  obtain ⟨text, hshown, rfl⟩ := Filling.eq_ofText hforest
  rw [Site.demands, Binding.shown_text, hshown]
  refine (Attains.ofText hstand).mono fun below hbelow => ?_
  obtain ⟨filled, hfilled, hbelow⟩ := hbelow
  exact ⟨text, filled, rfl, hfilled, hbelow⟩

/-- A text of the template asks for its placeholders. -/
theorem demands_text {n : NodeId} {text : String} {children : List Outline} :
    (Outline.sites (.node n (some (.text text)) children)).flatMap (Site.demands s vm.data) =
      (Template.placeholders text).map .ok := by
  rw [Outline.sites]
  cases hplaceholder : Template.hasPlaceholder text with
  | false =>
    rw [Template.placeholders_eq_nil.2 hplaceholder]
    rfl
  | true =>
    rw [← Binding.expressions_of_hasPlaceholder n hplaceholder, if_pos rfl, List.flatMap_singleton,
      Site.demands]

mutual

/-- An outline asks for what its sites ask for, and its texts are filled in. -/
theorem visit_asks : ∀ (o : Outline) (depth : Nat), (∀ b ∈ o.bindings, b.facet ≠ .html) →
    Attains vm s (Play.visit id vm depth o.id) [o] (o.sites.flatMap (Site.demands s vm.data))
      (Outline.FilledAll s vm.data [o])
  | .node n (some (.element e)) children, depth, hhtml => by
    rw [Outline.sites, List.flatMap_append]
    rcases Outline.bindings_element hhtml with ⟨source, hlast, -, -⟩ | ⟨hlast, -, hbindings⟩
    · rw [hlast, List.flatMap_singleton]
      refine (Attains.element fun depth _ hos' => inserted_asks hlast hos' depth).mono ?_
      rintro _ ⟨e', below, rfl, htext⟩
      refine ⟨⟨rfl, ⟨e', rfl⟩, ?_⟩, trivial⟩
      rw [hlast]
      exact htext
    · have hchildren : ∀ b ∈ Outline.bindingsAll children, b.facet ≠ .html := fun b hb =>
        hhtml b (hbindings ▸ List.mem_append_right _ hb)
      have hbelow : ∀ depth os', Play.Refilled s vm.data e children os' →
          Attains vm s (each (Play.visit id vm depth) (os'.map Outline.id)) os'
            ((Outline.sitesAll children).flatMap (Site.demands s vm.data))
            (Outline.FilledAll s vm.data children) := by
        intro depth os' hos'
        unfold Play.Refilled at hos'
        rw [hlast] at hos'
        have heq : os' = children := hos'
        exact heq ▸ visitAll_asks children depth hchildren
      rw [hlast]
      refine (Attains.element hbelow).mono ?_
      rintro _ ⟨e', below, rfl, hfilled⟩
      refine ⟨⟨rfl, ⟨e', rfl⟩, ?_⟩, trivial⟩
      rw [hlast]
      exact hfilled
  | .node n (some (.text text)) children, depth, _ => by
    rw [demands_text]
    intro u d hs hstaged hlaid hnodup
    obtain rfl := hlaid.leaf rfl
    refine (Attains.text hs hstaged hlaid hnodup).mono fun _ u' _ hu' => ?_
    obtain ⟨d', _, hbecome, hr, filled, -, rfl⟩ := hu'
    exact ⟨d', _, hbecome, hr, ⟨rfl, trivial⟩, trivial⟩
  | .node n (some .document) children, depth, hhtml => by
    refine (Attains.other ⟨by rintro ⟨⟩, by rintro ⟨⟩⟩ fun depth =>
      visitAll_asks children depth hhtml).mono ?_
    rintro _ ⟨below, rfl, hbelow⟩
    exact ⟨⟨rfl, hbelow⟩, trivial⟩
  | .node n (some (.comment _)) children, depth, hhtml => by
    refine (Attains.other ⟨by rintro ⟨⟩, by rintro ⟨⟩⟩ fun depth =>
      visitAll_asks children depth hhtml).mono ?_
    rintro _ ⟨below, rfl, hbelow⟩
    exact ⟨⟨rfl, hbelow⟩, trivial⟩
  | .node n none children, _, _ => by
    intro u d _ _ hlaid _
    cases hlaid.reads _ List.mem_cons_self

/-- **Outlines ask** for what their sites ask for, and their texts are filled in. -/
theorem visitAll_asks : ∀ (os : List Outline) (depth : Nat),
    (∀ b ∈ Outline.bindingsAll os, b.facet ≠ .html) →
    Attains vm s (each (Play.visit id vm depth) (os.map Outline.id)) os
      ((Outline.sitesAll os).flatMap (Site.demands s vm.data)) (Outline.FilledAll s vm.data os)
  | [], _, _ => .nil trivial
  | o :: rest, depth, hhtml => by
    rw [Outline.bindingsAll, List.forall_mem_append] at hhtml
    rw [Outline.sitesAll, List.flatMap_append]
    refine ((visit_asks o depth hhtml.1).cons (visitAll_asks rest depth hhtml.2)).mono ?_
    rintro _ ⟨o', rest', rfl, ho', hrest'⟩
    exact ⟨ho'.1, hrest'⟩

end

/-- Binding below a node asks for what the outlines below it ask for. -/
theorem compile_asks {u : World Reaction Stage} {d : Document Listener} {o : Outline}
    (hstaged : u.stage.documents[vm.document]? = some d) (hjoined : d.Joined) (hleafy : d.Leafy)
    (hreads : d.Reads o) (hhtml : ∀ b ∈ Outline.bindingsAll o.inner, b.facet ≠ .html) (depth : Nat) :
    Asks vm.data ((Outline.sitesAll o.inner).flatMap (Site.demands u.store vm.data))
      (Play.compile id vm depth o.id) u fun _ u' =>
        ∃ d' os', u' = u.become u'.store vm.document d' ∧ Renewed d d' o.inner os' ∧
          Outline.FilledAll u.store vm.data o.inner os' := by
  have hnodup := hreads.nodup_preorder hjoined.linked
  obtain @⟨n, parent, content, children, listeners, hnode, hchildren⟩ := hreads
  rw [Outline.preorder, List.nodup_cons] at hnodup
  cases depth with
  | zero => exact .exhausted rfl
  | succ depth =>
    refine .congr ?_ (Play.compile_succ hstaged id depth n)
    rw [Document.children_eq hnode]
    exact visitAll_asks children depth hhtml (.refl _) hstaged ⟨hjoined, hleafy, hchildren⟩ hnodup.2

end

/-! ## Making a view model -/

namespace Outline

mutual

/-- Without bindings of markup, no expression has its markup rendered. -/
theorem htmlSources_markup : ∀ {o : Outline}, (∀ b ∈ o.bindings, b.facet ≠ .html) →
    Markup.htmlSourcesAll o.markup = []
  | .node n (some (.element e)) children, h => by
    rw [markup, Markup.htmlSourcesAll, Markup.htmlSources, Markup.htmlSourcesAll, List.append_nil]
    rcases bindings_element h with ⟨source, hlast, -, -⟩ | ⟨hlast, -, hbindings⟩
    · rw [hlast]
    · rw [hlast]
      exact htmlSourcesAll_markupAll fun b hb => h b (hbindings ▸ List.mem_append_right _ hb)
  | .node n (some (.text _)) children, _ => rfl
  | .node n (some .document) children, h =>
    (htmlSourcesAll_markupAll h : Markup.htmlSourcesAll (markupAll children) = [])
  | .node n (some (.comment _)) children, _ => rfl
  | .node n none children, _ => rfl

theorem htmlSourcesAll_markupAll : ∀ {os : List Outline}, (∀ b ∈ bindingsAll os, b.facet ≠ .html) →
    Markup.htmlSourcesAll (markupAll os) = []
  | [], _ => rfl
  | o :: rest, h => by
    rw [bindingsAll, List.forall_mem_append] at h
    rw [markupAll, Markup.htmlSourcesAll_append, htmlSources_markup h.1, htmlSourcesAll_markupAll h.2]
    rfl

end

end Outline

/-- What is required of the world, the options and the document with which a view model
    is made: a tree, a mapping as the data, and a template that binds no markup of
    expressions. -/
structure Textual (u : World Reaction Stage) (options : Options Script) (d : Document Listener) :
    Prop where
  /-- The document is in use. -/
  staged : u.stage.documents[u.stage.document]? = some d
  joined : d.Joined
  leafy : d.Leafy
  /-- The document is a tree. -/
  tree : d.Treelike
  /-- The data is a mapping. -/
  data : ∃ members, options.data = .object members
  /-- No markup of expressions is bound. -/
  plain : ∀ b ∈ d.bindings options.el, b.facet ≠ .html

namespace Textual

open Play (mount)

variable {u : World Reaction Stage} {d : Document Listener} {options options' : Options Script}
  {depth : Nat}

/-- A view model that is made of such a template ends. -/
theorem mount_ends (h : Textual u options d) :
    ∃ n, ∀ depth, n ≤ depth → (mount depth options u).1 ≠ .error .exhausted := by
  have hsettles : Effect.Settles (fun depth => mount depth options) u fun _ => True := by
    refine Play.mount_settles h.tree h.staged h.joined h.leafy fun el hfound e he => ?_
    have hplain := h.plain
    obtain ⟨⟨n, content, children⟩, ho, -, rfl⟩ := h.tree.outline_of_query h.joined.linked hfound
    rw [Document.bindings, Document.template, hfound, Option.bind_some, ho] at hplain
    have hnone : Markup.htmlSourcesAll (Outline.markupAll children) = [] :=
      Outline.htmlSourcesAll_markupAll hplain
    rw [Play.innerMarkup_eq ho, Outline.innerMarkup, hnone] at he
    cases he
  obtain ⟨n, outcome, hne, hends⟩ := hsettles.ends
  exact ⟨n, fun depth hdepth => (hends depth hdepth).symm ▸ hne⟩

/-- What the template asks of the data of the view model. -/
def demands (u : World Reaction Stage) (options : Options Script) (d : Document Listener) :
    List Demand :=
  (Outline.sitesAll (d.template options.el)).flatMap
    (Site.demands (u.making options).store (u.viewModel options).data)

/-- **Making a view model** asks for what its template asks for, and fills in the texts
    of the elements. -/
theorem mount_asks (h : Textual u options d) (hend : (mount depth options u).1 ≠ .error .exhausted) :
    Met (u.viewModel options).data (demands u options d) (u.making options).store
        (mount depth options u).2.store (mount depth options u).1 ∧
      ∀ id, (mount depth options u).1 = .ok id → id = u.stage.viewModels.size ∧
        ∃ os', (∀ o ∈ os',
            ((mount depth options u).2.stage.documentAt u.stage.document).Reads o) ∧
          Outline.FilledAll (u.making options).store (u.viewModel options).data
            (d.template options.el) os' := by
  rcases hmount : mount depth options u with ⟨r, u'⟩
  rw [hmount] at hend
  obtain ⟨members, hdata⟩ := h.data
  have hplain := h.plain
  rw [Play.mount_apply (Play.reactiveData_object hdata), World.viewModel_el h.staged] at hmount
  unfold demands
  rw [Document.bindings] at hplain
  rw [Document.template] at hplain ⊢
  cases hfound : d.querySelector? options.el with
  | none =>
    rw [hfound] at hmount
    cases hmount
    refine ⟨⟨.refl _, (List.append_nil _).symm, rfl⟩, fun id hid =>
      ⟨(Except.ok.inj hid).symm, [], ?_, trivial⟩⟩
    exact fun o ho => absurd ho List.not_mem_nil
  | some el =>
    obtain ⟨o, ho, hreads, rfl⟩ := h.tree.outline_of_query h.joined.linked hfound
    rw [hfound, Option.bind_some, ho, Option.elim_some] at hplain
    rw [hfound] at hmount
    rw [Option.bind_some, ho, Option.elim_some]
    have hall : Asks (u.viewModel options).data
        ((Outline.sitesAll o.inner).flatMap
          (Site.demands (u.making options).store (u.viewModel options).data))
        (Play.compile u.stage.viewModels.size (u.viewModel options) depth o.id >>= fun _ =>
          pure u.stage.viewModels.size)
        (u.making options) fun id u' => id = u.stage.viewModels.size ∧
          ∃ d' os', u' = (u.making options).become u'.store u.stage.document d' ∧
            Renewed d d' o.inner os' ∧
            Outline.FilledAll (u.making options).store (u.viewModel options).data o.inner os' :=
      (compile_asks h.staged h.joined h.leafy hreads hplain depth).followed
        fun _ _ _ hu₁ => .pure ⟨rfl, hu₁⟩
    obtain ⟨hmet, hid⟩ := hall r u' hmount hend
    refine ⟨hmet, fun id hok => ?_⟩
    obtain ⟨rfl, d', os', hbecome, hrenewed, hfilled⟩ := hid id hok
    refine ⟨rfl, os', fun o' ho' => ?_, hfilled⟩
    have hstaged' : u'.stage.documents[u.stage.document]? = some d' :=
      hbecome ▸ World.documents_become (u := u.making options) h.staged u'.store d'
    rw [Stage.documentAt, hstaged']
    exact hrenewed.reads o' ho'

/-- Making data reactive makes no watcher. -/
theorem watching_making (h : Textual u options d) :
    (u.making options).store.watching = u.store.watching := by
  obtain ⟨members, hdata⟩ := h.data
  unfold World.making
  rw [hdata]
  exact Store.observe_keeps (P := fun s => s.watching = u.store.watching) (fun _ _ h => h)
    (fun _ _ h => h) (.object members) rfl

/-- What is watched besides comes from the bindings of the template, and from the texts
    that these put into elements. -/
theorem mount_watches (h : Textual u options d)
    (hend : (mount depth options u).1 ≠ .error .exhausted) :
    ∃ expressions,
      (mount depth options u).2.store.watching = u.store.watching ++ expressions ∧
      ∀ expression ∈ expressions, ∃ b ∈ d.bindings options.el, expression ∈ b.expressions ∨
        b.PutsText d ∧ ∃ text,
          b.shown (u.making options).store (u.viewModel options).data = .ok text ∧
          expression ∈ Template.placeholders text := by
  obtain ⟨hmet, -⟩ := h.mount_asks hend
  refine ⟨_, h.watching_making ▸ hmet.watching, fun expression he => ?_⟩
  obtain ⟨site, hsite, he⟩ := List.mem_flatMap.1 (Store.mem_of_mem_meet he)
  refine Site.of_mem_demands ?_ he
  exact Outline.bound_of_mem_sitesAll h.joined.linked.reads_template h.plain site hsite

/-- An element that is the place of one text binding shows the text of the data, filled
    in. -/
theorem mount_shows (h : Textual u options d) {id : ViewModelId}
    (hid : (mount depth options u).1 = .ok id) {b : Binding} (hb : b ∈ d.bindings options.el)
    (hputs : b.PutsText d)
    (hunique : ∀ b' ∈ d.bindings options.el, b'.node = b.node → b'.facet = .text → b' = b) :
    ∃ text filled, b.shown (u.making options).store (u.viewModel options).data = .ok text ∧
      ((u.making options).store.fill (u.viewModel options).data text).1 = .ok filled ∧
      b.current? ((mount depth options u).2.stage.documentAt u.stage.document) = some filled ∧
      (u.making options).store.SameData (mount depth options u).2.store := by
  have hend : (mount depth options u).1 ≠ .error .exhausted := by
    rw [hid]
    rintro ⟨⟩
  obtain ⟨hmet, hmounted⟩ := h.mount_asks hend
  obtain ⟨-, os', hreads', hfilled⟩ := hmounted id hid
  obtain ⟨text, filled, htext, hfill, hcurrent⟩ :=
    hfilled.current?_eq h.joined.linked.reads_template hreads' h.plain b hb hputs hunique
  exact ⟨text, filled, htext, hfill, hcurrent, hmet.data⟩

/-- Data of the same shape is made reactive alike. -/
theorem making_sameShape (h : Textual u options d) (h' : Textual u options' d)
    (hshape : options'.data.shape = options.data.shape) :
    (u.viewModel options').data = (u.viewModel options).data ∧
      (u.making options).store.SameShape (u.making options').store := by
  obtain ⟨members, hdata⟩ := h.data
  obtain ⟨members', hdata'⟩ := h'.data
  have hobserved := Store.observeMapping_shape members u.store
  have hobserved' := Store.observeMapping_shape members' u.store
  rw [← hdata] at hobserved
  rw [← hdata', hshape] at hobserved'
  obtain ⟨hroot, hstore⟩ := Prod.mk.inj (hobserved'.symm.trans hobserved)
  exact ⟨hroot, .of_shape hstore⟩

/-- Making a view model ends alike for data of the same shape, and watches the same
    expressions, if the texts that are put into elements have the same placeholders. -/
theorem mount_alike (h : Textual u options d) (h' : Textual u options' d)
    (hel : options'.el = options.el) (hshape : options'.data.shape = options.data.shape)
    (hsame : ∀ b ∈ d.bindings options.el, b.PutsText d → ∀ text text',
      b.shown (u.making options).store (u.viewModel options).data = .ok text →
      b.shown (u.making options').store (u.viewModel options').data = .ok text' →
      Template.placeholders text' = Template.placeholders text)
    (hend : (mount depth options u).1 ≠ .error .exhausted)
    (hend' : (mount depth options' u).1 ≠ .error .exhausted) :
    (mount depth options' u).1 = (mount depth options u).1 ∧
      (mount depth options' u).2.store.watching = (mount depth options u).2.store.watching := by
  obtain ⟨hroot, hstores⟩ := h.making_sameShape h' hshape
  have hdemands : demands u options' d = demands u options d := by
    unfold demands
    rw [hel, hroot]
    rw [hroot] at hsame
    refine List.flatMap_congr fun site hsite => Site.demands_congr hstores hsame ?_
    exact Outline.bound_of_mem_sitesAll h.joined.linked.reads_template h.plain site hsite
  have hmeet : (u.making options').store.meet (u.viewModel options').data (demands u options' d) =
      (u.making options).store.meet (u.viewModel options).data (demands u options d) := by
    rw [hroot, hdemands, hstores.meet]
  obtain ⟨hmet, hid⟩ := h.mount_asks hend
  obtain ⟨hmet', hid'⟩ := h'.mount_asks hend'
  refine ⟨?_, ?_⟩
  · have hresult := hmet'.result
    rw [hmeet, ← hmet.result] at hresult
    rcases hr : (mount depth options u).1 with e | id <;>
      rcases hr' : (mount depth options' u).1 with e' | id' <;> rw [hr, hr'] at hresult
    · exact congrArg Except.error (Except.error.inj hresult)
    · cases hresult
    · cases hresult
    · rw [(hid id hr).1, (hid' id' hr').1]
  · rw [hmet.watching, hmet'.watching, hmeet, h.watching_making, h'.watching_making]

end Textual

namespace Play

open Document (ofForest)

variable {u : World Reaction Stage} {d : Document Listener} {options options' : Options Script}

/-- **Texts of the data are taken literally** apart from their placeholders.  Let a
    template in a tree bind no markup of expressions, and let there be data of the same
    shape, of which the texts put into its elements have the same placeholders.  Making a view
    model then ends alike and watches the same expressions: those of the template, and
    those in these placeholders.  Once it is made, an element that is the place of one
    text binding shows the text of the data exactly if filling in its placeholders does
    not change it; so it does if there are none. -/
theorem text_literal (hreached : ∃ forest edits, (ofForest forest).run edits = d)
    (htree : d.Treelike)
    (hstaged : u.stage.documents[u.stage.document]? = some d) (hel : options'.el = options.el)
    (hdata : ∃ members, options.data = .object members)
    (hdata' : ∃ members, options'.data = .object members)
    (hshape : options'.data.shape = options.data.shape)
    (hhtml : ∀ b ∈ d.bindings options.el, b.facet ≠ .html)
    (hsame : ∀ b ∈ d.bindings options.el, b.PutsText d → ∀ text text',
      b.shown (u.making options).store (u.viewModel options).data = .ok text →
      b.shown (u.making options').store (u.viewModel options').data = .ok text' →
      Template.placeholders text' = Template.placeholders text) :
    ∃ n, ∀ depth, n ≤ depth →
      (mount depth options u).1 ≠ .error .exhausted ∧
      (mount depth options' u).1 = (mount depth options u).1 ∧
      (mount depth options' u).2.store.watching = (mount depth options u).2.store.watching ∧
      (∃ expressions,
        (mount depth options u).2.store.watching = u.store.watching ++ expressions ∧
        ∀ expression ∈ expressions, ∃ b ∈ d.bindings options.el, expression ∈ b.expressions ∨
          b.PutsText d ∧ ∃ text,
            b.shown (u.making options).store (u.viewModel options).data = .ok text ∧
            expression ∈ Template.placeholders text) ∧
      ∀ id, (mount depth options u).1 = .ok id → ∀ b ∈ d.bindings options.el, b.PutsText d →
        (∀ b' ∈ d.bindings options.el, b'.node = b.node → b'.facet = .text → b' = b) →
          ∃ text, b.shown (u.making options).store (u.viewModel options).data = .ok text ∧
            (b.Shows ((mount depth options u).2.stage.documentAt u.stage.document)
                (mount depth options u).2.store (u.viewModel options).data ↔
              ((u.making options).store.fill (u.viewModel options).data text).1 = .ok text) ∧
            (Template.hasPlaceholder text = false →
              b.Shows ((mount depth options u).2.stage.documentAt u.stage.document)
                (mount depth options u).2.store (u.viewModel options).data) := by
  obtain ⟨forest, edits, rfl⟩ := hreached
  have hjoined := (Document.joined_ofForest (L := Listener) forest).run edits
  have hleafy := (Document.leafy_ofForest (L := Listener) forest).run
    (Document.joined_ofForest forest) edits
  have h : Textual u options _ := ⟨hstaged, hjoined, hleafy, htree, hdata, hhtml⟩
  have h' : Textual u options' _ := ⟨hstaged, hjoined, hleafy, htree, hdata', hel ▸ hhtml⟩
  obtain ⟨n, hends⟩ := h.mount_ends
  obtain ⟨n', hends'⟩ := h'.mount_ends
  refine ⟨max n n', fun depth hdepth => ?_⟩
  have hend := hends depth (le_trans (le_max_left n n') hdepth)
  have hend' := hends' depth (le_trans (le_max_right n n') hdepth)
  obtain ⟨hresult, hwatching⟩ := h.mount_alike h' hel hshape hsame hend hend'
  refine ⟨hend, hresult, hwatching, h.mount_watches hend, fun id hid b hb hputs hunique => ?_⟩
  obtain ⟨text, filled, htext, hfill, hcurrent, hsameData⟩ := h.mount_shows hid hb hputs hunique
  have hshown := (hsameData.shown (u.viewModel options).data b).trans htext
  have hshows : b.Shows ((mount depth options u).2.stage.documentAt u.stage.document)
      (mount depth options u).2.store (u.viewModel options).data ↔
        ((u.making options).store.fill (u.viewModel options).data text).1 = .ok text := by
    rw [Binding.Shows, hshown, hcurrent, hfill]
    simp
  exact ⟨text, htext, hshows, fun hliteral => hshows.2 (Store.fill_of_literal _ _ hliteral)⟩

end Play

namespace Label

/-- An element in another, with the text of an expression. -/
def forest : List Markup := [.element "div" [] [.element "p" [("v-text", "a")] []]]

/-- The document of the markup. -/
def document : Document Listener := .ofForest forest

/-- A text under one key, and another one under the next. -/
def options (text : String) : Options Script :=
  .ofConfig "div" (.object [("a", .string text), ("b", .string "z")])

/-- The session in which a view model is made. -/
def session : Session := .start document .null false

/-- The binding of the element. -/
def binding : Binding := ⟨⟨2, 0⟩, .text, "a"⟩

/-- A text with a placeholder. -/
def template : String := "\x7b\x7b b \x7d\x7d"

/-- A text with a placeholder of which the expression does not resolve. -/
def unresolved : String := "\x7b\x7b b.c \x7d\x7d"

theorem bindings_eq : document.bindings "div" = [binding] := by decide +kernel

theorem shown_eq (text : String) : binding.shown (session.making (options text)).store
    (session.viewModel (options text)).data = .ok text := by
  have hplain : Template.placeholders "a" = [] := by decide +kernel
  have hvalue : ((session.making (options text)).store.resolve
      (session.viewModel (options text)).data "a").2 =
        .ok ((session.making (options text)).store.valueAt 0) :=
    Store.resolve_of_key (by decide +kernel) (by decide +kernel) rfl rfl
  rw [binding, Binding.shown_text, Store.shownText, hplain, hvalue]
  rfl

/-- The texts of data that have no placeholders have the same ones. -/
theorem same (text text' : String) (h : Template.placeholders text = [])
    (h' : Template.placeholders text' = []) :
    ∀ b ∈ document.bindings (options text).el, b.PutsText document → ∀ shown shown',
      b.shown (session.making (options text)).store
        (session.viewModel (options text)).data = .ok shown →
      b.shown (session.making (options text')).store
        (session.viewModel (options text')).data = .ok shown' →
      Template.placeholders shown' = Template.placeholders shown := by
  intro b hb _ shown shown' hshown hshown'
  rw [show document.bindings (options text).el = [binding] from bindings_eq,
    List.mem_singleton] at hb
  subst hb
  obtain rfl := Except.ok.inj ((shown_eq text).symm.trans hshown)
  obtain rfl := Except.ok.inj ((shown_eq text').symm.trans hshown')
  rw [h, h']

end Label

/-- A text without placeholders is shown as it is, whatever else there is in it. -/
theorem Play.text_literal_of_label : ∃ n, ∀ depth, n ≤ depth →
    (mount depth (Label.options "<b>y</b>") Label.session).1 =
      (mount depth (Label.options "x") Label.session).1 ∧
    ∀ id, (mount depth (Label.options "x") Label.session).1 = .ok id →
      Label.binding.Shows ((mount depth (Label.options "x") Label.session).2.stage.documentAt 0)
        (mount depth (Label.options "x") Label.session).2.store
        (Label.session.viewModel (Label.options "x")).data := by
  have hbindings : Label.document.bindings (Label.options "x").el = [Label.binding] :=
    Label.bindings_eq
  have hhtml : ∀ b ∈ Label.document.bindings (Label.options "x").el, b.facet ≠ .html := by
    rw [hbindings]
    decide
  have hputs : Label.binding.PutsText Label.document := ⟨rfl, by decide +kernel⟩
  have hmem : Label.binding ∈ Label.document.bindings (Label.options "x").el := by
    rw [hbindings]
    exact List.mem_singleton_self _
  have hunique : ∀ b ∈ Label.document.bindings (Label.options "x").el,
      b.node = Label.binding.node → b.facet = .text → b = Label.binding := by
    rw [hbindings]
    exact fun b hb _ _ => List.mem_singleton.1 hb
  have hel : (Label.options "<b>y</b>").el = (Label.options "x").el := rfl
  have hsame := Label.same "x" "<b>y</b>" (by decide +kernel) (by decide +kernel)
  obtain ⟨n, h⟩ := text_literal (d := Label.document) ⟨Label.forest, [], rfl⟩
    (Document.treelike_ofForest _) rfl hel ⟨_, rfl⟩
    ⟨_, rfl⟩ rfl hhtml hsame
  refine ⟨n, fun depth hdepth => ?_⟩
  obtain ⟨-, hresult, -, -, hshows⟩ := h depth hdepth
  refine ⟨hresult, fun id hid => ?_⟩
  obtain ⟨text, htext, -, hliteral⟩ := hshows id hid _ hmem hputs hunique
  obtain rfl := Except.ok.inj ((Label.shown_eq "x").symm.trans htext)
  exact hliteral (by decide +kernel)

/-- A text of the data that has a placeholder is bound like one of the template: the
    element does not show it, its expression is watched, and making the view model
    stops if this does not resolve. -/
theorem Play.text_reread :
    (mount 4 (Label.options Label.template) Label.session).1.toOption = some 0 ∧
    Label.binding.shown (Label.session.making (Label.options Label.template)).store
      (Label.session.viewModel (Label.options Label.template)).data = .ok Label.template ∧
    ((mount 4 (Label.options Label.template) Label.session).2.stage.documentAt 0).textContent
      Label.binding.node = "z" ∧
    (mount 4 (Label.options Label.template) Label.session).2.store.watching = ["a", "b"] ∧
    (mount 4 (Label.options Label.unresolved) Label.session).1.toOption = none := by
  refine ⟨?_, Label.shown_eq _, ?_, ?_, ?_⟩ <;> decide +kernel

end DataBinding
