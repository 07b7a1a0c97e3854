/-
  Where a template asks for data.

  A template that binds no markup of expressions is read from the top: each attribute of
  an element is a site, and the text that is put into an element is one too, since a
  text is bound wherever it comes from.

  * `Outline.sites`: the sites of a template, and `Outline.bound_of_mem_sites`: they are
    those of its bindings;
  * `Site.demands_congr`: what a site asks for depends on the shape of the data, and on
    the placeholders of the texts that are put into elements;
  * `Outline.Filled`: a template in which such texts are filled in, and
    `Filled.current?_eq`: what an element shows then.
-/
import DataBinding.Proofs.View.Demands

namespace DataBinding

open Outline (TextOnly)

variable {R L : Type}

/-! ## Bindings that replace what is below an element -/

namespace Filling

/-- What a binding puts in the place of the children of its element. -/
def ofBinding? (b : Binding) : Option Filling :=
  match b.facet with
  | .text => some (.text b.source)
  | .html => some (.html b.source)
  | .model | .attribute _ => none

theorem ofEntry_eq (node : NodeId) (entry : String × String) :
    ofEntry entry = (Binding.ofAttribute node entry).bind ofBinding? := by
  unfold ofEntry Binding.ofAttribute Directive.of?
  rcases Directive.parse entry.1 with e | _ | directive
  · rfl
  · rfl
  · cases directive <;> rfl

/-- No binding replaces what is below the element. -/
theorem ofBinding?_of_last?_none {node : NodeId} : ∀ {entries : List (String × String)},
    last? entries = none → ∀ b ∈ Binding.ofAttributes node entries, ofBinding? b = none
  | entry :: rest, h, b, hb => by
    rw [last?, Option.or_eq_none_iff, ofEntry_eq node] at h
    rw [Binding.ofAttributes, List.filterMap_cons] at hb
    cases hentry : Binding.ofAttribute node entry with
    | none =>
      rw [hentry] at hb
      exact ofBinding?_of_last?_none h.1 b hb
    | some b' =>
      rw [hentry] at hb h
      rcases List.mem_cons.1 hb with rfl | hb
      · exact h.2
      · exact ofBinding?_of_last?_none h.1 b hb

/-- What replaces it comes from a binding. -/
theorem exists_of_last? (node : NodeId) {g : Filling} : ∀ {entries : List (String × String)},
    last? entries = some g → ∃ b ∈ Binding.ofAttributes node entries, ofBinding? b = some g
  | entry :: rest, h => by
    rw [last?, Option.or_eq_some_iff, ofEntry_eq node] at h
    rw [Binding.ofAttributes, List.filterMap_cons]
    rcases h with h | ⟨-, h⟩
    · obtain ⟨b, hb, hg⟩ := exists_of_last? node h
      refine ⟨b, ?_, hg⟩
      split
      · exact hb
      · exact List.mem_cons_of_mem _ hb
    · obtain ⟨b, hentry, hg⟩ := Option.bind_eq_some_iff.1 h
      rw [hentry]
      exact ⟨b, List.mem_cons_self, hg⟩

end Filling

theorem Binding.shown_text (s : Store R) (root : MappingId) (node : NodeId) (source : String) :
    (⟨node, .text, source⟩ : Binding).shown s root = s.shownText root source := by
  unfold shown templated Store.shownText
  dsimp only [Facet.isText]
  cases Template.placeholders source <;> rfl

theorem Binding.node_of_mem_ofAttributes {node : NodeId} {entries : List (String × String)}
    {b : Binding} (h : b ∈ ofAttributes node entries) : b.node = node := by
  obtain ⟨entry, -, hentry⟩ := List.mem_filterMap.1 h
  obtain ⟨facet, -, rfl⟩ := Option.map_eq_some_iff.1 hentry
  rfl

/-! ## Where a template asks for data -/

/-- A binding puts its text into an element, in the place of what is there. -/
def Binding.PutsText (d : Document L) (b : Binding) : Prop :=
  b.facet = .text ∧ d.kind? b.node = some .element

namespace Outline

mutual

/-- Where a node and everything below it ask for data, in document order.  Where the
    text of an element is bound, its children are not reached, but the text that has
    replaced them is. -/
def sites : Outline → List Site
  | node id content children =>
    match content with
    | some (.element e) =>
      e.attributes.flatMap (Site.ofAttribute id) ++
        match Filling.last? e.attributes with
        | some (.text source) => [.inserted ⟨id, .text, source⟩]
        | some (.html _) => []
        | none => sitesAll children
    | some (.text text) =>
      if Template.hasPlaceholder text then [.binding ⟨id, .text, text⟩] else []
    | _ => sitesAll children

/-- Where nodes and everything below them ask for data. -/
def sitesAll : List Outline → List Site
  | [] => []
  | o :: rest => sites o ++ sitesAll rest

end

variable {n : NodeId} {e : Element} {children : List Outline}

/-- Without markup of expressions, the children of an element are replaced by the text
    of one of its bindings, or stay. -/
theorem bindings_element
    (h : ∀ b ∈ bindings (.node n (some (.element e)) children), b.facet ≠ .html) :
    (∃ source, Filling.last? e.attributes = some (.text source) ∧
      bindings (.node n (some (.element e)) children) = Binding.ofAttributes n e.attributes ∧
      ⟨n, .text, source⟩ ∈ Binding.ofAttributes n e.attributes) ∨
    Filling.last? e.attributes = none ∧
      (∀ b ∈ Binding.ofAttributes n e.attributes, b.facet ≠ .text) ∧
      bindings (.node n (some (.element e)) children) =
        Binding.ofAttributes n e.attributes ++ bindingsAll children := by
  have hown : ∀ b ∈ Binding.ofAttributes n e.attributes,
      b ∈ bindings (.node n (some (.element e)) children) := fun b hb => by
    rw [bindings]
    split
    · exact hb
    · exact List.mem_append_left _ hb
  cases hlast : Filling.last? e.attributes with
  | none =>
    have hnone : ∀ b ∈ Binding.ofAttributes n e.attributes, b.facet ≠ .text := fun b hb hfacet => by
      have := Filling.ofBinding?_of_last?_none hlast b hb
      rw [Filling.ofBinding?, hfacet] at this
      cases this
    refine .inr ⟨rfl, hnone, ?_⟩
    rw [bindings, if_neg]
    rw [List.any_eq_true]
    rintro ⟨b, hb, htext⟩
    cases hfacet : b.facet with
    | text => exact hnone b hb hfacet
    | _ =>
      rw [hfacet] at htext
      cases htext
  | some g =>
    obtain ⟨⟨node, facet, source⟩, hb, hg⟩ := Filling.exists_of_last? n hlast
    obtain rfl : node = n := Binding.node_of_mem_ofAttributes hb
    cases facet with
    | text =>
      obtain rfl := Option.some.inj hg
      refine .inl ⟨source, rfl, ?_, hb⟩
      rw [bindings, if_pos (List.any_eq_true.2 ⟨_, hb, rfl⟩)]
    | html => exact absurd rfl (h _ (hown _ hb))
    | model => cases hg
    | «attribute» name => cases hg

/-- A site is a binding of the outline, or the text of such a binding of an element. -/
def Bound (d : Document L) (bs : List Binding) : Site → Prop
  | .refusal _ => True
  | .binding b => b ∈ bs
  | .inserted b => b ∈ bs ∧ b.PutsText d

theorem Bound.mono {d : Document L} {bs bs' : List Binding} (h : ∀ b ∈ bs, b ∈ bs') :
    ∀ {site : Site}, Bound d bs site → Bound d bs' site
  | .refusal _, _ => trivial
  | .binding _, hb => h _ hb
  | .inserted _, ⟨hb, hrest⟩ => ⟨h _ hb, hrest⟩

mutual

/-- The sites of an outline are those of its bindings. -/
theorem bound_of_mem_sites {d : Document L} : ∀ {o : Outline}, d.Reads o →
    (∀ b ∈ o.bindings, b.facet ≠ .html) → ∀ site ∈ o.sites, Bound d o.bindings site
  | .node n (some (.element e)) children, hreads, hhtml, site, hsite => by
    obtain @⟨_, _, _, _, _, hnode, hchildren⟩ := hreads
    rw [sites, List.mem_append] at hsite
    have hcases := bindings_element hhtml
    rcases hsite with hsite | hsite
    · obtain ⟨entry, hentry, hsite⟩ := List.mem_flatMap.1 hsite
      unfold Site.ofAttribute at hsite
      split at hsite
      · rw [List.mem_singleton.1 hsite]
        trivial
      · obtain ⟨b, hb, rfl⟩ := Option.map_eq_some_iff.1 (Option.mem_toList.1 hsite)
        have hown : b ∈ Binding.ofAttributes n e.attributes :=
          List.mem_filterMap.2 ⟨entry, hentry, hb⟩
        rcases hcases with ⟨-, -, hbindings, -⟩ | ⟨-, -, hbindings⟩
        · exact hbindings ▸ hown
        · exact hbindings ▸ List.mem_append_left _ hown
    · rcases hcases with ⟨source, hlast, hbindings, hmem⟩ | ⟨hlast, -, hbindings⟩
      · rw [hlast, List.mem_singleton] at hsite
        subst hsite
        refine ⟨hbindings ▸ hmem, rfl, ?_⟩
        rw [Document.kind?, hnode]
        rfl
      · rw [hlast] at hsite
        rw [hbindings] at hhtml ⊢
        have hbelow : ∀ b ∈ bindingsAll children, b.facet ≠ .html := fun b hb =>
          hhtml b (List.mem_append_right _ hb)
        exact (bound_of_mem_sitesAll hchildren hbelow site hsite).mono
          fun b => List.mem_append_right _
  | .node n (some (.text text)) children, _, _, site, hsite => by
    rw [sites] at hsite
    rw [bindings]
    split at hsite
    next h =>
      rw [if_pos h, List.mem_singleton.1 hsite]
      exact List.mem_singleton_self _
    next => cases hsite
  | .node n (some .document) children, hreads, hhtml, site, hsite => by
    obtain ⟨-, hchildren⟩ := hreads
    exact bound_of_mem_sitesAll hchildren hhtml site hsite
  | .node n (some (.comment _)) children, hreads, hhtml, site, hsite => by
    obtain ⟨-, hchildren⟩ := hreads
    exact bound_of_mem_sitesAll hchildren hhtml site hsite
  | .node n none children, hreads, _, _, _ => by cases hreads

theorem bound_of_mem_sitesAll {d : Document L} : ∀ {os : List Outline}, (∀ o ∈ os, d.Reads o) →
    (∀ b ∈ bindingsAll os, b.facet ≠ .html) → ∀ site ∈ sitesAll os, Bound d (bindingsAll os) site
  | [], _, _, _, hsite => by cases hsite
  | o :: rest, hreads, hhtml, site, hsite => by
    rw [sitesAll, List.mem_append] at hsite
    rw [bindingsAll] at hhtml ⊢
    rw [List.forall_mem_append] at hhtml
    rcases hsite with hsite | hsite
    · exact (bound_of_mem_sites (hreads o List.mem_cons_self) hhtml.1 site hsite).mono
        fun b => List.mem_append_left _
    · exact (bound_of_mem_sitesAll (fun o' ho' => hreads o' (List.mem_cons_of_mem _ ho')) hhtml.2
        site hsite).mono fun b => List.mem_append_right _

end

end Outline

/-- A document reads as its template. -/
theorem Document.Linked.reads_template {d : Document L} (hd : d.Linked) {selector : String} :
    ∀ o ∈ d.template selector, d.Reads o := by
  unfold Document.template
  cases hfound : (d.querySelector? selector).bind d.outline? with
  | none => exact fun o ho => absurd ho List.not_mem_nil
  | some o =>
    obtain ⟨el, hel, ho⟩ := Option.bind_eq_some_iff.1 hfound
    obtain ⟨⟨-, hchildren⟩, rfl⟩ := hd.outline_of_query hel ho
    exact hchildren

/-! ## What sites ask for -/

theorem Store.SameData.shown {s s' : Store R} (h : s.SameData s') (root : MappingId) (b : Binding) :
    b.shown s' root = b.shown s root := by
  unfold Binding.shown
  rw [h.resolve, h.fill]

theorem Store.SameShape.shown {s s' : Store R} (h : s.SameShape s') (root : MappingId)
    (b : Binding) : SameEnd (b.shown s root) (b.shown s' root) := by
  unfold Binding.shown
  split
  · exact h.fill root b.source
  · exact (h.resolve root b.source).map _ _

/-- A site asks for the same in stores of the same shape if the texts that its binding
    puts into an element have the same placeholders. -/
theorem Site.demands_congr {s s' : Store R} (h : s.SameShape s') {root : MappingId}
    {d : Document L} {bs : List Binding}
    (hsame : ∀ b ∈ bs, b.PutsText d → ∀ text text', b.shown s root = .ok text →
      b.shown s' root = .ok text' → Template.placeholders text' = Template.placeholders text) :
    ∀ {site : Site}, Outline.Bound d bs site → site.demands s' root = site.demands s root
  | .refusal _, _ => rfl
  | .binding _, _ => rfl
  | .inserted b, ⟨hb, hputs⟩ => by
    have hshown := h.shown root b
    have htexts := hsame b hb hputs
    rw [demands, demands]
    generalize b.shown s root = found at hshown htexts
    generalize b.shown s' root = found' at hshown htexts
    cases hshown with
    | ok text text' => exact congrArg (List.map Except.ok) (htexts text text' rfl rfl)
    | error e => rfl

/-- What a site asks for is an expression of its binding, or in a placeholder of the
    text that the binding puts into its element. -/
theorem Site.of_mem_demands {s : Store R} {root : MappingId} {d : Document L} {bs : List Binding}
    {expression : String} : ∀ {site : Site}, Outline.Bound d bs site →
    .ok expression ∈ site.demands s root → ∃ b ∈ bs, expression ∈ b.expressions ∨
      b.PutsText d ∧ ∃ text, b.shown s root = .ok text ∧ expression ∈ Template.placeholders text
  | .refusal _, _, h => by
    rw [demands, List.mem_singleton] at h
    cases h
  | .binding b, hb, h => by
    obtain ⟨_, he, heq⟩ := List.mem_map.1 h
    obtain rfl := Except.ok.inj heq
    exact ⟨b, hb, .inl he⟩
  | .inserted b, ⟨hb, hputs⟩, h => by
    rw [demands] at h
    cases hshown : b.shown s root with
    | error e =>
      rw [hshown] at h
      cases h
    | ok text =>
      rw [hshown] at h
      obtain ⟨_, he, heq⟩ := List.mem_map.1 h
      obtain rfl := Except.ok.inj heq
      exact ⟨b, hb, .inr ⟨hputs, text, hshown, he⟩⟩

/-! ## Texts filled in -/

namespace Outline

mutual

/-- An outline has become another one, in which the text of an element is that of its
    binding, filled in. -/
def Filled (s : Store R) (root : MappingId) : Outline → Outline → Prop
  | .node n content os, .node n' content' os' =>
    n' = n ∧
      match content with
      | some (.element e) =>
        (∃ e', content' = some (.element e')) ∧
          match Filling.last? e.attributes with
          | some (.text source) =>
            ∃ text filled, s.shownText root source = .ok text ∧
              (s.fill root text).1 = .ok filled ∧ TextOnly os' filled
          | some (.html _) => True
          | none => FilledAll s root os os'
      | _ => FilledAll s root os os'

/-- Outlines have become others in this way, one by one. -/
def FilledAll (s : Store R) (root : MappingId) : List Outline → List Outline → Prop
  | [], [] => True
  | o :: os, o' :: os' => Filled s root o o' ∧ FilledAll s root os os'
  | [], _ :: _ | _ :: _, [] => False

end

section

variable {s : Store R} {root : MappingId} {d d' : Document L}

mutual

/-- An element that is the place of one text binding shows the text of this binding,
    filled in. -/
theorem Filled.current?_eq : ∀ {o o' : Outline}, Filled s root o o' → d.Reads o → d'.Reads o' →
    (∀ b ∈ o.bindings, b.facet ≠ .html) → ∀ b ∈ o.bindings, b.PutsText d →
    (∀ b' ∈ o.bindings, b'.node = b.node → b'.facet = .text → b' = b) →
      ∃ text filled, b.shown s root = .ok text ∧ (s.fill root text).1 = .ok filled ∧
        b.current? d' = some filled
  | .node n (some (.element e)) os, .node n' content' os', hfilled, hreads, hreads', hhtml, b, hb,
      hputs, hunique => by
    obtain ⟨rfl, ⟨e', rfl⟩, hfilled⟩ := hfilled
    obtain ⟨-, hchildren⟩ := hreads
    rcases bindings_element hhtml with ⟨source, hlast, hbindings, hmem⟩ | ⟨hlast, hown, hbindings⟩
    · rw [hbindings] at hb hunique
      have hnode := Binding.node_of_mem_ofAttributes hb
      obtain rfl := hunique _ hmem hnode.symm rfl
      rw [hlast] at hfilled
      obtain ⟨text, filled, htext, hfill, hbelow⟩ := hfilled
      refine ⟨text, filled, (Binding.shown_text _ _ _ _).trans htext, hfill, ?_⟩
      have hcontent := hreads'.textContent_eq hbelow
      obtain @⟨_, _, _, _, _, hnode', -⟩ := hreads'
      simp only [Binding.current?, hnode', Option.map_some, hcontent]
    · rw [hbindings] at hb hunique hhtml
      rw [hlast] at hfilled
      obtain ⟨-, hchildren'⟩ := hreads'
      rcases List.mem_append.1 hb with hb | hb
      · exact absurd hputs.1 (hown b hb)
      · exact FilledAll.current?_eq hfilled hchildren hchildren'
          (fun b' hb' => hhtml b' (List.mem_append_right _ hb')) b hb hputs
          fun b' hb' => hunique b' (List.mem_append_right _ hb')
  | .node n (some (.text text)) os, _, _, hreads, _, _, b, hb, ⟨_, hkind⟩, _ => by
    obtain @⟨_, _, _, _, _, hnode, -⟩ := hreads
    rw [bindings] at hb
    split at hb
    · obtain rfl := List.mem_singleton.1 hb
      rw [Document.kind?, hnode] at hkind
      cases hkind
    · cases hb
  | .node n (some .document) os, .node n' content' os', ⟨_, hfilled⟩, hreads, hreads', hhtml, b, hb,
      hputs, hunique => by
    obtain ⟨-, hchildren⟩ := hreads
    obtain ⟨-, hchildren'⟩ := hreads'
    exact FilledAll.current?_eq hfilled hchildren hchildren' hhtml b hb hputs hunique
  | .node n (some (.comment _)) os, .node n' content' os', ⟨_, hfilled⟩, hreads, hreads', hhtml, b, hb,
      hputs, hunique => by
    obtain ⟨-, hchildren⟩ := hreads
    obtain ⟨-, hchildren'⟩ := hreads'
    exact FilledAll.current?_eq hfilled hchildren hchildren' hhtml b hb hputs hunique
  | .node n none os, _, _, hreads, _, _, _, _, _, _ => by cases hreads

theorem FilledAll.current?_eq : ∀ {os os' : List Outline}, FilledAll s root os os' →
    (∀ o ∈ os, d.Reads o) → (∀ o ∈ os', d'.Reads o) →
    (∀ b ∈ bindingsAll os, b.facet ≠ .html) → ∀ b ∈ bindingsAll os, b.PutsText d →
    (∀ b' ∈ bindingsAll os, b'.node = b.node → b'.facet = .text → b' = b) →
      ∃ text filled, b.shown s root = .ok text ∧ (s.fill root text).1 = .ok filled ∧
        b.current? d' = some filled
  | [], _, _, _, _, _, _, hb, _, _ => by cases hb
  | o :: rest, o' :: rest', ⟨ho, hrest⟩, hreads, hreads', hhtml, b, hb, hputs, hunique => by
    rw [bindingsAll] at hb hhtml hunique
    rw [List.forall_mem_append] at hhtml hunique
    rw [List.forall_mem_cons] at hreads hreads'
    rcases List.mem_append.1 hb with hb | hb
    · exact ho.current?_eq hreads.1 hreads'.1 hhtml.1 b hb hputs hunique.1
    · exact hrest.current?_eq hreads.2 hreads'.2 hhtml.2 b hb hputs hunique.2

end

end

end Outline

end DataBinding
