/-
  Directive attributes while a template is bound.

  Binding an element drops each of its directive attributes in turn.  A `v-bind` may
  put an attribute there whose own name begins with `v-`; it stays, unless an attribute
  of this name is still to be bound (`Leftover`).

  * `Dressed.mem_keys_iff`: the marked attributes that are there in the end;
  * `Stripped`: elements below a node that have been bound, each of them in the template
    or in markup of the data;
  * `eachVisit_strips`: binding leaves outlines stripped, by induction on the bound on
    the depth and along the outlines.
-/
import DataBinding.Proofs.Document.Retexting
import DataBinding.Proofs.View.Template
import DataBinding.Proofs.View.Termination

namespace DataBinding

open Effect (each)
open Outline (preorderAll mem_preorder mem_preorderAll StandAll)
open Document (Renewed)

variable {R : Type}

/-! ## The attributes that are left -/

namespace Keyed

variable {α : Type} {entries : Keyed α} {key name : String}

theorem mem_keys_put {a : α} : name ∈ keys (put entries key a) ↔ name ∈ keys entries ∨ name = key := by
  rw [keys_put]
  split
  next h =>
    constructor
    · exact .inl
    · rintro (hname | rfl)
      · exact hname
      · exact h
  next => rw [List.mem_append, List.mem_singleton]

theorem mem_keys_erase : name ∈ keys (erase entries key) ↔ name ∈ keys entries ∧ name ≠ key := by
  unfold keys erase
  constructor
  · intro h
    obtain ⟨entry, hentry, rfl⟩ := List.mem_map.1 h
    obtain ⟨hmem, hne⟩ := List.mem_filter.1 hentry
    exact ⟨List.mem_map_of_mem hmem, by simpa using hne⟩
  · rintro ⟨h, hne⟩
    obtain ⟨entry, hentry, rfl⟩ := List.mem_map.1 h
    exact List.mem_map_of_mem (List.mem_filter.2 ⟨hentry, by simpa using hne⟩)

end Keyed

namespace Directive

variable {name target : String}

theorem not_marked_of_parse (h : parse name = .ok none) : ¬ Marked name := by
  rintro ⟨body, hbody⟩
  have hbody' : name.toList = 'v' :: '-' :: body := hbody.symm
  rw [parse_eq hbody'] at h
  generalize ofParts (String.ofList body) _ _ = parts at h
  cases parts <;> cases h

theorem marked_bind (target : String) : Marked ("v-bind:" ++ target) :=
  ⟨"bind:".toList ++ target.toList, by simp⟩

/-- The name that binds an attribute. -/
theorem parse_bind (h : target.isEmpty = false) :
    parse ("v-bind:" ++ target) = .ok (some (bind target)) := by
  have hbody : ("v-bind:" ++ target).toList = 'v' :: '-' :: ("bind:".toList ++ target.toList) := by
    simp
  rw [parse_eq hbody]
  have hname : ("bind:".toList ++ target.toList).takeWhile (· ≠ ':') = "bind".toList := by
    simp
  have hargument : (("bind:".toList ++ target.toList).dropWhile (· ≠ ':')).drop 1 =
      target.toList := by
    simp
  rw [hname, hargument, String.ofList_toList, String.ofList_toList, ofParts]
  simp [h]
  rfl

theorem Marked.isEmpty (h : Marked name) : name.isEmpty = false := by
  obtain ⟨body, hbody⟩ := h
  rw [← Bool.not_eq_true, String.isEmpty_iff]
  rintro rfl
  cases hbody

end Directive

/-- A `v-bind` puts an attribute there, and none of this name is bound after it. -/
def Leftover (entries : List (String × String)) (name : String) : Prop :=
  ∃ before expression after, entries = before ++ ("v-bind:" ++ name, expression) :: after ∧
    name ∉ Keyed.keys after

theorem leftover_nil {name : String} : ¬ Leftover [] name := by
  rintro ⟨before, expression, after, h, -⟩
  exact List.append_ne_nil_of_right_ne_nil _ (List.cons_ne_nil _ _) h.symm

theorem leftover_cons {entry : String × String} {rest : List (String × String)} {name : String} :
    Leftover (entry :: rest) name ↔
      entry.1 = "v-bind:" ++ name ∧ name ∉ Keyed.keys rest ∨ Leftover rest name := by
  constructor
  · rintro ⟨_ | ⟨first, before⟩, expression, after, h, hafter⟩
    · obtain ⟨rfl, rfl⟩ := List.cons.inj h
      exact .inl ⟨rfl, hafter⟩
    · obtain ⟨rfl, rfl⟩ := List.cons.inj h
      exact .inr ⟨before, expression, after, rfl, hafter⟩
  · rintro (⟨hname, hrest⟩ | ⟨before, expression, after, rfl, hafter⟩)
    · exact ⟨[], entry.2, rest, by rw [← hname]; rfl, hrest⟩
    · exact ⟨entry :: before, expression, after, rfl, hafter⟩

/-- **The marked attributes that are there in the end** are left over, or they were there
    and have not been bound. -/
theorem Dressed.mem_keys_iff {entries : List (String × String)} {attributes attributes' : Keyed String}
    (h : Dressed entries attributes attributes') {name : String} (hname : Directive.Marked name) :
    name ∈ Keyed.keys attributes' ↔
      Leftover entries name ∨ name ∈ Keyed.keys attributes ∧ name ∉ Keyed.keys entries := by
  induction h with
  | nil attributes =>
    have hnone : name ∉ Keyed.keys ([] : List (String × String)) := List.not_mem_nil
    simp only [leftover_nil, false_or, hnone, not_false_eq_true, and_true]
  | @plain entry rest _ _ hparse _ ih =>
    have hnot := Directive.not_marked_of_parse hparse
    have hne : name ≠ entry.1 := fun heq => hnot (heq ▸ hname)
    have hbind : entry.1 ≠ "v-bind:" ++ name := fun heq => hnot (heq ▸ Directive.marked_bind name)
    have hkeys : Keyed.keys (entry :: rest) = entry.1 :: Keyed.keys rest := rfl
    rw [ih, leftover_cons, hkeys, List.mem_cons]
    simp only [hbind, hne, false_and, false_or]
  | @directive entry rest attributes _ directive hparse text _ ih =>
    have hkeys : Keyed.keys (entry :: rest) = entry.1 :: Keyed.keys rest := rfl
    have hne : entry.1 = "v-bind:" ++ name → name ≠ entry.1 := by
      intro heq hself
      have hlength := congrArg String.length (hself.trans heq)
      rw [String.length_append] at hlength
      have : "v-bind:".length = 7 := rfl
      omega
    -- only this entry may put the attribute there
    have hdress : name ∈ Keyed.keys (directive.dress text attributes) ↔
        name ∈ Keyed.keys attributes ∨ entry.1 = "v-bind:" ++ name := by
      by_cases hbind : entry.1 = "v-bind:" ++ name
      · rw [hbind, Directive.parse_bind hname.isEmpty] at hparse
        obtain rfl := Option.some.inj (Except.ok.inj hparse)
        rw [Directive.dress, Keyed.mem_keys_put]
        simp only [hbind]
      · simp only [hbind, or_false]
        cases directive with
        | bind target =>
          rw [Directive.dress, Keyed.mem_keys_put]
          refine or_iff_left fun heq => hbind ?_
          rw [heq]
          exact Directive.eq_of_parse_bind hparse
        | _ => rfl
    rw [ih, Keyed.mem_keys_erase, hdress, leftover_cons, hkeys, List.mem_cons]
    grind

/-! ## Elements of a template and of markup -/

namespace Outline

mutual

/-- The elements in an outline. -/
def elements : Outline → List (NodeId × Element)
  | node n (some (.element e)) children => (n, e) :: elementsAll children
  | node _ _ children => elementsAll children

/-- The elements in outlines. -/
def elementsAll : List Outline → List (NodeId × Element)
  | [] => []
  | o :: rest => elements o ++ elementsAll rest

end

end Outline

namespace Markup

mutual

/-- The attributes of the elements in a node of markup. -/
def attributeLists : Markup → List (List (String × String))
  | .text _ => []
  | .comment _ => []
  | .element _ attributes children => attributes :: attributeListsAll children

/-- The attributes of the elements in nodes of markup. -/
def attributeListsAll : List Markup → List (List (String × String))
  | [] => []
  | node :: rest => attributeLists node ++ attributeListsAll rest

end

theorem attributeListsAll_append (nodes rest : List Markup) :
    attributeListsAll (nodes ++ rest) = attributeListsAll nodes ++ attributeListsAll rest := by
  induction nodes with
  | nil => rfl
  | cons node nodes ih =>
    rw [List.cons_append, attributeListsAll, attributeListsAll, ih, List.append_assoc]

theorem attributeListsAll_ofText (s : String) : attributeListsAll (ofText s) = [] := by
  unfold ofText
  split <;> rfl

end Markup

namespace Outline

mutual

/-- What stands for markup has its elements. -/
theorem attributes_of_stands : ∀ {o : Outline} {m : Markup}, o.Stands m →
    o.elements.map (fun entry => entry.2.attributes) = m.attributeLists
  | node _ _ _, .text _, ⟨rfl, rfl⟩ => rfl
  | node _ _ _, .comment _, ⟨rfl, rfl⟩ => rfl
  | node _ _ _, .element _ _ _, ⟨rfl, h⟩ => by
    rw [elements, List.map_cons, attributes_of_standAll h, Markup.attributeLists]

theorem attributes_of_standAll : ∀ {os : List Outline} {forest : List Markup},
    StandAll os forest →
    (elementsAll os).map (fun entry => entry.2.attributes) = Markup.attributeListsAll forest
  | [], [], _ => rfl
  | _ :: _, _ :: _, ⟨h, h'⟩ => by
    rw [elementsAll, List.map_append, attributes_of_stands h, attributes_of_standAll h',
      Markup.attributeListsAll]

end

theorem elementsAll_singleton (o : Outline) : elementsAll [o] = o.elements := by
  rw [elementsAll, elementsAll, List.append_nil]

theorem mem_elementsAll {x : NodeId} {e : Element} : ∀ {os : List Outline},
    (x, e) ∈ elementsAll os ↔ ∃ o ∈ os, (x, e) ∈ o.elements
  | [] => by simp [elementsAll]
  | o :: rest => by simp [elementsAll, @mem_elementsAll x e rest]

theorem mem_elements {x n : NodeId} {e : Element} {content : Option NodeContent}
    {children : List Outline} : (x, e) ∈ (node n content children).elements ↔
      x = n ∧ content = some (.element e) ∨ (x, e) ∈ elementsAll children := by
  rcases content with _ | _ | e' | s | s <;> simp [elements, eq_comm]

end Outline

namespace Document

variable {L : Type} {d : Document L}

/-- The elements in what a document reads as are those of the document. -/
theorem Reads.mem_elements_iff {o : Outline} (h : d.Reads o) {x : NodeId} {e : Element} :
    (x, e) ∈ o.elements ↔ x ∈ o.preorder ∧ d.element? x = some e := by
  induction h with
  | @node id parent content children listeners hnode hchildren ih =>
    have hcontent : content = .element e ↔ d.element? id = some e := by
      rw [element?, hnode, Option.bind_some]
      cases content <;> simp [NodeContent.element?]
    rw [Outline.mem_elements, Outline.mem_elementsAll, mem_preorder, Option.some.injEq, hcontent,
      or_and_right, ← exists_and_right]
    refine or_congr ⟨?_, ?_⟩ (exists_congr fun o => ?_)
    · rintro ⟨rfl, he⟩
      exact ⟨rfl, he⟩
    · rintro ⟨rfl, he⟩
      exact ⟨rfl, he⟩
    · rw [and_assoc]
      exact and_congr_right fun ho => ih o ho

end Document

/-! ## Binding a template -/

/-- Attributes of an element in the markup of an expression. -/
def Spliced (s : Store R) (root : MappingId) (K : String → Prop) (entries : List (String × String)) :
    Prop :=
  ∃ e forest, K e ∧ (Filling.html e).forest s root = .ok forest ∧
    entries ∈ Markup.attributeListsAll forest

/-- The elements of outlines have been bound: their attributes were the ones that they have
    in other outlines, or are some in a set. -/
def Stripped (T : List (String × String) → Prop) (os os' : List Outline) : Prop :=
  ∀ x e', (x, e') ∈ Outline.elementsAll os' → ∃ entries,
    ((∃ e, (x, e) ∈ Outline.elementsAll os ∧ e.attributes = entries) ∨ T entries) ∧
      Dressed entries entries e'.attributes

/-- Wherever outlines are laid, on the same data, an effect that answers renews the
    outlines, and their elements have been bound. -/
def Strips (vm : ViewModel) (s : Store Reaction) (T : List (String × String) → Prop) (f : Play Unit)
    (os : List Outline) : Prop :=
  ∀ ⦃u d u'⦄, s.SameData u.store → u.stage.documents[vm.document]? = some d → d.Laid os →
    (preorderAll os).Nodup → f u = (.ok (), u') →
    ∃ d' os', u' = u.become u'.store vm.document d' ∧ s.SameData u'.store ∧ Renewed d d' os os' ∧
      Stripped T os os'

theorem Stripped.cons {T : List (String × String) → Prop} {o o' : Outline} {os os' : List Outline}
    (h : Stripped T [o] [o']) (h' : Stripped T os os') : Stripped T (o :: os) (o' :: os') := by
  intro x e' hx
  rw [Outline.elementsAll, List.mem_append] at hx
  rcases hx with hx | hx
  · obtain ⟨entries, hfrom, hdressed⟩ := h x e' (by rwa [Outline.elementsAll_singleton])
    refine ⟨entries, hfrom.imp_left ?_, hdressed⟩
    rintro ⟨e, he, hentries⟩
    rw [Outline.elementsAll_singleton] at he
    exact ⟨e, List.mem_append_left _ he, hentries⟩
  · obtain ⟨entries, hfrom, hdressed⟩ := h' x e' hx
    refine ⟨entries, hfrom.imp_left ?_, hdressed⟩
    rintro ⟨e, he, hentries⟩
    exact ⟨e, List.mem_append_right _ he, hentries⟩

namespace Strips

variable {id : ViewModelId} {vm : ViewModel} {s : Store Reaction} {depth : Nat} {o : Outline}
  {os : List Outline} {T : List (String × String) → Prop} {n : NodeId}

theorem nil : Strips vm s T (each (Play.visit id vm depth) ([].map Outline.id)) [] := by
  intro u d u' hs hstaged hlaid _ hrun
  cases hrun
  exact ⟨d, [], (World.become_store hstaged).symm, hs, hlaid.refl, fun _ _ => nofun⟩

/-- An outline is bound, and then those that follow. -/
theorem cons (h : Strips vm s T (Play.visit id vm depth o.id) [o])
    (h' : Strips vm s T (each (Play.visit id vm depth) (os.map Outline.id)) os) :
    Strips vm s T (each (Play.visit id vm depth) ((o :: os).map Outline.id)) (o :: os) := by
  intro u d u' hs hstaged hlaid hnodup hrun
  obtain ⟨u₁, hfirst, hrest⟩ := Effect.each_cons_eq_ok.1 hrun
  obtain ⟨d₁, os₁, hbecome, hs₁, hr, hstripped⟩ :=
    h hs hstaged hlaid.head (Outline.nodup_head hnodup) hfirst
  obtain ⟨o', rfl⟩ := hr.single
  have hstaged₁ : u₁.stage.documents[vm.document]? = some d₁ :=
    hbecome ▸ World.documents_become hstaged u₁.store d₁
  obtain ⟨d₂, rest, hbecome', hs₂, hr', hstripped'⟩ :=
    h' hs₁ hstaged₁ (hlaid.rest hnodup hr) (Outline.nodup_tail hnodup) hrest
  refine ⟨d₂, o' :: rest, ?_, hs₂, .cons hlaid hnodup hr hr', hstripped.cons hstripped'⟩
  rw [hbecome', hbecome]
  exact World.become_become

/-- What binding a node leaves is bound further. -/
theorem below {u u₁ : World Reaction Stage} {d : Document Listener}
    (hrun : Play.compile id vm depth n u = (.ok (), u₁))
    (hstaged : u.stage.documents[vm.document]? = some d)
    (hchildren : d.children n = os.map Outline.id) (hs : s.SameData u.store) (hlaid : d.Laid os)
    (hnodup : (preorderAll os).Nodup)
    (h : ∀ k, depth = k + 1 → Strips vm s T (each (Play.visit id vm k) (os.map Outline.id)) os) :
    ∃ d' os', u₁ = u.become u₁.store vm.document d' ∧ s.SameData u₁.store ∧ Renewed d d' os os' ∧
      Stripped T os os' := by
  cases depth with
  | zero => cases hrun
  | succ k =>
    rw [Play.compile_succ hstaged, hchildren] at hrun
    exact h k rfl hs hstaged hlaid hnodup hrun

/-- A text has no elements. -/
theorem text {text : String} : Strips vm s T (Play.visit id vm depth n)
    [.node n (some (.text text)) os] := by
  intro u d u' hs hstaged hlaid _ hrun
  obtain rfl := hlaid.leaf rfl
  obtain ⟨⟨⟩, u₁, hnode, hcompile⟩ := Effect.bind_eq_ok.1 hrun
  obtain ⟨shown, v, d₁, hread, rfl, hr⟩ :=
    (Play.compileNode_renders_text id hstaged hlaid).answered hnode
  have hsame := ((Play.readTextNode_consults vm n text).elim hread).2
  have hchildren : d₁.children n = [] := by
    obtain ⟨hthere, -⟩ := hr.reads _ List.mem_cons_self
    exact Document.children_eq hthere
  cases depth with
  | zero => cases hcompile
  | succ k =>
    rw [Play.compile_succ (World.documents_become hstaged v.store d₁), hchildren] at hcompile
    cases hcompile
    refine ⟨d₁, _, rfl, hs.trans hsame, hr, fun x e' hx => ?_⟩
    cases hx

/-- An element is bound by its attributes, and then what is below it. -/
theorem element {e : Element}
    (h : ∀ k os', depth = k + 1 → Play.Refilled s vm.data e os os' →
      Strips vm s T (each (Play.visit id vm k) (os'.map Outline.id)) os')
    (hfill : ∀ os', Play.Refilled s vm.data e os os' → os' = os ∨
      ∀ entry ∈ Outline.elementsAll os', T entry.2.attributes) :
    Strips vm s T (Play.visit id vm depth n) [.node n (some (.element e)) os] := by
  intro u d u' hs hstaged hlaid _ hrun
  obtain ⟨⟨⟩, u₁, hnode, hcompile⟩ := Effect.bind_eq_ok.1 hrun
  obtain ⟨rs, v, d₁, hread, rfl, os₁, hr, hdressed⟩ :=
    (Play.compileNode_dresses id hstaged hlaid).answered hnode
  have hs₁ := hs.trans ((Play.readAttributes_consults vm n e.attributes).elim hread).2
  have hrefilled : Play.Refilled s vm.data e os os₁ :=
    Play.refilled_of_read (u := ⟨u.store, ()⟩) hs hread hr.content
  obtain ⟨d₂, os₂, hbecome, hs₂, hr', hstripped⟩ := below hcompile
    (World.documents_become hstaged v.store d₁) hr.bears.children_eq hs₁ hr.bears.laid
    hr.bears.nodup fun k hk => h k os₁ hk hrefilled
  obtain ⟨parent, e₁, listeners, hthere⟩ := hr.bears.here
  rw [Document.attributes_of_node hthere] at hdressed
  refine ⟨d₂, [.node n (some (.element e₁)) os₂], hbecome.trans World.become_become, hs₂,
    .node hthere hr.bears.not_mem hr.elsewhere hr.inside hr', fun x e' hx => ?_⟩
  rw [Outline.elementsAll_singleton, Outline.mem_elements] at hx
  rcases hx with ⟨rfl, he'⟩ | hx
  · cases he'
    refine ⟨e.attributes, .inl ⟨e, ?_, rfl⟩, hdressed⟩
    rw [Outline.elementsAll_singleton, Outline.mem_elements]
    exact .inl ⟨rfl, rfl⟩
  · obtain ⟨entries, hfrom, hdressed'⟩ := hstripped x e' hx
    refine ⟨entries, ?_, hdressed'⟩
    rcases hfrom with ⟨e₀, he₀, rfl⟩ | hT
    · rcases hfill os₁ hrefilled with rfl | hspliced
      · refine .inl ⟨e₀, ?_, rfl⟩
        rw [Outline.elementsAll_singleton, Outline.mem_elements]
        exact .inr he₀
      · exact .inr (hspliced _ he₀)
    · exact .inr hT

/-- Any other node leaves what is below it to be bound. -/
theorem other {content : NodeContent} (hcontent : content.kind ≠ .element ∧ content.kind ≠ .text)
    (h : ∀ k, depth = k + 1 → Strips vm s T (each (Play.visit id vm k) (os.map Outline.id)) os) :
    Strips vm s T (Play.visit id vm depth n) [.node n (some content) os] := by
  intro u d u' hs hstaged hlaid hnodup hrun
  have hreads := hlaid.reads _ List.mem_cons_self
  have hnot : n ∉ preorderAll os := hreads.not_mem_children
  obtain @⟨_, parent, _, _, listeners, hnode, hchildren⟩ := hreads
  obtain ⟨⟨⟩, u₁, hself, hcompile⟩ := Effect.bind_eq_ok.1 hrun
  rw [Play.compileNode_other hstaged hnode hcontent.1 hcontent.2] at hself
  cases hself
  obtain ⟨d₁, os₁, hbecome, hs₁, hr, hstripped⟩ := below hcompile hstaged
    (Document.children_eq hnode) hs ⟨hlaid.joined, hlaid.leafy, hchildren⟩
    (Outline.nodup_below hnodup) h
  refine ⟨d₁, [.node n (some content) os₁], hbecome, hs₁,
    .node hnode hnot (fun _ _ _ _ => rfl) (fun _ => .inl) hr, fun x e' hx => ?_⟩
  rw [Outline.elementsAll_singleton, Outline.mem_elements] at hx
  rcases hx with ⟨-, he'⟩ | hx
  · cases he'
    exact absurd rfl hcontent.1
  · obtain ⟨entries, hfrom, hdressed⟩ := hstripped x e' hx
    refine ⟨entries, hfrom.imp_left ?_, hdressed⟩
    rintro ⟨e, he, hentries⟩
    refine ⟨e, ?_, hentries⟩
    rw [Outline.elementsAll_singleton, Outline.mem_elements]
    exact .inr he

end Strips

section

variable {id : ViewModelId} {vm : ViewModel} {s : Store Reaction} {K : String → Prop}

/-- What is below an element once it is bound was there, or it is in the markup of an
    expression. -/
theorem refilled_spliced {e : Element} {n : NodeId} {os os' : List Outline}
    (hsources : ∀ x ∈ Markup.htmlSourcesAll (Outline.node n (some (.element e)) os).markup, K x)
    (h : Play.Refilled s vm.data e os os') :
    os' = os ∨ ∀ entry ∈ Outline.elementsAll os', Spliced s vm.data K entry.2.attributes := by
  rw [Outline.markup, Markup.htmlSourcesAll, Markup.htmlSources, Markup.htmlSourcesAll,
    List.append_nil] at hsources
  unfold Play.Refilled at h
  rcases hlast : Filling.last? e.attributes with _ | source | expression
  · rw [hlast] at h
    exact .inl h
  · rw [hlast] at h
    obtain ⟨forest, hforest, hstand⟩ := h
    obtain ⟨shown, -, rfl⟩ := Filling.eq_ofText hforest
    have hnone := Outline.attributes_of_standAll hstand
    rw [Markup.attributeListsAll_ofText, List.map_eq_nil_iff] at hnone
    exact .inr fun entry hentry => by simp [hnone] at hentry
  · rw [hlast] at h hsources
    obtain ⟨forest, hforest, hstand⟩ := h
    refine .inr fun entry hentry => ⟨expression, forest, hsources _ List.mem_cons_self, hforest, ?_⟩
    rw [← Outline.attributes_of_standAll hstand]
    exact List.mem_map_of_mem hentry

/-- The expressions of which the markup is rendered below an element once it is bound. -/
theorem refilled_sources
    (hK : ∀ e, K e → ∀ forest, (Filling.html e).forest s vm.data = .ok forest →
      ∀ e' ∈ Markup.htmlSourcesAll forest, K e')
    {e : Element} {n : NodeId} {os os' : List Outline}
    (hsources : ∀ x ∈ Markup.htmlSourcesAll (Outline.node n (some (.element e)) os).markup, K x)
    (h : Play.Refilled s vm.data e os os') :
    ∀ x ∈ Markup.htmlSourcesAll (Outline.markupAll os'), K x := by
  rw [Outline.markup, Markup.htmlSourcesAll, Markup.htmlSources, Markup.htmlSourcesAll,
    List.append_nil] at hsources
  unfold Play.Refilled at h
  rcases hlast : Filling.last? e.attributes with _ | source | expression
  · rw [hlast] at h hsources
    obtain rfl : os' = os := h
    exact hsources
  · rw [hlast] at h
    obtain ⟨forest, hforest, hstand⟩ := h
    obtain ⟨shown, -, rfl⟩ := Filling.eq_ofText hforest
    rw [Outline.markupAll_of_standAll hstand]
    unfold Markup.ofText
    split <;> exact fun _ => nofun
  · rw [hlast] at h hsources
    obtain ⟨forest, hforest, hstand⟩ := h
    rw [Outline.markupAll_of_standAll hstand]
    exact hK expression (hsources _ List.mem_cons_self) forest hforest

/-- **Binding strips outlines**, if the markup of an expression leads to no other
    expressions than those considered. -/
theorem eachVisit_strips
    (hK : ∀ e, K e → ∀ forest, (Filling.html e).forest s vm.data = .ok forest →
      ∀ e' ∈ Markup.htmlSourcesAll forest, K e') (depth : Nat) :
    ∀ os : List Outline, (∀ e ∈ Markup.htmlSourcesAll (Outline.markupAll os), K e) →
      Strips vm s (Spliced s vm.data K) (each (Play.visit id vm depth) (os.map Outline.id)) os := by
  induction depth using Nat.strong_induction_on with
  | h depth ih =>
    intro os
    induction os with
    | nil => exact fun _ => .nil
    | cons o os ih' =>
      intro hsources
      rw [Outline.markupAll, Markup.htmlSourcesAll_append, List.forall_mem_append] at hsources
      refine .cons ?_ (ih' hsources.2)
      obtain ⟨n, content, children⟩ := o
      rcases content with _ | _ | e | text | text
      · intro u d u' _ _ hlaid
        cases hlaid.reads _ List.mem_cons_self
      · exact .other ⟨by rintro ⟨⟩, by rintro ⟨⟩⟩ fun k hk => ih k (hk ▸ Nat.lt_succ_self k) children hsources.1
      · exact .element (fun k os' hk hos' => ih k (hk ▸ Nat.lt_succ_self k) os'
          (refilled_sources hK hsources.1 hos')) fun os' hos' => refilled_spliced hsources.1 hos'
      · exact .text
      · intro u d u' hs hstaged hlaid hnodup
        obtain rfl := hlaid.leaf rfl
        exact Strips.other ⟨by rintro ⟨⟩, by rintro ⟨⟩⟩ (fun _ _ => .nil) hs hstaged hlaid hnodup

end

end DataBinding
