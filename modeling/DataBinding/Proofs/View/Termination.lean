/-
  Which templates are bound to the end.

  Binding goes on below an element once its markup has been rendered, so markup in
  the data is bound too, and what it renders in turn.  With enough depth binding
  `Settles` if no expression of which the markup is rendered comes back to itself.

  * `Inserts`: from an expression to those in its markup, and `NoReturn`;
  * `Settled`: outlines that are bound to the end wherever they are laid;
  * `settled_all`: outlines are settled if the markup of their expressions is;
  * `compilation_settles`: binding below a node, and mounting, settle if no expression
    comes back;
  * `visit_exhausted`: an element whose markup is an element like itself is not bound
    to the end at any depth.
-/
import Mathlib.Data.Fintype.Card
import Mathlib.Data.Set.Finite.List
import DataBinding.Proofs.Document.Rooted
import DataBinding.Proofs.Reactive.Path
import DataBinding.Proofs.View.Compiling
import DataBinding.Session.Run

namespace DataBinding

open Effect (mapFault fail each)
open Relation (ReflTransGen TransGen)

variable {R σ α β : Type}

/-! ## Effects that settle -/

/-- With enough depth, an effect always ends in the same way, and not for want of
    depth; if it answers, something holds. -/
def Effect.Settles (f : Nat → Effect R σ α) (u : World R σ) (Q : World R σ → Prop) : Prop :=
  ∃ n r u', (∀ depth, n ≤ depth → f depth u = (r, u')) ∧ r ≠ .error .exhausted ∧
    ∀ x, r = .ok x → Q u'

namespace Effect.Settles

variable {f f' : Nat → Effect R σ α} {g : Nat → Effect R σ β} {u : World R σ}
  {Q Q' : World R σ → Prop}

theorem mono (h : Settles f u Q) (hQ : ∀ u', Q u' → Q' u') : Settles f u Q' := by
  obtain ⟨n, r, u', hf, hr, hu'⟩ := h
  exact ⟨n, r, u', hf, hr, fun x hx => hQ u' (hu' x hx)⟩

theorem answer {x : α} {u' : World R σ} (h : ∀ depth, f depth u = (.ok x, u')) (hu' : Q u') :
    Settles f u Q :=
  ⟨0, _, u', fun depth _ => h depth, by rintro ⟨⟩, fun _ _ => hu'⟩

theorem fault {e : Fault} {u' : World R σ} (h : ∀ depth, f depth u = (.error (.fault e), u')) :
    Settles f u Q :=
  ⟨0, _, u', fun depth _ => h depth, by rintro ⟨⟩, by rintro x ⟨⟩⟩

theorem bind (h : Settles f u Q) (h' : ∀ u', Q u' → Settles g u' Q') :
    Settles (fun depth => f depth >>= fun _ => g depth) u Q' := by
  obtain ⟨n, r, u₁, hf, hr, hu₁⟩ := h
  cases r with
  | error e =>
    refine ⟨n, .error e, u₁, fun depth hdepth => ?_, fun he => hr ?_, by rintro x ⟨⟩⟩
    · change (f depth >>= fun _ => g depth) u = _
      rw [bind_apply, hf depth hdepth]
    · exact congrArg _ (Except.error.inj he)
  | ok x =>
    obtain ⟨n', r', u₂, hg, hr', hu₂⟩ := h' u₁ (hu₁ x rfl)
    refine ⟨max n n', r', u₂, fun depth hdepth => ?_, hr', hu₂⟩
    change (f depth >>= fun _ => g depth) u = _
    rw [bind_apply, hf depth (le_trans (le_max_left n n') hdepth)]
    exact hg depth (le_trans (le_max_right n n') hdepth)

/-- One more level. -/
theorem succ (h : Settles f u Q) (hf' : ∀ depth, f' (depth + 1) u = f depth u) :
    Settles f' u Q := by
  obtain ⟨n, r, u', hf, hr, hu'⟩ := h
  refine ⟨n + 1, r, u', fun depth hdepth => ?_, hr, hu'⟩
  obtain ⟨k, rfl⟩ := Nat.exists_eq_add_of_le' hdepth
  rw [← Nat.add_assoc, hf', hf (k + n) (Nat.le_add_left n k)]

theorem congr {u₀ : World R σ} (h : Settles f u Q) (hf : ∀ depth, f' depth u₀ = f depth u) :
    Settles f' u₀ Q := by
  obtain ⟨n, r, u', h, hr, hu'⟩ := h
  exact ⟨n, r, u', fun depth hdepth => (hf depth).trans (h depth hdepth), hr, hu'⟩

theorem ends (h : Settles f u Q) :
    ∃ n outcome, outcome.1 ≠ .error .exhausted ∧ ∀ depth, n ≤ depth → f depth u = outcome := by
  obtain ⟨n, r, u', h, hr, -⟩ := h
  exact ⟨n, (r, u'), hr, h⟩

end Effect.Settles

/-- What renders settles as what it reads does. -/
theorem Renders.settles {document : DocumentId} {a : Play Unit} {b : Effect Reaction Unit α}
    {u : World Reaction Stage} {Q : α → Document Listener → Prop} (h : Renders document a b u Q)
    (hb : Effect.Consults b b) :
    Effect.Settles (fun _ => a) u fun u' => ∃ x v d, b ⟨u.store, ()⟩ = (.ok x, v) ∧
      u.store.SameData v.store ∧ u' = u.become v.store document d ∧ Q x d := by
  rcases hv : b ⟨u.store, ()⟩ with ⟨e | x, v⟩
  · obtain ⟨d, ha⟩ := h.of_error hv
    have hne := (hb.elim hv).1
    cases e with
    | exhausted => exact absurd rfl hne
    | fault f => exact .fault fun _ => ha
  · obtain ⟨d, ha, hx⟩ := h.of_ok hv
    exact .answer (fun _ => ha) ⟨x, v, d, rfl, (hb.elim hv).2, rfl, hx⟩

/-! ## Markup that renders markup -/

namespace Markup

mutual

/-- The expressions of which the markup is rendered in a node. -/
def htmlSources : Markup → List String
  | .text _ => []
  | .comment _ => []
  | .element _ attributes children =>
    match Filling.last? attributes with
    | some (.html expression) => [expression]
    | some (.text _) => []
    | none => htmlSourcesAll children

/-- The expressions of which the markup is rendered in nodes. -/
def htmlSourcesAll : List Markup → List String
  | [] => []
  | node :: rest => htmlSources node ++ htmlSourcesAll rest

end

theorem htmlSourcesAll_append (nodes rest : List Markup) :
    htmlSourcesAll (nodes ++ rest) = htmlSourcesAll nodes ++ htmlSourcesAll rest := by
  induction nodes with
  | nil => rfl
  | cons node nodes ih => rw [List.cons_append, htmlSourcesAll, htmlSourcesAll, ih, List.append_assoc]

end Markup

/-- The markup of an expression renders that of another one. -/
def Inserts (s : Store R) (root : MappingId) (expression expression' : String) : Prop :=
  ∃ forest, (Filling.html expression).forest s root = .ok forest ∧
    expression' ∈ Markup.htmlSourcesAll forest

/-- No expression comes back to itself of those that nodes of markup lead to. -/
def NoReturn (s : Store R) (root : MappingId) (forest : List Markup) : Prop :=
  ∀ e ∈ Markup.htmlSourcesAll forest, ∀ e', ReflTransGen (Inserts s root) e e' →
    ¬ TransGen (Inserts s root) e' e'

/-! ## Settled outlines -/

open Outline (preorderAll StandAll)
open Document (Laid Renewed Reworked)

/-- Wherever outlines are laid, on the same data, an effect settles, and renews them
    if it answers. -/
def Renews (vm : ViewModel) (s : Store Reaction) (f : Nat → Play Unit) (os : List Outline) : Prop :=
  ∀ ⦃u d⦄, s.SameData u.store → u.stage.documents[vm.document]? = some d → d.Laid os →
    (preorderAll os).Nodup →
    Effect.Settles f u fun u' =>
      ∃ s' d' os', u' = u.become s' vm.document d' ∧ s.SameData s' ∧ Renewed d d' os os'

/-- An outline that is bound to the end. -/
def Outline.Settled (id : ViewModelId) (vm : ViewModel) (s : Store Reaction) (o : Outline) : Prop :=
  Renews vm s (fun depth => Play.visit id vm depth o.id) [o]

/-- Outlines that are bound to the end, one after the other. -/
def Outline.AllSettled (id : ViewModelId) (vm : ViewModel) (s : Store Reaction)
    (os : List Outline) : Prop :=
  Renews vm s (fun depth => each (Play.visit id vm depth) (os.map Outline.id)) os

namespace Outline

variable {id : ViewModelId} {vm : ViewModel} {s : Store Reaction} {o : Outline}
  {os : List Outline} {n : NodeId}

theorem AllSettled.nil : AllSettled id vm s [] := by
  intro u d hs hstaged hlaid _
  exact .answer (fun _ => rfl) ⟨u.store, d, [], (World.become_store hstaged).symm, hs, hlaid.refl⟩

theorem AllSettled.cons (h : o.Settled id vm s) (h' : AllSettled id vm s os) :
    AllSettled id vm s (o :: os) := by
  intro u d hs hstaged hlaid hnodup
  refine (h hs hstaged hlaid.head (nodup_head hnodup)).bind ?_
  rintro u₁ ⟨s₁, d₁, os₁, rfl, hs₁, hr⟩
  obtain ⟨o', rfl⟩ := hr.single
  refine (h' hs₁ (World.documents_become hstaged _ _) (hlaid.rest hnodup hr) (nodup_tail hnodup)).mono ?_
  rintro u₂ ⟨s₂, d₂, os₂, rfl, hs₂, hr'⟩
  exact ⟨s₂, d₂, o' :: os₂, World.become_become, hs₂, .cons hlaid hnodup hr hr'⟩

/-- An element is settled if what is below it then is. -/
theorem Settled.element {e : Element}
    (h : ∀ os', Play.Refilled s vm.data e os os' → AllSettled id vm s os') :
    (node n (some (.element e)) os).Settled id vm s := by
  intro u d hs hstaged hlaid hnodup
  have hnode := (Play.compileNode_renders_element id hstaged hlaid).settles
    (Play.readAttributes_consults vm n e.attributes)
  refine hnode.bind ?_
  rintro u₁ ⟨rs, v, d₁, hrs, hv, rfl, os₁, hr⟩
  have hstaged₁ := World.documents_become hstaged v.store d₁
  have hbelow := h os₁ (Play.refilled_of_read (u := ⟨u.store, ()⟩) hs hrs hr.content)
  refine .succ ((hbelow (hs.trans hv) hstaged₁ hr.bears.laid hr.bears.nodup).mono ?_) fun depth => ?_
  · rintro u₂ ⟨s₂, d₂, os₂, rfl, hs₂, hr'⟩
    obtain ⟨e', hr''⟩ := Renewed.element hr hr'
    exact ⟨s₂, d₂, _, World.become_become, hs₂, hr''⟩
  · rw [Play.compile_succ hstaged₁, Outline.id, hr.bears.children_eq]

/-- A text is settled. -/
theorem Settled.text {text : String} : (node n (some (.text text)) os).Settled id vm s := by
  intro u d hs hstaged hlaid _
  obtain rfl := hlaid.leaf rfl
  have hnode := (Play.compileNode_renders_text id hstaged hlaid).settles
    (Play.readTextNode_consults vm n text)
  refine hnode.bind ?_
  rintro u₁ ⟨text', v, d₁, -, hv, rfl, hr⟩
  have hstaged₁ := World.documents_become hstaged v.store d₁
  refine (Effect.Settles.answer (f := fun _ => pure ()) (fun _ => rfl) ?_).succ fun depth => ?_
  · exact ⟨_, d₁, _, rfl, hs.trans hv, hr⟩
  · have hchildren : d₁.children n = [] := by
      obtain ⟨hnode, -⟩ := hr.reads _ List.mem_cons_self
      exact Document.children_eq hnode
    rw [Play.compile_succ hstaged₁, Outline.id, hchildren]
    rfl

/-- Any other node is settled if what is below it is. -/
theorem Settled.other {content : Option NodeContent}
    (hcontent : ∀ c, content = some c → c.kind ≠ .element ∧ c.kind ≠ .text)
    (h : AllSettled id vm s os) : (node n content os).Settled id vm s := by
  intro u d hs hstaged hlaid hnodup
  have hreads := hlaid.reads _ List.mem_cons_self
  have hnot : n ∉ preorderAll os := hreads.not_mem_children
  obtain @⟨_, parent, c, _, listeners, hnode, hchildren⟩ := hreads
  obtain ⟨helement, htext⟩ := hcontent c rfl
  have hself : Play.compileNode id vm n u = (.ok (), u) :=
    Play.compileNode_other hstaged hnode helement htext
  have hos := h hs hstaged ⟨hlaid.joined, hlaid.leafy, hchildren⟩ (nodup_below hnodup)
  refine (hos.mono ?_).succ fun depth => ?_
  · rintro u₁ ⟨s₁, d₁, os₁, rfl, hs₁, hr⟩
    exact ⟨s₁, d₁, _, rfl, hs₁, .node hnode hnot (fun _ _ _ _ => rfl) (fun _ => .inl) hr⟩
  · change (Play.compileNode id vm n >>= fun _ => Play.compile id vm (depth + 1) n) u = _
    rw [Effect.bind_apply, hself]
    dsimp only
    rw [Play.compile_succ hstaged, Document.children_eq hnode]

/-- There is nothing below a comment. -/
theorem Settled.comment {text : String} : (node n (some (.comment text)) os).Settled id vm s := by
  intro u d hs hstaged hlaid hnodup
  obtain rfl := hlaid.leaf rfl
  exact other (by rintro c ⟨⟩; exact ⟨nofun, nofun⟩) .nil hs hstaged hlaid hnodup

/-- A node that is gone is not laid. -/
theorem Settled.stale : (node n none os).Settled id vm s := by
  intro u d _ _ hlaid _
  cases hlaid.reads _ List.mem_cons_self

/-- What stands for a text is settled. -/
theorem AllSettled.ofText {text : String} (h : StandAll os (Markup.ofText text)) :
    AllSettled id vm s os := by
  rcases standAll_ofText h with ⟨-, rfl⟩ | ⟨n, rfl⟩
  · exact .nil
  · exact .cons .text .nil

end Outline

section

variable {id : ViewModelId} {vm : ViewModel} {s : Store Reaction} {K : String → Prop}

mutual

/-- An outline is settled if what stands for the markup of its expressions is. -/
theorem settled_node
    (hK : ∀ e, K e → ∀ forest, (Filling.html e).forest s vm.data = .ok forest →
      ∀ os, StandAll os forest → Outline.AllSettled id vm s os) :
    ∀ o : Outline, (∀ e ∈ Markup.htmlSourcesAll o.markup, K e) → o.Settled id vm s
  | .node n content children, h => by
    have hbelow := settled_all hK children
    rcases content with _ | _ | e | text | text
    · exact .stale
    · exact .other (by rintro c ⟨⟩; exact ⟨nofun, nofun⟩) (hbelow h)
    · refine .element fun os' hos' => ?_
      rw [Outline.markup, Markup.htmlSourcesAll, Markup.htmlSources, Markup.htmlSourcesAll,
        List.append_nil] at h
      unfold Play.Refilled at hos'
      rcases hlast : Filling.last? e.attributes with _ | source | expression
      · rw [hlast] at h hos'
        obtain rfl : os' = children := hos'
        exact hbelow h
      · rw [hlast] at hos'
        obtain ⟨forest, hforest, hstand⟩ := hos'
        obtain ⟨shown, -, rfl⟩ := Filling.eq_ofText hforest
        exact .ofText hstand
      · rw [hlast] at h hos'
        obtain ⟨forest, hforest, hstand⟩ := hos'
        exact hK expression (h expression List.mem_cons_self) forest hforest os' hstand
    · exact .text
    · exact .comment

/-- Outlines are settled if what stands for the markup of their expressions is. -/
theorem settled_all
    (hK : ∀ e, K e → ∀ forest, (Filling.html e).forest s vm.data = .ok forest →
      ∀ os, StandAll os forest → Outline.AllSettled id vm s os) :
    ∀ os : List Outline, (∀ e ∈ Markup.htmlSourcesAll (Outline.markupAll os), K e) →
      Outline.AllSettled id vm s os
  | [], _ => .nil
  | o :: rest, h => by
    rw [Outline.markupAll, Markup.htmlSourcesAll_append, List.forall_mem_append] at h
    exact .cons (settled_node hK o h.1) (settled_all hK rest h.2)

end

/-- What stands for the markup of an expression is settled if no way on from there
    goes on without end. -/
theorem settled_of_acc {e : String} (h : Acc (fun e' e => Inserts s vm.data e e') e) :
    ∀ forest, (Filling.html e).forest s vm.data = .ok forest →
      ∀ os, StandAll os forest → Outline.AllSettled id vm s os := by
  induction h with
  | intro e _ ih =>
    intro forest hforest os hos
    refine settled_all (K := Inserts s vm.data e) ih os fun e' he' => ⟨forest, hforest, ?_⟩
    rwa [Outline.markupAll_of_standAll hos] at he'

end

/-! ## Expressions that do not come back -/

/-- A way on from an element to finitely many others ends if none of these comes
    back to itself. -/
theorem acc_of_finite {r : α → α → Prop} {x : α} (hfinite : {y | ReflTransGen r x y}.Finite)
    (hreturn : ∀ y, ReflTransGen r x y → ¬ TransGen r y y) : Acc (fun y x => r x y) x := by
  have : Finite {y // ReflTransGen r x y} := hfinite
  let after : {y // ReflTransGen r x y} → {y // ReflTransGen r x y} → Prop :=
    fun y z => TransGen r z.1 y.1
  have : IsTrans _ after := ⟨fun _ _ _ hab hbc => hbc.trans hab⟩
  have : Std.Irrefl after := ⟨fun y => hreturn y.1 y.2⟩
  have hwf : WellFounded after := Finite.wellFounded_of_trans_of_irrefl after
  have hacc : ∀ y : {y // ReflTransGen r x y}, Acc (fun y x => r x y) y.1 := fun y => by
    induction y using hwf.induction with
    | h y ih => exact ⟨y.1, fun z hz => ih ⟨z, y.2.tail hz⟩ (.single hz)⟩
  exact hacc ⟨x, .refl⟩

namespace Store

/-- The values that expressions have. -/
def values (s : Store R) (root : MappingId) : List Value :=
  .mapping root :: .undefined :: (List.range s.slots.size).map s.valueAt

theorem valueAt_mem_values (s : Store R) (root : MappingId) (i : SlotId) :
    s.valueAt i ∈ s.values root := by
  by_cases hi : i < s.slots.size
  · exact .tail _ (.tail _ (List.mem_map_of_mem (List.mem_range.2 hi)))
  · have hnone : s.valueAt i = .undefined := by
      rw [valueAt, Array.getElem?_eq_none (Nat.le_of_not_lt hi)]
      rfl
    rw [hnone]
    exact .tail _ (.head _)

theorem mem_values_of_resolve {s : Store R} {root : MappingId} {expression : String} {v : Value}
    (h : (s.resolve root expression).2 = .ok v) : v ∈ s.values root := by
  rcases resolve_ok_cases h with rfl | rfl | ⟨i, rfl⟩
  · exact .head _
  · exact .tail _ (.head _)
  · exact valueAt_mem_values s root i

end Store

/-- There are finitely many expressions to go on to. -/
theorem finite_reachable (s : Store R) (root : MappingId) (e : String) :
    {e' | ReflTransGen (Inserts s root) e e'}.Finite := by
  let reachable := e :: (s.values root).flatMap fun v =>
    Markup.htmlSourcesAll (Markup.parseFragment (Facet.html.shown v))
  refine (List.finite_toSet reachable).subset fun e' he' => ?_
  rcases ReflTransGen.cases_tail he' with rfl | ⟨e₁, -, forest, hforest, he'⟩
  · exact .head _
  · rw [Filling.forest] at hforest
    cases hv : (s.resolve root e₁).2 with
    | error _ =>
      rw [hv] at hforest
      cases hforest
    | ok v =>
      rw [hv] at hforest
      obtain rfl := Except.ok.inj hforest
      exact .tail _ (List.mem_flatMap.2 ⟨v, Store.mem_values_of_resolve hv, he'⟩)

section

open Outline (AllSettled)

variable {id : ViewModelId} {vm : ViewModel} {s : Store Reaction} {os : List Outline}

/-- **Outlines are settled** if no expression comes back to itself. -/
theorem NoReturn.settled (h : NoReturn s vm.data (Outline.markupAll os)) : AllSettled id vm s os :=
  settled_all (K := fun e => e ∈ Markup.htmlSourcesAll (Outline.markupAll os))
    (fun e he => settled_of_acc (acc_of_finite (finite_reachable s vm.data e) (h e he))) os
    fun _ he => he

/-- Binding below a node of a document that reads as a tree settles. -/
theorem Play.compile_settles {u : World Reaction Stage} {d : Document Listener} {o : Outline}
    (hstaged : u.stage.documents[vm.document]? = some d) (hjoined : d.Joined) (hleafy : d.Leafy)
    (hreads : d.Reads o) (h : NoReturn u.store vm.data o.innerMarkup) :
    Effect.Settles (fun depth => compile id vm depth o.id) u fun _ => True := by
  have hnodup := hreads.nodup_preorder hjoined.linked
  obtain @⟨n, parent, content, children, listeners, hnode, hchildren⟩ := hreads
  rw [Outline.preorder, List.nodup_cons] at hnodup
  have hsettled : AllSettled id vm u.store children := h.settled
  refine ((hsettled (.refl _) hstaged ⟨hjoined, hleafy, hchildren⟩ hnodup.2).mono
    fun _ _ => trivial).succ fun depth => ?_
  rw [compile_succ hstaged, Outline.id, Document.children_eq hnode]

end

namespace Play

open Document (ofForest)

variable {u : World Reaction Stage} {d : Document Listener}

theorem innerMarkup_eq {node : NodeId} {o : Outline} (h : d.outline? node = some o) :
    d.innerMarkup node = o.innerMarkup := by
  rw [Document.innerMarkup, h]
  rfl

/-- Mounting settles if binding below the element does. -/
theorem mount_settles {options : Options Script} (htree : d.Treelike)
    (hstaged : u.stage.documents[u.stage.document]? = some d) (hjoined : d.Joined)
    (hleafy : d.Leafy)
    (h : ∀ el, d.querySelector? options.el = some el →
      NoReturn (u.store.observeMapping options.data).2 (u.store.observeMapping options.data).1
        (d.innerMarkup el)) :
    Effect.Settles (fun depth => mount depth options) u fun _ => True := by
  rcases reactiveData_cases options.data (u.viewModel options).el.isSome u with hdata | ⟨f, hdata⟩
  · cases hel : (u.viewModel options).el with
    | none =>
      have hmount : ∀ depth, mount depth options u =
          (.ok u.stage.viewModels.size, u.making options) := fun depth => by
        rw [mount_apply hdata, hel]
      exact .answer hmount trivial
    | some el =>
      have hfound : d.querySelector? options.el = some el :=
        (World.viewModel_el hstaged options).symm.trans hel
      obtain ⟨o, ho, hreads, rfl⟩ := htree.outline_of_query hjoined.linked hfound
      have hbelow : NoReturn (u.making options).store (u.viewModel options).data o.innerMarkup :=
        innerMarkup_eq ho ▸ h o.id hfound
      have hcompile : Effect.Settles (fun depth => compile u.stage.viewModels.size
          (u.viewModel options) depth o.id) (u.making options) fun _ => True :=
        compile_settles hstaged hjoined hleafy hreads hbelow
      have hpure : ∀ u', True → Effect.Settles
          (fun _ => (pure u.stage.viewModels.size : Play ViewModelId)) u' fun _ => True :=
        fun _ _ => .answer (fun _ => rfl) trivial
      refine (hcompile.bind hpure).congr fun depth => ?_
      rw [mount_apply hdata, hel]
  · exact .fault fun depth => mount_refused hdata

/-- **Compilation ends** on a document that is a tree, if no expression of which the
    markup is rendered comes back to itself: binding below any node, and making a
    view model, end in one and the same way at every depth that is great enough. -/
theorem compilation_ends (forest : List Markup) (edits : List (Document.Edit Listener))
    (htree : ((ofForest forest).run edits).Treelike) (u : World Reaction Stage) :
    (∀ id vm node, u.stage.documents[vm.document]? = some ((ofForest forest).run edits) →
      NoReturn u.store vm.data (((ofForest forest).run edits).innerMarkup node) →
      ∃ n outcome, outcome.1 ≠ .error .exhausted ∧
        ∀ depth, n ≤ depth → compile id vm depth node u = outcome) ∧
    (∀ options, u.stage.documents[u.stage.document]? = some ((ofForest forest).run edits) →
      (∀ el, ((ofForest forest).run edits).querySelector? options.el = some el →
        NoReturn (u.store.observeMapping options.data).2 (u.store.observeMapping options.data).1
          (((ofForest forest).run edits).innerMarkup el)) →
      ∃ n outcome, outcome.1 ≠ .error .exhausted ∧
        ∀ depth, n ≤ depth → mount depth options u = outcome) := by
  have hjoined := (Document.joined_ofForest forest).run edits
  have hleafy := (Document.leafy_ofForest forest).run (Document.joined_ofForest forest) edits
  refine ⟨fun id vm node hstaged hreturn => ?_, fun options hstaged hreturn => ?_⟩
  · obtain ⟨o, ho⟩ := Option.isSome_iff_exists.1 (htree.readable node)
    rw [innerMarkup_eq ho] at hreturn
    by_cases hlive : Document.Live ((ofForest forest).run edits) node
    · obtain ⟨hreads, rfl⟩ := hjoined.linked.reads hlive ho
      exact (compile_settles hstaged hjoined hleafy hreads hreturn).ends
    · have hnone : ((ofForest forest).run edits).children node = [] := by
        rw [Document.children, Option.not_isSome_iff_eq_none.1 hlive]
        rfl
      have hleaf : Effect.Settles (fun _ => (pure () : Play Unit)) u fun _ => True :=
        .answer (fun _ => rfl) trivial
      have hsucc : ∀ depth, compile id vm (depth + 1) node u = (pure () : Play Unit) u :=
        fun depth => by
          rw [compile_succ hstaged, hnone]
          rfl
      exact (hleaf.succ hsucc).ends
  · exact (mount_settles htree hstaged hjoined hleafy hreturn).ends

/-! ## Markup that is like its element -/

/-- An attribute for the markup of an expression that has a value is read. -/
theorem readAttributes_html {s : Store Reaction} {vm : ViewModel} {n : NodeId} {e : String} {v : Value}
    (h : (s.resolve vm.data e).2 = .ok v) :
    ∃ w, readAttributes vm n [("v-html", e)] ⟨s, ()⟩ = (.ok [(.html, v)], w) := by
  obtain ⟨w, hw⟩ : ∃ w, readValue vm n e .html ⟨s, ()⟩ = (.ok v, w) := readValue_of_ok h
  refine ⟨w, ?_⟩
  have hparse : Directive.parse "v-html" = .ok (some .html) := by rfl
  have hattribute : readAttribute vm n ("v-html", e) ⟨s, ()⟩ = (.ok (some (.html, v)), w) := by
    unfold readAttribute
    rw [hparse]
    dsimp only
    rw [readDirective, Effect.bind_apply, hw]
    rfl
  rw [readAttributes, Effect.bind_apply, hattribute]
  rfl

/-- An element with this attribute only is bound by rendering the markup. -/
theorem compileNode_html (id : ViewModelId) {vm : ViewModel} {s : Store Reaction} {e : String}
    {v : Value} (hv : (s.resolve vm.data e).2 = .ok v) {u : World Reaction Stage}
    {d : Document Listener} {n : NodeId} {os : List Outline} (hs : s.SameData u.store)
    (hstaged : u.stage.documents[vm.document]? = some d) (h : d.Bears n os)
    (hattributes : d.attributes n = [("v-html", e)]) :
    ∃ s₁ d₁ os₁, compileNode id vm n u = (.ok (), u.become s₁ vm.document d₁) ∧ s.SameData s₁ ∧
      d.Reworked d₁ n os os₁ (some (Markup.parseFragment (Facet.html.shown v))) := by
  obtain ⟨parent, element, listeners, hnode⟩ := h.here
  have hlaid : d.Laid [.node n (some (.element element)) os] :=
    ⟨h.joined, h.leafy, List.forall_mem_singleton.2 (.node hnode h.reads)⟩
  have hrenders := compileNode_renders_element id hstaged hlaid
  have hentries : element.attributes = [("v-html", e)] := by
    rw [← hattributes, Document.attributes, Document.element?, hnode]
    rfl
  obtain ⟨w, hw⟩ := readAttributes_html (n := n) ((hs.resolve vm.data e).symm ▸ hv)
  have hsame := ((readAttributes_consults vm n [("v-html", e)]).elim hw).2
  rw [hentries] at hrenders
  obtain ⟨d₁, hrun, os₁, hr⟩ := hrenders.of_ok hw
  exact ⟨w.store, d₁, os₁, hrun, hs.trans hsame, hr⟩

/-- **An element whose markup is an element like itself** is not bound to the end, at
    any depth. -/
theorem visit_exhausted (id : ViewModelId) {vm : ViewModel} {s : Store Reaction} {e tag : String}
    (hself : (Filling.html e).forest s vm.data = .ok [.element tag [("v-html", e)] []]) (depth : Nat) :
    ∀ {u : World Reaction Stage} {d : Document Listener} {n : NodeId} {os : List Outline},
      s.SameData u.store → u.stage.documents[vm.document]? = some d → d.Bears n os →
      d.attributes n = [("v-html", e)] → (visit id vm depth n u).1 = .error .exhausted := by
  obtain ⟨v, hv, hforest⟩ : ∃ v, (s.resolve vm.data e).2 = .ok v ∧
      Markup.parseFragment (Facet.html.shown v) = [.element tag [("v-html", e)] []] := by
    rw [Filling.forest] at hself
    cases hv : (s.resolve vm.data e).2 with
    | error _ =>
      rw [hv] at hself
      cases hself
    | ok v =>
      rw [hv] at hself
      exact ⟨v, rfl, Except.ok.inj hself⟩
  induction depth with
  | zero =>
    intro u d n os hs hstaged h hattributes
    obtain ⟨s₁, d₁, os₁, hnode, -⟩ := compileNode_html id hv hs hstaged h hattributes
    rw [visit, Effect.bind_apply, hnode]
    rfl
  | succ depth ih =>
    intro u d n os hs hstaged h hattributes
    obtain ⟨s₁, d₁, os₁, hnode, hs₁, hr⟩ := compileNode_html id hv hs hstaged h hattributes
    have hstaged₁ := World.documents_become hstaged s₁ d₁
    have hstand := hr.content
    rw [Option.elim_some, hforest] at hstand
    rcases os₁ with _ | ⟨⟨c, content, children⟩, _ | ⟨o, rest⟩⟩
    · exact hstand.elim
    · obtain ⟨⟨rfl, hchildren⟩, -⟩ := hstand
      have hbears := hr.bears.laid.bears
      have hattributes₁ : d₁.attributes c = [("v-html", e)] := by
        obtain ⟨hc, -⟩ := hr.bears.reads _ List.mem_cons_self
        rw [Document.attributes, Document.element?, hc]
        rfl
      rw [visit, Effect.bind_apply, hnode]
      dsimp only
      rw [compile_succ hstaged₁, hr.bears.children_eq]
      exact Effect.bind_error (ih hs₁ hstaged₁ hbears hattributes₁)
    · exact hstand.2.elim

end Play

namespace Chain

/-- An element in another, with the markup of an expression. -/
def forest : List Markup := [.element "div" [] [.element "p" [("v-html", "h")] []]]

/-- The markup of the expression has that of another one, in which there is none. -/
def options : Options Script :=
  .ofConfig "div" (.object [("h", .string "<p v-html=g></p>"), ("g", .string "<b>x</b>")])

/-- The session in which it is mounted. -/
def session : Session := .start (.ofForest forest) .null false

/-- The way from expression to expression. -/
theorem inserts {e e' : String} (he : e = "h" ∨ e = "g")
    (h : Inserts (session.making options).store (session.viewModel options).data e e') :
    e = "h" ∧ e' = "g" := by
  obtain ⟨forest, hforest, he'⟩ := h
  rcases he with rfl | rfl
  · rw [Filling.forest_of_key (i := 0) (by decide +kernel) (by decide +kernel) rfl rfl rfl] at hforest
    obtain rfl := Except.ok.inj hforest
    have hsources : Markup.htmlSourcesAll (Markup.parseFragment "<p v-html=g></p>") = ["g"] := by
      decide +kernel
    rw [hsources, List.mem_singleton] at he'
    exact ⟨rfl, he'⟩
  · rw [Filling.forest_of_key (i := 1) (by decide +kernel) (by decide +kernel) rfl rfl rfl] at hforest
    obtain rfl := Except.ok.inj hforest
    have hsources : Markup.htmlSourcesAll (Markup.parseFragment "<b>x</b>") = [] := by
      decide +kernel
    rw [hsources] at he'
    cases he'

theorem noReturn (el : NodeId)
    (hel : (Document.ofForest forest : Document Listener).querySelector? options.el = some el) :
    NoReturn (session.making options).store (session.viewModel options).data
      ((Document.ofForest forest : Document Listener).innerMarkup el) := by
  have hfound : (Document.ofForest forest : Document Listener).querySelector? options.el =
      some ⟨1, 0⟩ := by decide +kernel
  obtain rfl := Option.some.inj (hel.symm.trans hfound)
  have hsources : Markup.htmlSourcesAll
      ((Document.ofForest forest : Document Listener).innerMarkup ⟨1, 0⟩) = ["h"] := by
    decide +kernel
  intro e he e' hreach
  rw [hsources, List.mem_singleton] at he
  have hin : e' = "h" ∨ e' = "g" := by
    induction hreach with
    | refl => exact .inl he
    | tail _ hstep ih => exact .inr (inserts ih hstep).2
  intro hcycle
  obtain ⟨x, hx, hback⟩ := TransGen.head'_iff.1 hcycle
  obtain ⟨rfl, rfl⟩ := inserts hin hx
  rcases hback.cases_head with heq | ⟨y, hy, -⟩
  · exact absurd heq (by decide)
  · exact absurd (inserts (.inr rfl) hy).1 (by decide)

end Chain

/-- Markup that renders other markup is bound to the end. -/
theorem Play.compilation_ends_of_chain : ∃ n outcome, outcome.1 ≠ .error .exhausted ∧
    ∀ depth, n ≤ depth → mount depth Chain.options Chain.session = outcome := by
  have htree : (Document.ofForest Chain.forest : Document Listener).Treelike :=
    Document.treelike_ofForest _
  exact (compilation_ends Chain.forest [] htree Chain.session).2 Chain.options rfl Chain.noReturn

namespace Mirror

/-- An element in another, with the markup of an expression. -/
def markup : String := "<div><p v-html=h></p></div>"

/-- The markup of the expression is the element itself. -/
def options : Options Script := .ofConfig "div" (.object [("h", .string "<p v-html=h></p>")])

/-- The session in which it is mounted. -/
def session : Session := .start (.parse markup) .null false

theorem forest_eq : (Filling.html "h").forest (session.making options).store
    (session.viewModel options).data = .ok [.element "p" [("v-html", "h")] []] := by
  have hparsed : Markup.parseFragment "<p v-html=h></p>" = [.element "p" [("v-html", "h")] []] := by
    rfl
  rw [Filling.forest_of_key (i := 0) (by decide +kernel) (by decide +kernel) rfl (by rfl) (by rfl), hparsed]

end Mirror

/-- Mounting on a tree does not end if the markup of an element is the element
    itself. -/
theorem Play.compilation_unending :
    (Document.parse Mirror.markup : Document Listener).Treelike ∧
      ∀ depth, (mount depth Mirror.options Mirror.session).1 = .error .exhausted := by
  have hstaged : (Mirror.session.making Mirror.options).stage.documents[0]? =
      some (Document.parse Mirror.markup) := by
    change #[Document.parse Mirror.markup][0]? = some (Document.parse Mirror.markup)
    generalize Document.parse Mirror.markup = d
    rfl
  have hel : (Mirror.session.viewModel Mirror.options).el = some ⟨1, 0⟩ := by decide +kernel
  have hchildren : (Document.parse Mirror.markup : Document Listener).children ⟨1, 0⟩ =
      [⟨2, 0⟩] := by decide +kernel
  have hkind : (Document.parse Mirror.markup : Document Listener).kind? ⟨2, 0⟩ =
      some .element := by decide +kernel
  have hattributes : (Document.parse Mirror.markup : Document Listener).attributes ⟨2, 0⟩ =
      [("v-html", "h")] := by decide +kernel
  have hjoined : (Document.parse Mirror.markup : Document Listener).Joined :=
    Document.joined_ofForest _
  have hleafy : (Document.parse Mirror.markup : Document Listener).Leafy := Document.leafy_ofForest _
  have htree : (Document.parse Mirror.markup : Document Listener).Treelike :=
    Document.treelike_ofForest _
  generalize Document.parse Mirror.markup = d at *
  refine ⟨htree, fun depth => ?_⟩
  obtain ⟨o, ho⟩ := Option.isSome_iff_exists.1 (htree.readable ⟨2, 0⟩)
  have hlive : d.Live ⟨2, 0⟩ := by
    obtain ⟨node, hnode, -⟩ := Option.map_eq_some_iff.1 hkind
    exact .of_eq hnode
  obtain ⟨hreads, hid⟩ := hjoined.linked.reads hlive ho
  obtain ⟨os, hbears⟩ := Document.Bears.of_reads hjoined hleafy hreads (hid ▸ hkind)
  have hcompile : (compile 0 (Mirror.session.viewModel Mirror.options) depth ⟨1, 0⟩
      (Mirror.session.making Mirror.options)).1 = .error .exhausted := by
    cases depth with
    | zero => rfl
    | succ depth =>
      have hvisit := visit_exhausted 0 Mirror.forest_eq depth (.refl _) hstaged
        (hid ▸ hbears) hattributes
      rw [compile_succ hstaged, hchildren]
      exact Effect.bind_error hvisit
  rw [mount_apply (reactiveData_object rfl), hel]
  exact Effect.bind_error hcompile

end DataBinding
