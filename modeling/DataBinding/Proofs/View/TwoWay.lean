/-
  Values that are bound in both directions.

  However a mounted view has been used before, an input that answers is what the path reads
  and what the element holds; if every turn before has answered, it is what the other
  elements hold that are bound to the path and still watch the slot there
  (`Play.input_two_way`).
-/
import DataBinding.Proofs.View.Turns

namespace DataBinding

open Duty (modelsAt)
open Outline (preorderAll)

/-- An expression ends where another one does that differs in blanks around it. -/
theorem Store.Names.of_trim {R : Type} {s : Store R} {root : MappingId} {e e' : String}
    {i : SlotId} (h : s.Names root e i) (htrim : Text.trim e' = Text.trim e) :
    s.Names root e' i := by
  unfold Store.Names Store.resolve at h ⊢
  rwa [htrim]

/-- An element of the template that is there has its duty. -/
theorem Covered.mem_modelsAt {vm : ViewModel} {template : Document Listener}
    {u : World Reaction Stage} {d : Document Listener} {n : NodeId} (h : Covered vm template u d n)
    {entry : String × String} (hentry : entry ∈ template.attributes n)
    (hmodel : Directive.of? entry.1 = some .model) (hlive : (d.element? n).isSome = true) :
    ⟨vm.data, entry.2, .render vm.document n .model⟩ ∈
      modelsAt u.store.duties vm.document n := by
  obtain hgone | hmem := h entry hentry hmodel
  · rw [hgone] at hlive
    cases hlive
  · exact List.mem_filter.2 ⟨hmem, Reaction.models_iff.2 rfl⟩

namespace Play

variable {markup : String} {options : Options Script} {u u₁ u₂ : World Reaction Stage}
  {fuel : Nat} {vid : ViewModelId}

/-- A world is attuned to a view model that has been mounted, and the watchers agree. -/
theorem mount_attunes (hdocument : u.stage.documents[u.stage.document]? = some (.parse markup))
    (hwatchers : u.store.watchers = #[]) (hquiet : u.store.collecting = [])
    (hlayered : u.store.Layered)
    (hdirectives : Outline.EveryOf Modelled
      ((Document.parse markup : Document Listener).template options.el))
    (hmount : mount fuel options u = (.ok vid, u₁)) :
    ∃ d, Attuned (u.viewModel options) u₁ d ∧
      Agreeing (u.viewModel options).document u₁.store d ∧
      ∀ n ∈ preorderAll ((Document.parse markup : Document Listener).template options.el),
        Covered (u.viewModel options) (.parse markup) u₁ d n := by
  obtain ⟨d, ha, hcovered⟩ :=
    mount_assembles hdocument hwatchers hquiet hdirectives hmount
  obtain ⟨members, hmembers⟩ := u.store.observeMapping_eq options.data
  have hannexes : u.store.Annexes (u.making options).store := by
    change u.store.Annexes (u.store.observeMapping options.data).2
    rw [hmembers]
    exact .observe u.store (.object members)
  have hroot : (u.viewModel options).data < (u.making options).store.mappings.size := by
    change (u.store.observeMapping options.data).1 <
      (u.store.observeMapping options.data).2.mappings.size
    rw [hmembers]
    exact (Store.Outer.observe u.store (.object members) _ rfl).2
  refine ⟨d, ⟨⟨ha.quiet, ha.staged, ha.coupled⟩, ?_, ?_⟩, fun k w i hw _ _ _ => ?_, hcovered⟩
  · exact (hannexes.layered hlayered).congr ha.data.1 ha.data.2 ha.size
  · rwa [ha.data.1]
  · exact ha.shown w (Array.mem_toList_iff.2 (Array.mem_of_getElem? hw))

/-- **Two-way binding.**  Let a template be mounted on plain data, where there are no other
    watchers and the data that is there has no cycles, and let anything be written and
    entered, whatever it answers.  If an input to an element that is bound to an expression
    answers, the expression reads the text and the element holds it.  If all turns before
    have answered too, so does every other element that is bound to the same path and whose
    watcher is subscribed to the slot that the path ends at. -/
theorem input_two_way (hdocument : u.stage.documents[u.stage.document]? = some (.parse markup))
    (hwatchers : u.store.watchers = #[]) (hquiet : u.store.collecting = [])
    (hlayered : u.store.Layered)
    (hdirectives : Outline.EveryOf Modelled
      ((Document.parse markup : Document Listener).template options.el))
    (hmount : mount fuel options u = (.ok vid, u₁)) (turns : List Turn) {depth : Nat}
    {n : NodeId} (hn : n ∈ preorderAll ((Document.parse markup : Document Listener).template
      options.el))
    {name e : String} (hbound : (name, e) ∈ (Document.parse markup : Document Listener).attributes n)
    (hmodel : Directive.of? name = some .model)
    (hblank : ∀ c ∈ Text.trimChars e.toList, Text.isBlank c = false) {text : String}
    (hinput : input (Engine.ofDepth depth) (u.viewModel options).document n text
      (Turn.playAll (Engine.ofDepth depth) (u.viewModel options) turns u₁).2 = (.ok (), u₂)) :
    let parsed : Document Listener := .parse markup
    let vm := u.viewModel options
    getPath vm e u₂ = (.ok (.string text), u₂) ∧
    ∃ d, u₂.stage.documents[vm.document]? = some d ∧ d.value? n = some text ∧
    ∃ i, u₂.store.Names vm.data e i ∧
      ((∀ r ∈ (Turn.playAll (Engine.ofDepth depth) vm turns u₁).1, r = .ok ()) →
        ∀ n' ∈ preorderAll (parsed.template options.el), ∀ entry ∈ parsed.attributes n',
          Directive.of? entry.1 = some .model → Text.trim entry.2 = Text.trim e →
          (d.element? n').isSome = true → ∀ (k : WatcherId) (w : Watcher Reaction),
            u₂.store.watchers[k]? = some w → w.reaction = .render vm.document n' .model →
            k ∈ u₂.store.subscribers i → d.value? n' = some text) := by
  intro parsed vm
  obtain ⟨d₁, hattuned, hagreeing, hcovered⟩ :=
    mount_attunes hdocument hwatchers hquiet hlayered hdirectives hmount
  obtain ⟨results, u', d', hplayed, hcontinued⟩ := hattuned.playAll depth turns
  rw [hplayed] at hinput ⊢
  obtain ⟨r, u₃, s, d₂, d, hr, hentering⟩ := hcontinued.attuned.input n text depth
  obtain ⟨rfl, rfl⟩ := Prod.mk.inj (hr.symm.trans hinput)
  have hlast := hentering.continued hcontinued.attuned
  have hlive : (d'.element? n).isSome = true := by
    rw [← Option.isSome_map (f := Element.value)]
    exact (hentering.done rfl).1
  obtain ⟨hresolve, hentered, i, hnames, huptodate⟩ := hentering.bound hcontinued.attuned
    (((hcovered n hn).mono hcontinued.furthered).mem_modelsAt hbound hmodel hlive) hblank
  refine ⟨?_, d, hlast.attuned.staged, Document.value?_of_entered hentered, i, hnames, ?_⟩
  · unfold getPath Effect.mapFault
    rw [Effect.getPath_apply, hresolve, Store.trackAll_of_not_collecting _ hlast.attuned.quiet]
    rfl
  · intro hanswered n' hn' entry hentry hmodel' htrim hlive' k w hw hreaction hk
    have hentered' : (d.entered? n').isSome = true := by
      rw [Document.entered?, Option.isSome_map]
      exact hlive'
    -- the watcher is the one that the element asks for
    have hduty : w.duty = ⟨vm.data, entry.2, .render vm.document n' .model⟩ := by
      refine hlast.attuned.duty_unique hentered' ?_ (Covered.mem_modelsAt ?_ hentry hmodel' hlive')
      · exact List.mem_filter.2 ⟨Store.mem_duties hw, Reaction.models_iff.2 hreaction⟩
      · exact (hcovered n' hn').mono (hcontinued.furthered.trans hlast.furthered)
    obtain ⟨hroot, hexpression, -⟩ := Duty.mk.inj hduty
    have hagrees := hlast.agreeing rfl (hcontinued.agreeing hanswered hagreeing)
    obtain ⟨t, ht⟩ := Option.isSome_iff_exists.1 hentered'
    have hchars : Text.trimChars w.expression.toList = Text.trimChars e.toList := by
      rw [hexpression]
      exact String.ofList_injective htrim
    have hnames' : u₃.store.Names w.root w.expression i := by
      rw [hroot, hexpression]
      exact hnames.of_trim htrim
    have hshown := hagrees k w i hw (hchars ▸ hblank) hnames' hk n' hreaction t ht
    have hvalue : w.value = .string text := (huptodate k hk w hw).eq_string (by
      rw [hroot, hexpression, (hnames.of_trim htrim).value, ← hresolve, hnames.value])
    rw [hshown, hvalue] at ht
    exact Document.value?_of_entered ht

end Play

/-! ## Two elements of input for one path -/

namespace Twins

/-- Two elements of input for the same path. -/
def markup : String := "<p><input v-model=a.b><input v-model=' a.b '></p>"

/-- The options with which they are mounted. -/
def options : Options Script := ⟨"p", .object [("a", .object [("b", .string "x")])], []⟩

/-- The world in which they have been parsed. -/
def world : World Reaction Stage where
  store := .empty
  stage := ⟨#[.parse markup], 0, #[], ⟨0, [], [], [], [], [], "", [], false⟩⟩

/-- A write to the path, and an input to the second element. -/
def turns : List Turn := [.path "a.b" (.string "y"), .input ⟨3, 0⟩ "z"]

/-- The world after the turns, and how they end. -/
def played (u : World Reaction Stage) : List (Except Stop Unit) × World Reaction Stage :=
  Turn.playAll (Engine.ofDepth 4) (world.viewModel options) turns u

/-- The world after an input to the first element, and how that ends. -/
def ended (u : World Reaction Stage) : Except Stop Unit × World Reaction Stage :=
  Play.input (Engine.ofDepth 4) (world.viewModel options).document ⟨2, 0⟩ "t" (played u).2

theorem document : world.stage.documents[world.stage.document]? = some (.parse markup) := by
  change #[Document.parse markup][0]? = some (Document.parse markup)
  generalize Document.parse markup = d
  rfl

/-- Everything answers; in the end the path ends at the first slot, the watchers of both
    elements are subscribed to it, and the second element is there. -/
theorem plays : ∃ u₁ u₂, Play.mount 4 options world = (.ok 0, u₁) ∧ ended u₁ = (.ok (), u₂) ∧
    (∀ r ∈ (played u₁).1, r = .ok ()) ∧
    (u₂.store.resolve (world.viewModel options).data "a.b").1 = [1, 0] ∧
    u₂.store.subscribers 0 = [0, 1] ∧
    (u₂.store.watchers[1]?.map fun w => w.reaction.models 0 ⟨3, 0⟩) = some true ∧
    (u₂.stage.documents[0]?.map fun d => (d.element? ⟨3, 0⟩).isSome) = some true := by
  have hruns : (Play.mount 4 options world).1.toOption = some 0 ∧
      (played (Play.mount 4 options world).2).1.map Except.toOption = [some (), some ()] ∧
      (ended (Play.mount 4 options world).2).1.toOption = some () ∧
      ((ended (Play.mount 4 options world).2).2.store.resolve
        (world.viewModel options).data "a.b").1 = [1, 0] ∧
      (ended (Play.mount 4 options world).2).2.store.subscribers 0 = [0, 1] ∧
      ((ended (Play.mount 4 options world).2).2.store.watchers[1]?.map fun w =>
        w.reaction.models 0 ⟨3, 0⟩) = some true ∧
      ((ended (Play.mount 4 options world).2).2.stage.documents[0]?.map fun d =>
        (d.element? ⟨3, 0⟩).isSome) = some true := by
    decide +kernel
  obtain ⟨hmount, hplayed, hended, hresolve, hsubscribers, hwatcher, hlive⟩ := hruns
  refine ⟨_, _, Effect.eq_ok_of_toOption hmount, Effect.eq_ok_of_toOption hended, fun r hr => ?_,
    hresolve, hsubscribers, hwatcher, hlive⟩
  have hmem := List.mem_map_of_mem (f := Except.toOption) hr
  rw [hplayed] at hmem
  cases r with
  | error stop => simp [Except.toOption] at hmem
  | ok done => rfl

end Twins

/-- What is entered in one of two elements is what the other one holds. -/
theorem Play.input_two_way_of_twins : ∃ u₁ u₂ d,
    mount 4 Twins.options Twins.world = (.ok 0, u₁) ∧ Twins.ended u₁ = (.ok (), u₂) ∧
    getPath (Twins.world.viewModel Twins.options) "a.b" u₂ = (.ok (.string "t"), u₂) ∧
    u₂.stage.documents[0]? = some d ∧
    d.value? ⟨2, 0⟩ = some "t" ∧ d.value? ⟨3, 0⟩ = some "t" := by
  obtain ⟨u₁, u₂, hmount, hended, hanswers, hresolve, hsubscribers, hwatcher, hlive⟩ := Twins.plays
  have htrim : Text.trimChars "a.b".toList = ['a', '.', 'b'] := by decide +kernel
  have hblank : ∀ c ∈ Text.trimChars "a.b".toList, Text.isBlank c = false := by
    rw [htrim, List.forall_mem_cons, List.forall_mem_cons, List.forall_mem_singleton]
    decide
  have hbound : ("v-model", "a.b") ∈
      (Document.parse Twins.markup : Document Listener).attributes ⟨2, 0⟩ := by decide +kernel
  obtain ⟨hread, d, hd, hvalue, i, ⟨front, hfront⟩, hothers⟩ :=
    input_two_way Twins.document rfl rfl (.of_empty rfl) (by decide +kernel) hmount Twins.turns
      (by decide +kernel) hbound (by decide +kernel) hblank hended
  refine ⟨u₁, u₂, d, hmount, hended, hread, hd, hvalue, ?_⟩
  have hi : i = 0 := by
    rw [hfront] at hresolve
    have hlast : front ++ [i] = [1] ++ [0] := hresolve
    exact List.singleton_inj.1 (List.append_inj' hlast rfl).2
  obtain ⟨w, hw, hmodels⟩ := Option.map_eq_some_iff.1 hwatcher
  obtain ⟨d', hd', helement⟩ := Option.map_eq_some_iff.1 hlive
  obtain rfl := Option.some.inj (hd.symm.trans hd')
  exact hothers hanswers ⟨3, 0⟩ (by decide +kernel) ("v-model", " a.b ") (by decide +kernel)
    (by decide +kernel) (by decide +kernel) helement 1 w hw (Reaction.models_iff.1 hmodels)
    (by rw [hi, hsubscribers]; decide)

end DataBinding
