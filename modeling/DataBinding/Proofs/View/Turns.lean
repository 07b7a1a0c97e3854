/-
  Turns: a view is used, by writes of plain data and by inputs.

  A world of one view model goes from turn to turn (`Turn.playAll`).  However a turn ends,
  the world keeps running on data without cycles (`Attuned`).  If the turns answer, every
  watcher that is subscribed to the slot that its expression ends at shows what it has
  seen (`Agreeing`): a watcher that is left behind by a write is not subscribed there any
  more, and one that is left behind by a pass that stopped belongs to a turn that did not
  answer.

  * `Entering.bound`: what an input that answers has done for the expression that the
    value of its node is bound to;
  * `Attuned.write`: data is written;
  * `Entering.continued`: an input to a node;
  * `Attuned.playAll`: turn after turn.
-/
import DataBinding.Proofs.Reactive.Layers
import DataBinding.Proofs.View.Assembling
import DataBinding.Proofs.View.Consistency
import DataBinding.Proofs.View.Refreshing
import DataBinding.Proofs.View.Routine

namespace DataBinding

open Duty (modelsAt)

/-! ## Data that has been written to -/

namespace Store

variable {s₀ s : Store Reaction}

theorem watchers_observe (s : Store Reaction) (j : Json) : (s.observe j).2.watchers = s.watchers :=
  observe_keeps (P := fun t : Store Reaction => t.watchers = s.watchers) (fun _ _ h => h)
    (fun _ _ h => h) j rfl

/-- Expressions end at the same slots on the same data. -/
theorem SameData.names_iff (h : s₀.SameData s) {root : MappingId} {e : String} {i : SlotId} :
    s.Names root e i ↔ s₀.Names root e i := by
  unfold Names
  rw [h.resolve, h.2]

/-- Data after a write, or without one: no watcher has seen it yet, and an expression that
    ends at a slot that was there ended at it before. -/
structure Amended (s₀ s : Store Reaction) : Prop where
  /-- The watchers are the same. -/
  watchers : s.watchers = s₀.watchers
  /-- They are subscribed to the same slots. -/
  subscribers : ∀ i, s.subscribers i = s₀.subscribers i
  /-- No mapping is gone. -/
  mappings_le : s₀.mappings.size ≤ s.mappings.size
  /-- The data has no cycles. -/
  layered : s.Layered
  /-- Where expressions ended. -/
  names : ∀ {root : MappingId} {e : String} {i : SlotId}, i < s₀.slots.size → s.Names root e i →
    s₀.Names root e i

theorem Amended.refl (h : s₀.Layered) : s₀.Amended s₀ :=
  ⟨rfl, fun _ => rfl, Nat.le_refl _, h, fun _ => id⟩

/-- Plain data is made reactive. -/
theorem Amended.observe (h : s₀.Layered) (j : Json) : s₀.Amended (s₀.observe j).2 where
  watchers := watchers_observe s₀ j
  subscribers := subscribers_observe s₀ j
  mappings_le := (Annexes.observe s₀ j).apart.mappings_le
  layered := (Annexes.observe s₀ j).layered h
  names hi := (Outgrows.of_annexes (.observe s₀ j)).names hi

/-- Plain data is made reactive and written. -/
theorem Amended.assign (h : s₀.Layered) (j : Json) {m : MappingId} (hm : m < s₀.mappings.size)
    (key : String) : s₀.Amended ((s₀.observe j).2.assign m key (s₀.observe j).1) where
  watchers := by rw [watchers_assign, watchers_observe]
  subscribers i := by rw [subscribers_assign, subscribers_observe]
  mappings_le := by
    rw [size_mappings_assign]
    exact (Annexes.observe s₀ j).apart.mappings_le
  layered := h.write (.observe s₀ j) (.observe s₀ j) hm key
  names hi := (Outgrows.of_write (.observe s₀ j) (.observe s₀ j) hm key).names hi

end Store

namespace Refreshed

variable {document : DocumentId} {s s' : Store Reaction} {d d' : Document Listener}

theorem layered (h : Refreshed document s d s' d') (hs : s.Layered) : s'.Layered :=
  hs.congr h.data.1 h.data.2 h.size

/-- There are no new elements. -/
theorem gone (h : Refreshed document s d s' d') {x : NodeId} (hx : d.element? x = none) :
    d'.element? x = none := by
  have hnone : d.entered? x = none := by rw [Document.entered?, hx]; rfl
  rw [← Option.map_eq_none_iff (f := Element.value)]
  rcases h.entered x with heq | ⟨_, _, _, _, _, heq⟩
  · exact heq.trans hnone
  · exact heq.trans (by rw [hnone]; rfl)

end Refreshed

/-! ## Watchers that agree with their elements -/

/-- A watcher that is subscribed to the slot that its expression ends at shows what it has
    seen; there are no blanks in the expression, but for those around it. -/
def Agreeing (document : DocumentId) (s : Store Reaction) (d : Document Listener) : Prop :=
  ∀ (k : WatcherId) (w : Watcher Reaction) (i : SlotId), s.watchers[k]? = some w →
    (∀ c ∈ Text.trimChars w.expression.toList, Text.isBlank c = false) →
    s.Names w.root w.expression i → k ∈ s.subscribers i → w.ShownIn document d

section

variable {document : DocumentId} {s₀ s s' : Store Reaction} {d₀ d d' : Document Listener}

/-- A watcher that is to agree after a write did so before. -/
theorem Agreeing.before (h : Agreeing document s₀ d₀) (hamended : s₀.Amended s)
    (hrefreshed : Refreshed document s d s' d') {k : WatcherId} {w' : Watcher Reaction}
    {i : SlotId} (hw' : s'.watchers[k]? = some w')
    (hblank : ∀ c ∈ Text.trimChars w'.expression.toList, Text.isBlank c = false)
    (hnames : s'.Names w'.root w'.expression i) (hk : k ∈ s'.subscribers i) :
    ∃ w : Watcher Reaction, s₀.watchers[k]? = some w ∧ w'.duty = w.duty ∧
      w.ShownIn document d₀ ∧ (w.ShownIn document d → w'.ShownIn document d') := by
  obtain ⟨w, hw, hduty, hshown, -⟩ := hrefreshed.watchers k w' hw'
  obtain ⟨hroot, hexpression, -⟩ := Duty.mk.inj hduty
  rw [hrefreshed.subscribers, hamended.subscribers] at hk
  rw [hrefreshed.data.names_iff, hroot, hexpression] at hnames
  have hi : i < s₀.slots.size := by
    by_contra hle
    rw [Store.subscribers_of_size_le s₀ (Nat.le_of_not_lt hle)] at hk
    cases hk
  rw [hamended.watchers] at hw
  exact ⟨w, hw, hduty, h k w i hw (hexpression ▸ hblank) (hamended.names hi hnames) hk, hshown⟩

/-- Watchers agree after a write. -/
theorem Agreeing.refreshed (h : Agreeing document s₀ d) (hamended : s₀.Amended s)
    (hrefreshed : Refreshed document s d s' d') : Agreeing document s' d' := by
  intro k w' i hw' hblank hnames hk
  obtain ⟨w, -, -, hshown, hkept⟩ := h.before hamended hrefreshed hw' hblank hnames hk
  exact hkept hshown

end

/-! ## Attuned worlds -/

/-- A running world of a view model on data without cycles. -/
structure Attuned (vm : ViewModel) (u : World Reaction Stage) (d : Document Listener) : Prop
    extends Running vm u d where
  /-- The data has no cycles. -/
  layered : u.store.Layered
  /-- The data of the view model is there. -/
  root : vm.data < u.store.mappings.size

/-- A world that has come of another one: there are the same watchers and no new elements;
    if it was by something that answers, the watchers still agree. -/
structure Continued (vm : ViewModel) (answers : Prop) (u : World Reaction Stage)
    (d : Document Listener) (u' : World Reaction Stage) (d' : Document Listener) : Prop where
  /-- The world runs. -/
  attuned : Attuned vm u' d'
  /-- The watchers are there still, and no new elements. -/
  furthered : Furthered u d u' d'
  /-- The watchers agree. -/
  agreeing : answers → Agreeing vm.document u.store d → Agreeing vm.document u'.store d'

theorem Continued.refl {vm : ViewModel} {u : World Reaction Stage} {d : Document Listener}
    (h : Attuned vm u d) (answers : Prop) : Continued vm answers u d u d :=
  ⟨h, .refl u d, fun _ => id⟩

theorem Continued.trans {vm : ViewModel} {p q : Prop} {u u' u'' : World Reaction Stage}
    {d d' d'' : Document Listener} (h : Continued vm p u d u' d')
    (h' : Continued vm q u' d' u'' d'') : Continued vm (p ∧ q) u d u'' d'' :=
  ⟨h'.attuned, h.furthered.trans h'.furthered, fun ⟨hp, hq⟩ ha => h'.agreeing hq (h.agreeing hp ha)⟩

namespace Attuned

variable {vm : ViewModel} {u : World Reaction Stage} {d : Document Listener}

/-- A world runs on when its data has been amended and its watchers updated. -/
theorem continued (h : Attuned vm u d) {s : Store Reaction} {d₁ d' : Document Listener}
    {u' : World Reaction Stage} {answers : Prop} (hamended : u.store.Amended s)
    (hrunning : Running vm u' d') (hrefreshed : Refreshed vm.document s d₁ u'.store d')
    (hgone : ∀ x, d.element? x = none → d₁.element? x = none)
    (hagreeing : answers → Agreeing vm.document u.store d → Agreeing vm.document u'.store d') :
    Continued vm answers u d u' d' := by
  have hduties : u'.store.duties = u.store.duties := by
    rw [hrefreshed.duties, Store.duties, hamended.watchers]
    rfl
  refine ⟨⟨hrunning, hrefreshed.layered hamended.layered, ?_⟩,
    ⟨fun q hq => by rwa [hduties], fun x hx => hrefreshed.gone (hgone x hx)⟩, hagreeing⟩
  rw [hrefreshed.data.1]
  exact Nat.lt_of_lt_of_le h.root hamended.mappings_le

/-- A value that has been made reactive may wait to be written. -/
theorem observed (h : Attuned vm u d) (j : Json) :
    Running vm { u with store := (u.store.observe j).2 } d := by
  refine h.of_store (((Store.After.observe u.store j).collecting h.quiet)) ?_
  rw [Store.duties, Store.watchers_observe]
  rfl

/-- Data is made reactive, and not written. -/
theorem observe (h : Attuned vm u d) (j : Json) (answers : Prop) :
    Continued vm answers u d { u with store := (u.store.observe j).2 } d :=
  have hrefreshed := Refreshed.refl vm.document (u.store.observe j).2 d
  h.continued (.observe h.layered j) (h.observed j) hrefreshed (fun _ => id)
    fun _ ha => ha.refreshed (.observe h.layered j) hrefreshed

/-- **Data is written.** -/
theorem write (h : Attuned vm u d) (j : Json) {m : MappingId} (hm : m < u.store.mappings.size)
    (key : String) (depth : Nat) :
    ∃ d', ∀ answers, Continued vm answers u d (Effect.set (Engine.ofDepth depth).react m key
      (u.store.observe j).1 { u with store := (u.store.observe j).2 }).2 d' := by
  obtain ⟨r, u', d', hr, hrunning, hrefreshed, -⟩ :=
    (h.observed j).set m key (u.store.observe j).1 depth
  rw [hr]
  have hamended : u.store.Amended ((u.store.observe j).2.assign m key (u.store.observe j).1) :=
    .assign h.layered j hm key
  exact ⟨d', fun _ => h.continued hamended hrunning hrefreshed (fun _ => id)
    fun _ ha => ha.refreshed hamended hrefreshed⟩

end Attuned

/-! ## Inputs -/

section

variable {vm : ViewModel} {n : NodeId} {text : String} {u u' : World Reaction Stage}
  {d d₁ d' : Document Listener} {s : Store Reaction} {r : Except Stop Unit}

/-- The value of an element is set for one duty at most. -/
theorem Running.duty_unique (h : Running vm u d) (hn : (d.entered? n).isSome = true) {q q' : Duty}
    (hq : q ∈ modelsAt u.store.duties vm.document n)
    (hq' : q' ∈ modelsAt u.store.duties vm.document n) : q = q' := by
  rw [Document.entered?_equipped, Option.isSome_map] at hn
  obtain ⟨⟨e, listeners⟩, hequipped⟩ := Option.isSome_iff_exists.1 hn
  have hone := (h.coupled.heard n e listeners hequipped).1
  match hmodels : modelsAt u.store.duties vm.document n, hone with
  | [], _ =>
    rw [hmodels] at hq
    cases hq
  | [_], _ =>
    rw [hmodels, List.mem_singleton] at hq hq'
    rw [hq, hq']

/-- What an input may have written. -/
theorem Entering.amended (he : Entering vm n text u d s d₁ r u' d') (h : Attuned vm u d) :
    u.store.Amended s := by
  rcases he.written with rfl | ⟨q, hq, m, key, htarget, rfl⟩
  · exact .refl h.layered
  · obtain ⟨x, hat⟩ := h.coupled.duties q (List.mem_filter.1 hq).1
    have hroot : q.root < u.store.mappings.size := by
      cases hat <;> exact h.root
    exact .assign h.layered (.string text)
      ((Store.Annexes.observe u.store (.string text)).lt_of_target h.layered.toPlaced hroot htarget)
      key

/-- **An input that answers** has written the text through the expression that the value of
    the node is bound to, and entered it; the watchers that are subscribed to the slot
    there are up to date. -/
theorem Entering.bound (he : Entering vm n text u d s d₁ (.ok ()) u' d') (h : Attuned vm u d)
    {q : Duty} (hq : q ∈ modelsAt u.store.duties vm.document n)
    (hblank : ∀ c ∈ Text.trimChars q.expression.toList, Text.isBlank c = false) :
    (u'.store.resolve q.root q.expression).2 = .ok (.string text) ∧
      d'.entered? n = some (some text) ∧ ∃ i, u'.store.Names q.root q.expression i ∧
      ∀ k ∈ u'.store.subscribers i, ∀ w', u'.store.watchers[k]? = some w' →
        w'.UpToDate u'.store := by
  obtain ⟨hn, hdone⟩ := he.done rfl
  obtain ⟨m, key, htarget, hs, huptodate⟩ := hdone q hq
  obtain ⟨x, hat⟩ := h.coupled.duties q (List.mem_filter.1 hq).1
  have hroot : q.root < u.store.mappings.size := by
    cases hat <;> exact h.root
  have hamended := he.amended h
  obtain ⟨i, hi, hnames, hvalue⟩ := h.layered.names_assign hroot htarget hblank (.string text)
  rw [← hs] at hi hnames hvalue
  have hresolve : (s.resolve q.root q.expression).2 = .ok (.string text) := hvalue ▸ hnames.value
  refine ⟨by rw [he.refreshed.data.resolve, hresolve], ?_, i,
    he.refreshed.data.names_iff.2 hnames, fun k hk => huptodate i ?_ k ?_⟩
  · have hentered₁ : d₁.entered? n = some (some text) := by
      obtain ⟨old, hold⟩ := Option.isSome_iff_exists.1 hn
      rw [he.entered, if_pos rfl, hold]
      rfl
    rcases he.refreshed.entered n with heq | ⟨q', hq', hmodel, v, hv, heq⟩
    · rw [heq, hentered₁]
    · -- the only watcher of the value sees the text
      have hmodels : q' ∈ modelsAt u.store.duties vm.document n := by
        refine List.mem_filter.2 ⟨?_, Reaction.models_iff.2 hmodel⟩
        rwa [Store.duties, hamended.watchers] at hq'
      obtain rfl := h.duty_unique hn hmodels hq
      obtain rfl := Except.ok.inj (hresolve.symm.trans hv)
      rw [heq, hentered₁]
      rfl
  · -- a slot with watchers was there before
    rw [he.refreshed.subscribers, hamended.subscribers] at hk
    rw [hs] at hi
    refine (Store.slot?_assign _ _ _ _ hi).resolve_right ?_
    rintro ⟨-, rfl, -⟩
    rw [Store.subscribers_of_size_le u.store (Nat.le_refl _)] at hk
    cases hk
  · rwa [he.refreshed.subscribers, hamended.subscribers] at hk

/-- Watchers agree after an input that answers. -/
theorem Entering.agreeing (he : Entering vm n text u d s d₁ (.ok ()) u' d') (h : Attuned vm u d)
    (hagreeing : Agreeing vm.document u.store d) : Agreeing vm.document u'.store d' := by
  intro k w' i hw' hblank hnames hk
  obtain ⟨w, hw, hduty, hshown, hkept⟩ :=
    hagreeing.before (he.amended h) he.refreshed hw' hblank hnames hk
  obtain ⟨hroot, hexpression, hreaction⟩ := Duty.mk.inj hduty
  intro x hmodel t ht
  by_cases hx : x = n
  · subst hx
    have hq : w.duty ∈ modelsAt u.store.duties vm.document x :=
      List.mem_filter.2
        ⟨Store.mem_duties hw, Reaction.models_iff.2 (hreaction.symm.trans hmodel)⟩
    rw [hexpression] at hblank
    rw [hroot, hexpression] at hnames
    obtain ⟨hresolve, hentered, j, hj, huptodate⟩ := he.bound h hq hblank
    obtain rfl := hj.unique hnames
    have hvalue := (huptodate k hk w' hw').eq_string (by rw [hroot, hexpression]; exact hresolve)
    rw [hvalue, ← Option.some.inj (hentered.symm.trans ht)]
    rfl
  · refine hkept (fun y hy t ht => hshown y hy t ?_) x hmodel t ht
    rw [he.entered, if_neg] at ht
    · exact ht
    · rintro rfl
      rw [hreaction, hy] at hmodel
      exact hx (Reaction.render.inj hmodel).2.1.symm

/-- The world runs on after an input. -/
theorem Entering.continued (he : Entering vm n text u d s d₁ r u' d') (h : Attuned vm u d) :
    Continued vm (r = .ok ()) u d u' d' := by
  refine h.continued (he.amended h) he.running he.refreshed (fun x hx => ?_) ?_
  · have hnone : d.entered? x = none := by rw [Document.entered?, hx]; rfl
    rw [← Option.map_eq_none_iff (f := Element.value)]
    refine (he.entered x).trans ?_
    rw [hnone]
    split <;> rfl
  · rintro rfl hagreeing
    exact he.agreeing h hagreeing

end

/-! ## Turns -/

/-- What is done to a view: plain data is written, or something is entered. -/
inductive Turn where
  /-- Data is written to a property. -/
  | property (key : String) (j : Json)
  /-- Data is written through an expression. -/
  | path (expression : String) (j : Json)
  /-- Data is written under a key of a mapping that is there. -/
  | member (m : MappingId) (key : String) (j : Json)
  /-- A text is entered in a node. -/
  | input (n : NodeId) (text : String)

namespace Turn

/-- One turn. -/
def play (engine : Engine) (vm : ViewModel) : Turn → Play Unit
  | property key j => do
    let v ← Effect.onStore fun s => s.observe j
    (Write.property key v).perform engine vm
  | path expression j => do
    let v ← Effect.onStore fun s => s.observe j
    (Write.path expression v).perform engine vm
  | member m key j => do
    if m < (← Effect.store).mappings.size then
      let v ← Effect.onStore fun s => s.observe j
      (Write.member m key v).perform engine vm
    else pure ()
  | input n text => (Write.input n text).perform engine vm

/-- Turn after turn, however each one ends. -/
def playAll (engine : Engine) (vm : ViewModel) :
    List Turn → World Reaction Stage → List (Except Stop Unit) × World Reaction Stage
  | [], u => ([], u)
  | t :: rest, u =>
    let (result, u) := t.play engine vm u
    let (results, u) := playAll engine vm rest u
    (result :: results, u)

end Turn

/-- It does not matter how a fault is restated. -/
theorem Continued.mapFault {vm : ViewModel} {u u₁ : World Reaction Stage}
    {d : Document Listener} {a : Play Unit} (f : Fault → Fault)
    (h : ∃ d', ∀ answers, Continued vm answers u d (a u₁).2 d') :
    ∃ r u' d', Effect.mapFault f a u₁ = (r, u') ∧ Continued vm (r = .ok ()) u d u' d' := by
  obtain ⟨d', h⟩ := h
  refine ⟨(Effect.mapFault f a u₁).1, (Effect.mapFault f a u₁).2, d', rfl, ?_⟩
  rw [Effect.snd_mapFault]
  exact h _

namespace Attuned

variable {vm : ViewModel} {u : World Reaction Stage} {d : Document Listener}

/-- **One turn.** -/
theorem play (h : Attuned vm u d) (t : Turn) (depth : Nat) :
    ∃ r u' d', t.play (Engine.ofDepth depth) vm u = (r, u') ∧
      Continued vm (r = .ok ()) u d u' d' := by
  cases t with
  | property key j =>
    have hplay : (Turn.property key j).play (Engine.ofDepth depth) vm u =
        Play.setProperty (Engine.ofDepth depth) vm key (u.store.observe j).1
          { u with store := (u.store.observe j).2 } := rfl
    rw [hplay, Play.setProperty]
    split
    · exact Continued.mapFault .binding (h.write j h.root key depth)
    · exact ⟨_, _, d, rfl, h.observe j _⟩
  | path expression j =>
    obtain ⟨r, u', hset, hcases⟩ :=
      (h.observed j).setPath vm.data expression (u.store.observe j).1 depth
    have hplay : (Turn.path expression j).play (Engine.ofDepth depth) vm u =
        Effect.mapFault .binding (Effect.setPath (Engine.ofDepth depth).react vm.data expression
          (u.store.observe j).1) { u with store := (u.store.observe j).2 } := rfl
    rw [hplay]
    refine Continued.mapFault .binding ?_
    rw [hset]
    obtain ⟨-, -, rfl⟩ | ⟨m, key, htarget, hwrite⟩ := hcases
    · exact ⟨d, h.observe j⟩
    · have hm := (Store.Annexes.observe u.store j).lt_of_target h.layered.toPlaced h.root htarget
      obtain ⟨d', hd'⟩ := h.write j hm key depth
      rw [hwrite] at hd'
      exact ⟨d', hd'⟩
  | member m key j =>
    have hplay : (Turn.member m key j).play (Engine.ofDepth depth) vm u =
        (if m < u.store.mappings.size then
          Effect.onStore (fun s => s.observe j) >>= fun v =>
            Effect.set (Engine.ofDepth depth).react m key v
        else pure ()) u := rfl
    rw [hplay]
    split
    next hm =>
      obtain ⟨d', hd'⟩ := h.write j hm key depth
      exact ⟨_, _, d', rfl, hd' _⟩
    next => exact ⟨_, u, d, rfl, .refl h _⟩
  | input n text =>
    obtain ⟨r, u', s, d₁, d', hr, he⟩ := h.toRunning.input n text depth
    exact ⟨r, u', d', hr, he.continued h⟩

/-- **Turn after turn.** -/
theorem playAll (depth : Nat) : ∀ (ts : List Turn) {u : World Reaction Stage}
    {d : Document Listener}, Attuned vm u d →
    ∃ rs u' d', Turn.playAll (Engine.ofDepth depth) vm ts u = (rs, u') ∧
      Continued vm (∀ r ∈ rs, r = .ok ()) u d u' d'
  | [], u, d, h => ⟨[], u, d, rfl, .refl h _⟩
  | t :: ts, u, d, h => by
    obtain ⟨r, u₁, d₁, hr, hfirst⟩ := h.play t depth
    obtain ⟨rs, u₂, d₂, hrs, hrest⟩ := playAll depth ts hfirst.attuned
    refine ⟨r :: rs, u₂, d₂, ?_, ?_⟩
    · rw [Turn.playAll, hr]
      dsimp only
      rw [hrs]
    rw [List.forall_mem_cons]
    exact hfirst.trans hrest

end Attuned

end DataBinding
