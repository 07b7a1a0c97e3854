/-
  Watchers that are updated while a document is coupled to them.

  In a `Running` world nothing is left to be bound.  Updates leave the data and the
  watchers as they are, but for what the watchers have seen; what is entered in an element
  changes only to what its watcher sees (`Refreshed`).

  * `Running.react`: a reaction, which is done or has no effect;
  * `Running.update`, `Running.pass`: an update, and updates one after the other;
  * `Running.set`: a write, after which the watchers of the slot that was there are up to
    date unless there is a fault;
  * `Running.input`: an input to an element, which is a write through the expression that
    its value is bound to.
-/
import DataBinding.Proofs.Reactive.Replacement
import DataBinding.Proofs.View.Consulting
import DataBinding.Proofs.View.Coupling
import DataBinding.Session.Engine

namespace DataBinding

open Effect (each mapFault)

variable {R σ : Type}

/-! ## Stores and watchers -/

namespace Store

/-- Watchers are there for the same, whatever they have seen. -/
theorem duties_updateWatcher (s : Store Reaction) (k : WatcherId)
    {f : Watcher Reaction → Watcher Reaction} (hf : ∀ w, (f w).duty = w.duty) :
    (s.updateWatcher k f).duties = s.duties := by
  refine List.ext_getElem? fun i => ?_
  unfold duties updateWatcher
  rw [List.getElem?_map, List.getElem?_map, Array.getElem?_toList, Array.getElem?_toList,
    Array.getElem?_modify]
  split
  · rw [Option.map_map]
    exact congrArg (Option.map · _) (funext hf)
  · rfl

theorem mem_duties {s : Store Reaction} {k : WatcherId} {w : Watcher Reaction}
    (h : s.watchers[k]? = some w) : w.duty ∈ s.duties :=
  List.mem_map_of_mem (Array.mem_toList_iff.2 (Array.mem_of_getElem? h))

end Store

/-- Where one entry of a list at most is of some kind, two entries of the kind are the
    same. -/
theorem eq_of_length_filter_le_one {α : Type} {p : α → Bool} : ∀ {l : List α} {i j : Nat}
    {a b : α}, (l.filter p).length ≤ 1 → l[i]? = some a → p a = true → l[j]? = some b →
      p b = true → i = j
  | x :: l, 0, 0, _, _, _, _, _, _, _ => rfl
  | x :: l, 0, j + 1, a, b, h, hi, ha, hj, hb => by
    obtain rfl := Option.some.inj hi
    rw [List.filter_cons_of_pos ha, List.length_cons] at h
    have hnil := List.length_eq_zero_iff.1 (Nat.le_zero.1 (Nat.le_of_succ_le_succ h))
    have hmem : b ∈ l.filter p := List.mem_filter.2 ⟨List.mem_of_getElem? hj, hb⟩
    rw [hnil] at hmem
    cases hmem
  | x :: l, i + 1, 0, a, b, h, hi, ha, hj, hb => by
    obtain rfl := Option.some.inj hj
    rw [List.filter_cons_of_pos hb, List.length_cons] at h
    have hnil := List.length_eq_zero_iff.1 (Nat.le_zero.1 (Nat.le_of_succ_le_succ h))
    have hmem : a ∈ l.filter p := List.mem_filter.2 ⟨List.mem_of_getElem? hi, ha⟩
    rw [hnil] at hmem
    cases hmem
  | x :: l, i + 1, j + 1, a, b, h, hi, ha, hj, hb =>
    congrArg Nat.succ (eq_of_length_filter_le_one
      (Nat.le_trans (List.Sublist.filter p (List.sublist_cons_self x l)).length_le h) hi ha hj hb)

/-- A watcher has seen the value of its expression, or one that equals it. -/
def Watcher.UpToDate (w : Watcher Reaction) (s : Store Reaction) : Prop :=
  ∃ v, (s.resolve w.root w.expression).2 = .ok v ∧ (w.value = v ∨ v.equal w.value = true)

/-- A watcher that is up to date has seen a string. -/
theorem Watcher.UpToDate.eq_string {w : Watcher Reaction} {s : Store Reaction} {text : String}
    (h : w.UpToDate s) (hresolve : (s.resolve w.root w.expression).2 = .ok (.string text)) :
    w.value = .string text := by
  obtain ⟨v, hv, hseen⟩ := h
  obtain rfl : Value.string text = v := Except.ok.inj (hresolve.symm.trans hv)
  rcases hseen with hseen | hseen
  · exact hseen
  · cases hvalue : w.value with
    | string t =>
      rw [hvalue] at hseen
      rw [eq_of_beq (hseen : (text == t) = true)]
    | _ =>
      rw [hvalue] at hseen
      cases hseen

/-! ## Running worlds -/

/-- A world in which everything is bound, and no watcher collects. -/
structure Running (vm : ViewModel) (u : World Reaction Stage) (d : Document Listener) : Prop where
  /-- No watcher collects. -/
  quiet : u.store.collecting = []
  /-- The document is on the stage. -/
  staged : u.stage.documents[vm.document]? = some d
  /-- It is coupled to the watchers. -/
  coupled : Coupled vm u.store.duties d []

/-- A store and a document after updates of watchers. -/
structure Refreshed (document : DocumentId) (s : Store Reaction) (d : Document Listener)
    (s' : Store Reaction) (d' : Document Listener) : Prop where
  /-- The data is as it was. -/
  data : s.SameData s'
  /-- There are no other slots. -/
  size : s'.slots.size = s.slots.size
  /-- No watcher subscribes. -/
  subscribers : ∀ i, s'.subscribers i = s.subscribers i
  /-- The watchers are there for the same. -/
  duties : s'.duties = s.duties
  /-- A watcher has seen what it had seen, or what there is, and what it shows is that. -/
  watchers : ∀ (k : WatcherId) (w' : Watcher Reaction), s'.watchers[k]? = some w' →
    ∃ w : Watcher Reaction, s.watchers[k]? = some w ∧
    w'.duty = w.duty ∧ (w.ShownIn document d → w'.ShownIn document d') ∧
    (w'.value = w.value ∨ (s.resolve w.root w.expression).2 = .ok w'.value)
  /-- What is entered is as it was, or what its watcher sees. -/
  entered : ∀ x, d'.entered? x = d.entered? x ∨ ∃ q ∈ s.duties,
    q.reaction = .render document x .model ∧ ∃ v, (s.resolve q.root q.expression).2 = .ok v ∧
      d'.entered? x = (d.entered? x).map fun _ => some (Facet.model.shown v)

namespace Refreshed

variable {document : DocumentId} {s s' s'' : Store Reaction} {d d' d'' : Document Listener}
  {k : WatcherId}

/-- Nothing is updated. -/
theorem of_eq (hmappings : s'.mappings = s.mappings) (hslots : s'.slots = s.slots)
    (hwatchers : s'.watchers = s.watchers) : Refreshed document s d s' d where
  data := ⟨hmappings, fun i => by rw [Store.valueAt, Store.valueAt, hslots]⟩
  size := by rw [hslots]
  subscribers i := by rw [Store.subscribers, Store.subscribers, hslots]
  duties := by rw [Store.duties, Store.duties, hwatchers]
  watchers k w' hw' := ⟨w', by rw [← hwatchers, hw'], rfl, id, .inl rfl⟩
  entered _ := .inl rfl

theorem refl (document : DocumentId) (s : Store Reaction) (d : Document Listener) :
    Refreshed document s d s d := .of_eq rfl rfl rfl

theorem trans (h : Refreshed document s d s' d') (h' : Refreshed document s' d' s'' d'') :
    Refreshed document s d s'' d'' where
  data := h.data.trans h'.data
  size := h'.size.trans h.size
  subscribers i := (h'.subscribers i).trans (h.subscribers i)
  duties := h'.duties.trans h.duties
  watchers k w'' hw'' := by
    obtain ⟨w', hw', hduty', hshown', hvalue'⟩ := h'.watchers k w'' hw''
    obtain ⟨w, hw, hduty, hshown, hvalue⟩ := h.watchers k w' hw'
    refine ⟨w, hw, hduty'.trans hduty, fun hw => hshown' (hshown hw), ?_⟩
    rcases hvalue' with hvalue' | hvalue'
    · rwa [hvalue']
    · obtain ⟨hroot, hexpression, -⟩ := Duty.mk.inj hduty
      rw [h.data.resolve, hroot, hexpression] at hvalue'
      exact .inr hvalue'
  entered x := by
    rcases h'.entered x with hx' | ⟨q, hq, hmodel, v, hv, hx'⟩
    · rw [hx']
      exact h.entered x
    · refine .inr ⟨q, h.duties ▸ hq, hmodel, v, h.data.resolve q.root q.expression ▸ hv, ?_⟩
      rcases h.entered x with hx | ⟨_, _, _, _, _, hx⟩
      · rw [hx', hx]
      · rw [hx', hx, Option.map_map]
        rfl

/-- One watcher has seen another value, or has been evaluated. -/
theorem of_updateWatcher {f : Watcher Reaction → Watcher Reaction}
    (hf : ∀ w, (f w).duty = w.duty)
    (hvalue : ∀ w, s.watchers[k]? = some w → (f w).value = w.value ∨
      (s.resolve w.root w.expression).2 = .ok (f w).value)
    (hself : ∀ w, s.watchers[k]? = some w → w.ShownIn document d → (f w).ShownIn document d')
    (hother : ∀ k' ≠ k, ∀ w, s.watchers[k']? = some w → w.ShownIn document d →
      w.ShownIn document d')
    (hentered : ∀ x, d'.entered? x = d.entered? x ∨ ∃ q ∈ s.duties,
      q.reaction = .render document x .model ∧ ∃ v, (s.resolve q.root q.expression).2 = .ok v ∧
        d'.entered? x = (d.entered? x).map fun _ => some (Facet.model.shown v)) :
    Refreshed document s d (s.updateWatcher k f) d' where
  data := ⟨rfl, fun _ => rfl⟩
  size := rfl
  subscribers _ := rfl
  duties := s.duties_updateWatcher k hf
  watchers k' w' hw' := by
    rw [Store.watchers_updateWatcher] at hw'
    split at hw'
    next hk =>
      subst hk
      obtain ⟨w, hw, rfl⟩ := Option.map_eq_some_iff.1 hw'
      exact ⟨w, hw, hf w, hself w hw, hvalue w hw⟩
    next hk => exact ⟨w', hw', rfl, hother k' (Ne.symm hk) w' hw', .inl rfl⟩
  entered := hentered

/-- A watcher that is up to date remains so. -/
theorem upToDate (h : Refreshed document s d s' d')
    (hs : ∀ w, s.watchers[k]? = some w → w.UpToDate s) :
    ∀ w', s'.watchers[k]? = some w' → w'.UpToDate s' := by
  intro w' hw'
  obtain ⟨w, hw, hduty, -, hvalue⟩ := h.watchers k w' hw'
  obtain ⟨hroot, hexpression, -⟩ := Duty.mk.inj hduty
  obtain ⟨v, hv, hseen⟩ := hs w hw
  refine ⟨v, by rw [h.data.resolve, hroot, hexpression, hv], ?_⟩
  rcases hvalue with hvalue | hvalue
  · rwa [hvalue]
  · exact .inl (Except.ok.inj (hvalue.symm.trans hv))

end Refreshed

/-! ## Rendering again -/

/-- A change that is not done leaves the document of a reaction as it was. -/
theorem Play.rerender_renders {document : DocumentId} {u : World Reaction Stage}
    {d : Document Listener} (hstaged : u.stage.documents[document]? = some d) (n : NodeId)
    (facet : Facet) (v : Value) :
    ∃ r, rerender document n facet v u = (r, u.put document (d.render n facet v).2) ∧
      ∀ stop, r = .error stop → ∃ err, (d.render n facet v).1 = .error err := by
  unfold rerender
  rw [Effect.bind_apply, documentAt_apply hstaged]
  dsimp only
  cases hnode : d.node? n with
  | none =>
    have hsame : (d.render n facet v).2 = d := by
      cases facet <;> simp [Document.render, Document.setText, Document.setInnerHtml,
        Document.setInner, Document.setValue, Document.setAttribute, Document.updateElement, hnode]
    rw [Document.kind?, hnode, hsame, World.put_eq hstaged]
    exact ⟨_, rfl, fun _ => by rintro ⟨⟩⟩
  | some node =>
    rw [Document.kind?, hnode]
    dsimp only [Option.map_some]
    unfold edit mapFault
    rw [Effect.bind_apply, documentAt_apply hstaged]
    dsimp only
    rcases d.render n facet v with ⟨_ | ⟨⟩, d'⟩
    · exact ⟨_, rfl, fun _ _ => ⟨_, rfl⟩⟩
    · exact ⟨_, rfl, fun _ => by rintro ⟨⟩⟩

/-- Filling in a text changes nothing where no watcher collects. -/
theorem Effect.content_quiet {u : World R σ} (hquiet : u.store.collecting = [])
    (root : MappingId) (text : String) : ∃ r, content root text u = (r, u) := by
  obtain ⟨slots, hcontent⟩ := content_tracks root text u
  rw [Store.trackAll_of_not_collecting _ hquiet] at hcontent
  exact ⟨_, hcontent⟩

namespace Running

variable {vm : ViewModel} {u u' : World Reaction Stage} {d d' : Document Listener} {n : NodeId}

/-- Another store with the same watchers. -/
theorem of_store (h : Running vm u d) {s : Store Reaction} (hs : s.collecting = [])
    (hduties : s.duties = u.store.duties) : Running vm { u with store := s } d :=
  ⟨hs, h.staged, hduties ▸ h.coupled⟩

/-- Another document, which is coupled to the watchers. -/
theorem of_put (h : Running vm u d) (hd : Coupled vm u.store.duties d' []) :
    Running vm (u.put vm.document d') d' :=
  ⟨h.quiet, World.documents_put h.staged d', hd⟩

/-- There is one watcher of the value of an element at most. -/
theorem watcher_unique (h : Running vm u d) {text : Option String} (hn : d.entered? n = some text)
    {k k' : WatcherId} {w w' : Watcher Reaction} (hw : u.store.watchers[k]? = some w)
    (hmodel : w.reaction = .render vm.document n .model) (hw' : u.store.watchers[k']? = some w')
    (hmodel' : w'.reaction = .render vm.document n .model) : k = k' := by
  rw [Document.entered?_equipped] at hn
  obtain ⟨⟨e, listeners⟩, hn, -⟩ := Option.map_eq_some_iff.1 hn
  have hduty : ∀ {k : WatcherId} {w : Watcher Reaction}, u.store.watchers[k]? = some w →
      u.store.duties[k]? = some w.duty := fun hw => by
    rw [Store.duties, List.getElem?_map, Array.getElem?_toList, hw]
    rfl
  exact eq_of_length_filter_le_one (h.coupled.heard n e listeners hn).1 (hduty hw)
    (Reaction.models_iff.2 hmodel) (hduty hw') (Reaction.models_iff.2 hmodel')

/-- Rendering for the sake of a duty is done, or has no effect. -/
theorem rerender (h : Running vm u d) {facet : Facet} (hhtml : facet ≠ .html)
    (htext : facet = .text →
      d.kind? n ≠ some .document ∧ d.kind? n ≠ some .comment ∧ d.Worded n) (v : Value) :
    ∃ r d', Play.rerender vm.document n facet v u = (r, u.put vm.document d') ∧
      Coupled vm u.store.duties d' [] ∧ (∀ stop, r = .error stop → d' = d) ∧
      ∀ x, d'.entered? x =
        if x = n ∧ facet = .model then (d.entered? x).map fun _ => some (facet.shown v)
        else d.entered? x := by
  obtain ⟨r, hr, herror⟩ := Play.rerender_renders h.staged n facet v
  obtain ⟨hcoupled, hrefused, hentered⟩ := h.coupled.rendered hhtml htext v
  refine ⟨r, _, hr, hcoupled, fun stop hstop => ?_, hentered⟩
  obtain ⟨err, herr⟩ := herror stop hstop
  exact hrefused err herr

/-- **A reaction** is done, or has no effect. -/
theorem react (h : Running vm u d) {q : Duty} (hq : q ∈ u.store.duties) (depth : Nat) (v : Value) :
    ∃ r d', (Engine.ofDepth depth).react q.reaction v u = (r, u.put vm.document d') ∧
      Coupled vm u.store.duties d' [] ∧ (∀ stop, r = .error stop → d' = d) ∧
      (r = .ok () → ∀ x, d'.entered? x =
        if q.reaction.models vm.document x then
          (d.entered? x).map fun _ => some (Facet.model.shown v)
        else d.entered? x) := by
  have hrefused : ∀ stop, ∃ r d', ((.error stop, u) : Except Stop Unit × World Reaction Stage) =
      (r, u.put vm.document d') ∧ Coupled vm u.store.duties d' [] ∧
      (∀ stop, r = .error stop → d' = d) ∧ (r = .ok () → ∀ x, d'.entered? x =
        if q.reaction.models vm.document x then
          (d.entered? x).map fun _ => some (Facet.model.shown v)
        else d.entered? x) := fun stop =>
    ⟨.error stop, d, by rw [World.put_eq h.staged], h.coupled, fun _ _ => rfl, nofun⟩
  cases depth with
  | zero => exact hrefused .exhausted
  | succ depth =>
    obtain ⟨n, hat⟩ := h.coupled.duties q hq
    have htext : q.reaction.words = true →
        d.kind? n ≠ some .document ∧ d.kind? n ≠ some .comment ∧ d.Worded n := fun hwords =>
      have hkinds := h.coupled.kinds q hq n hat
      ⟨hkinds.1, hkinds.2, h.coupled.worded q hq n hat hwords⟩
    cases hat with
    | @render expression facet hfacet =>
      obtain ⟨r, d', hr, hcoupled, herror, hentered⟩ :=
        h.rerender hfacet (fun heq => htext (by rw [heq]; rfl)) v
      refine ⟨r, d', hr, hcoupled, herror, fun _ x => (hentered x).trans ?_⟩
      by_cases hx : x = n ∧ facet = .model
      · obtain ⟨rfl, rfl⟩ := hx
        rw [if_pos ⟨rfl, rfl⟩, if_pos (Reaction.models_iff.2 rfl)]
      · rw [if_neg hx, if_neg]
        rw [Reaction.models_iff]
        intro heq
        obtain ⟨-, hn, hmodel⟩ := Reaction.render.inj heq
        exact hx ⟨hn.symm, hmodel⟩
    | fill expression template =>
      obtain ⟨r, hcontent⟩ := Effect.content_quiet h.quiet vm.data template
      have hreact : (Engine.ofDepth (depth + 1)).react (.fill vm.document n vm.data template) v u =
          (Effect.content vm.data template >>= fun text =>
            Play.rerender vm.document n .text (.string text)) u := rfl
      rw [hreact, Effect.bind_apply, hcontent]
      cases r with
      | error stop => exact hrefused stop
      | ok text =>
        have hplain : Facet.text ≠ .html := nofun
        obtain ⟨r, d', hr, hcoupled, herror, hentered⟩ :=
          h.rerender hplain (fun _ => htext rfl) (.string text)
        refine ⟨r, d', hr, hcoupled, herror, fun _ x => (hentered x).trans ?_⟩
        rw [if_neg fun hx : x = n ∧ _ => nomatch hx.2]
        rfl

/-! ## Updates -/

/-- A watcher remembers the value that there is, which is shown where it sets the value of an
    element. -/
theorem remembered (h : Running vm u d) {k : WatcherId} {w : Watcher Reaction}
    (hw : u.store.watchers[k]? = some w) {v : Value}
    (hresolve : (u.store.resolve w.root w.expression).2 = .ok v)
    (hentered : ∀ x, d'.entered? x = if w.reaction.models vm.document x then
      (d.entered? x).map fun _ => some (Facet.model.shown v) else d.entered? x) :
    Refreshed vm.document u.store d
      (u.store.updateWatcher k fun w => { w with value := v }) d' := by
  refine .of_updateWatcher (fun _ => rfl) (fun w' hw' => ?_) (fun w' hw' _ => ?_)
    (fun k' hk' w' hw' hshown => ?_) fun x => ?_
  · obtain rfl := Option.some.inj (hw.symm.trans hw')
    exact .inr hresolve
  · obtain rfl := Option.some.inj (hw.symm.trans hw')
    intro x hmodel text htext
    rw [hentered, if_pos (Reaction.models_iff.2 hmodel)] at htext
    obtain ⟨_, _, rfl⟩ := Option.map_eq_some_iff.1 htext
    rfl
  · intro x hmodel text htext
    rw [hentered] at htext
    split at htext
    next hself =>
      -- no other watcher sets the value of this element
      obtain ⟨text', hx, -⟩ := Option.map_eq_some_iff.1 htext
      exact absurd (h.watcher_unique hx hw' hmodel hw (Reaction.models_iff.1 hself)) hk'
    next => exact hshown x hmodel text htext
  · rw [hentered]
    split
    next hself =>
      exact .inr ⟨w.duty, Store.mem_duties hw, Reaction.models_iff.1 hself, v, hresolve, rfl⟩
    next => exact .inl rfl

/-- A watcher reacts to the value that there is, and remembers it. -/
theorem answer (h : Running vm u d) {k : WatcherId} {w : Watcher Reaction}
    (hw : u.store.watchers[k]? = some w) {v : Value}
    (hresolve : (u.store.resolve w.root w.expression).2 = .ok v) (depth : Nat) :
    ∃ r u' d', ((Engine.ofDepth depth).react w.reaction v >>= fun _ => Effect.remember k v) u =
        (r, u') ∧ Running vm u' d' ∧ Refreshed vm.document u.store d u'.store d' ∧
      (r = .ok () → ∀ w', u'.store.watchers[k]? = some w' → w'.UpToDate u'.store) := by
  obtain ⟨r, d', hr, hcoupled, herror, hentered⟩ := h.react (Store.mem_duties hw) depth v
  have hr : (Engine.ofDepth depth).react w.reaction v u = (r, u.put vm.document d') := hr
  rw [Effect.bind_apply, hr]
  cases r with
  | error stop =>
    obtain rfl := herror stop rfl
    rw [World.put_eq h.staged]
    exact ⟨_, u, d', rfl, h, .refl _ _ _, nofun⟩
  | ok done =>
    have hremember := h.remembered hw hresolve (hentered rfl)
    refine ⟨_, _, d', rfl, ?_, hremember, fun _ w' hw' => ?_⟩
    · exact (h.of_put hcoupled).of_store h.quiet hremember.duties
    · obtain rfl := Option.some.inj ((Store.watchers_updateWatcher_self hw _).symm.trans hw')
      refine ⟨v, ?_, .inl rfl⟩
      exact (congrArg Prod.snd (hremember.data.resolve w.root w.expression)).trans hresolve

/-- **A watcher is updated.** -/
theorem update (h : Running vm u d) (k : WatcherId) (depth : Nat) :
    ∃ r u' d', Effect.updateWatcher (Engine.ofDepth depth).react k u = (r, u') ∧
      Running vm u' d' ∧ Refreshed vm.document u.store d u'.store d' ∧
      (r = .ok () → ∀ w', u'.store.watchers[k]? = some w' → w'.UpToDate u'.store) := by
  cases hw : u.store.watchers[k]? with
  | none =>
    refine ⟨.ok (), u, d, Effect.updateWatcher_of_none _ hw, h, .refl _ _ _, fun _ w' hw' => ?_⟩
    rw [hw] at hw'
    cases hw'
  | some w =>
    -- the evaluation is counted
    let u₁ : World Reaction Stage := { u with store := u.store.counted k }
    have hcount : Refreshed vm.document u.store d u₁.store d :=
      .of_updateWatcher (fun _ => rfl) (fun _ _ => .inl rfl) (fun _ _ hshown => hshown)
        (fun _ _ _ _ hshown => hshown) fun _ => .inl rfl
    have h₁ : Running vm u₁ d := h.of_store h.quiet hcount.duties
    have hw₁ : u₁.store.watchers[k]? = some { w with evaluations := w.evaluations + 1 } :=
      Store.watchers_counted hw
    cases hresolve : (u.store.resolve w.root w.expression).2 with
    | error err =>
      rw [Effect.updateWatcher_of_error _ hw hresolve, Store.trackAll_counted h.quiet]
      exact ⟨_, u₁, d, rfl, h₁, hcount, nofun⟩
    | ok v =>
      have hresolve₁ : (u₁.store.resolve w.root w.expression).2 = .ok v := by
        rw [hcount.data.resolve, hresolve]
      by_cases hequal : v.equal w.value = true
      · rw [Effect.updateWatcher_of_equal _ hw hresolve hequal, Store.trackAll_counted h.quiet]
        refine ⟨.ok (), u₁, d, rfl, h₁, hcount, fun _ w' hw' => ?_⟩
        obtain rfl := Option.some.inj (hw₁.symm.trans hw')
        exact ⟨v, hresolve₁, .inr hequal⟩
      · rw [Effect.updateWatcher_of_changed _ hw hresolve hequal, Store.trackAll_counted h.quiet]
        obtain ⟨r, u', d', hr, h', hrefreshed, hdone⟩ := h₁.answer hw₁ hresolve₁ depth
        exact ⟨r, u', d', hr, h', hcount.trans hrefreshed, hdone⟩

/-- **Watchers are updated**, one after the other. -/
theorem pass (depth : Nat) : ∀ (ks : List WatcherId) {u : World Reaction Stage}
    {d : Document Listener}, Running vm u d →
    ∃ r u' d', each (Effect.updateWatcher (Engine.ofDepth depth).react) ks u = (r, u') ∧
      Running vm u' d' ∧ Refreshed vm.document u.store d u'.store d' ∧
      (r = .ok () → ∀ k ∈ ks, ∀ w', u'.store.watchers[k]? = some w' → w'.UpToDate u'.store)
  | [], u, d, h => ⟨.ok (), u, d, rfl, h, .refl _ _ _, fun _ => List.forall_mem_nil _⟩
  | k :: ks, u, d, h => by
    obtain ⟨r, u₁, d₁, hr, h₁, hrefreshed, hself⟩ := h.update k depth
    rw [each, Effect.bind_apply, hr]
    cases r with
    | error stop => exact ⟨_, u₁, d₁, rfl, h₁, hrefreshed, by rintro ⟨⟩⟩
    | ok done =>
      obtain ⟨r, u₂, d₂, hr, h₂, hrefreshed₂, hothers⟩ := pass depth ks h₁
      refine ⟨r, u₂, d₂, hr, h₂, hrefreshed.trans hrefreshed₂, fun hdone => ?_⟩
      exact List.forall_mem_cons.2 ⟨hrefreshed₂.upToDate (hself rfl), hothers hdone⟩

/-- The watchers of a slot are updated. -/
theorem notify (h : Running vm u d) (i : SlotId) (depth : Nat) :
    ∃ r u' d', Effect.notify (Engine.ofDepth depth).react i u = (r, u') ∧
      Running vm u' d' ∧ Refreshed vm.document u.store d u'.store d' ∧
      (r = .ok () → ∀ k ∈ u.store.subscribers i, ∀ w', u'.store.watchers[k]? = some w' →
        w'.UpToDate u'.store) := by
  by_cases hnil : u.store.subscribers i = []
  · refine ⟨.ok (), u, d, Effect.notify_of_nil _ hnil, h, .refl _ _ _, fun _ k hk => ?_⟩
    rw [hnil] at hk
    cases hk
  by_cases hroom : u.store.depth + 1 ≤ u.store.limit
  · obtain ⟨r, u', d', hr, h', hrefreshed, hdone⟩ := pass depth (u.store.subscribers i)
      (h.of_store (s := { u.store with depth := u.store.depth + 1 }) h.quiet rfl)
    rw [Effect.notify_of_le _ hnil hroom]
    unfold Effect.notifying Effect.within
    dsimp only
    rw [hr]
    have hentered : Refreshed vm.document u.store d
      { u.store with depth := u.store.depth + 1 } d := .of_eq rfl rfl rfl
    have hleft : Refreshed vm.document u'.store d'
      { u'.store with depth := u'.store.depth - 1 } d' := .of_eq rfl rfl rfl
    refine ⟨r, _, d', rfl, h'.of_store h'.quiet rfl, (hentered.trans hrefreshed).trans hleft, ?_⟩
    exact fun hok k hk => hleft.upToDate (hdone hok k hk)
  · rw [Effect.notify_of_lt _ hnil (Nat.lt_of_not_le hroom)]
    exact ⟨_, u, d, rfl, h, .refl _ _ _, nofun⟩

/-! ## Writes -/

/-- **A value is written**: the watchers of the slot that was there are up to date then,
    unless there is a fault. -/
theorem set (h : Running vm u d) (m : MappingId) (key : String) (v : Value) (depth : Nat) :
    ∃ r u' d', Effect.set (Engine.ofDepth depth).react m key v u = (r, u') ∧
      Running vm u' d' ∧ Refreshed vm.document (u.store.assign m key v) d u'.store d' ∧
      (r = .ok () → ∀ i, u.store.slot? m key = some i → ∀ k ∈ u.store.subscribers i,
        ∀ w', u'.store.watchers[k]? = some w' → w'.UpToDate u'.store) := by
  have h₁ : Running vm { u with store := u.store.assign m key v } d := by
    refine h.of_store ((u.store.collecting_assign m key v).trans h.quiet) ?_
    rw [Store.duties, Store.watchers_assign]
    rfl
  cases hslot : u.store.slot? m key with
  | none => exact ⟨_, _, d, Effect.set_assign_of_none _ hslot, h₁, .refl _ _ _, fun _ _ => nofun⟩
  | some i =>
    obtain ⟨r, u', d', hr, h', hrefreshed, hdone⟩ := h₁.notify i depth
    refine ⟨r, u', d', (Effect.set_assign_of_some _ hslot).trans hr, h', hrefreshed,
      fun hok j hj k hk => ?_⟩
    obtain rfl := Option.some.inj hj
    exact hdone hok k (by rwa [Store.subscribers_assign])

/-- A value is written through an expression, if that leads anywhere. -/
theorem setPath (h : Running vm u d) (root : MappingId) (expression : String) (v : Value)
    (depth : Nat) :
    ∃ r u', Effect.setPath (Engine.ofDepth depth).react root expression v u = (r, u') ∧
      ((∃ stop, r = .error stop ∧ u' = u) ∨
        ∃ m key, (u.store.target root expression).2 = .ok (m, key) ∧
          Effect.set (Engine.ofDepth depth).react m key v u = (r, u')) := by
  cases htarget : (u.store.target root expression).2 with
  | error err =>
    rw [Effect.setPath_of_error _ htarget, Store.trackAll_of_not_collecting _ h.quiet]
    exact ⟨_, u, rfl, .inl ⟨_, rfl, rfl⟩⟩
  | ok place =>
    obtain ⟨m, key⟩ := place
    rw [Effect.setPath_of_ok _ htarget, Store.trackAll_of_not_collecting _ h.quiet]
    exact ⟨_, _, rfl, .inr ⟨m, key, rfl, rfl⟩⟩

end Running

/-! ## Inputs -/

/-- What an input to a node comes to: the text is entered, and written through the
    expression that the value of the node is bound to, if it is; the watchers of the slot
    that is written are up to date unless there is a fault. -/
structure Entering (vm : ViewModel) (n : NodeId) (text : String) (u : World Reaction Stage)
    (d : Document Listener) (s : Store Reaction) (d₁ : Document Listener)
    (r : Except Stop Unit) (u' : World Reaction Stage) (d' : Document Listener) : Prop where
  /-- The world runs. -/
  running : Running vm u' d'
  /-- Watchers have been updated. -/
  refreshed : Refreshed vm.document s d₁ u'.store d'
  /-- The text was entered before. -/
  entered : ∀ x, d₁.entered? x =
    if x = n then (d.entered? x).map fun _ => some text else d.entered? x
  /-- It was written, if at all, where an expression of the node leads. -/
  written : s = u.store ∨ ∃ q ∈ Duty.modelsAt u.store.duties vm.document n, ∃ m key,
    (u.store.target q.root q.expression).2 = .ok (m, key) ∧ s = u.store.assign m key (.string text)
  /-- Without a fault it was entered and written, and the watchers are up to date. -/
  done : r = .ok () → (d.entered? n).isSome = true ∧
    ∀ q ∈ Duty.modelsAt u.store.duties vm.document n, ∃ m key,
      (u.store.target q.root q.expression).2 = .ok (m, key) ∧
      s = u.store.assign m key (.string text) ∧
      ∀ i, u.store.slot? m key = some i → ∀ k ∈ u.store.subscribers i,
        ∀ w', u'.store.watchers[k]? = some w' → w'.UpToDate u'.store

/-- What listens for inputs at an element is there for the duties to set its value. -/
theorem Coupled.listeners_input {vm : ViewModel} {qs : List Duty} {d : Document Listener}
    {os : List Outline} {n : NodeId} {e : Element} {listeners : List (String × Listener)}
    (h : Coupled vm qs d os) (hn : d.equipped? n = some (e, listeners)) :
    d.listeners n "input" =
      (Duty.modelsAt qs vm.document n).map fun q => .assign q.root q.expression := by
  rw [Document.listeners_equipped hn, (h.heard n e listeners hn).2, List.filter_eq_self.2,
    List.map_map]
  · rfl
  · intro entry hentry
    obtain ⟨q, -, rfl⟩ := List.mem_map.1 hentry
    rfl

namespace Running

variable {vm : ViewModel} {u u' : World Reaction Stage} {d d' : Document Listener} {n : NodeId}

/-- What listens at an element writes what has been entered. -/
theorem dispatch (h : Running vm u d) {e : Element} {listeners : List (String × Listener)}
    (hn : d.equipped? n = some (e, listeners)) (text : String) (depth : Nat) :
    ∃ r u' d' s, Play.dispatch (Engine.ofDepth depth) vm.document n ⟨"input", some text⟩ u =
        (r, u') ∧ Running vm u' d' ∧ Refreshed vm.document s d u'.store d' ∧
      (s = u.store ∨ ∃ q ∈ Duty.modelsAt u.store.duties vm.document n, ∃ m key,
        (u.store.target q.root q.expression).2 = .ok (m, key) ∧
        s = u.store.assign m key (.string text)) ∧
      (r = .ok () → ∀ q ∈ Duty.modelsAt u.store.duties vm.document n, ∃ m key,
        (u.store.target q.root q.expression).2 = .ok (m, key) ∧
        s = u.store.assign m key (.string text) ∧
        ∀ i, u.store.slot? m key = some i → ∀ k ∈ u.store.subscribers i,
          ∀ w', u'.store.watchers[k]? = some w' → w'.UpToDate u'.store) := by
  obtain ⟨parent, children, hnode⟩ := Document.equipped?_eq_some hn
  have honce := (h.coupled.heard n e listeners hn).1
  unfold Play.dispatch
  rw [Effect.bind_apply, Play.documentAt_apply h.staged]
  dsimp only
  rw [hnode]
  dsimp only
  rw [h.coupled.listeners_input hn]
  cases hmodels : Duty.modelsAt u.store.duties vm.document n with
  | nil => exact ⟨.ok (), u, d, u.store, rfl, h, .refl _ _ _, .inl rfl,
      fun _ => List.forall_mem_nil _⟩
  | cons q qs =>
    obtain rfl : qs = [] := by
      rw [hmodels, List.length_cons] at honce
      exact List.length_eq_zero_iff.1 (Nat.le_zero.1 (Nat.le_of_succ_le_succ honce))
    unfold mapFault
    rw [List.map_singleton, each, Effect.bind_apply]
    cases depth with
    | zero =>
      exact ⟨.error .exhausted, u, d, u.store, rfl, h, .refl _ _ _, .inl rfl, by rintro ⟨⟩⟩
    | succ depth =>
      obtain ⟨r, u', hr, ⟨stop, rfl, rfl⟩ | ⟨m, key, htarget, hset⟩⟩ :=
        h.setPath q.root q.expression (.string text) depth
      · have hcall : (Engine.ofDepth (depth + 1)).call (.listener (.assign q.root q.expression)
            ⟨"input", (some text).or (d.value? n)⟩) u' = (.error stop, u') := hr
        rw [hcall]
        cases stop <;> exact ⟨_, u', d, u'.store, rfl, h, .refl _ _ _, .inl rfl, by rintro ⟨⟩⟩
      · obtain ⟨r', u'', d', hr', h', hrefreshed, hdone⟩ := h.set m key (.string text) depth
        obtain ⟨rfl, rfl⟩ := Prod.mk.inj (hset.symm.trans hr')
        have hcall : (Engine.ofDepth (depth + 1)).call (.listener (.assign q.root q.expression)
            ⟨"input", (some text).or (d.value? n)⟩) u = (r, u') := hr
        have hwritten : ∃ q' ∈ [q], ∃ m' key',
            (u.store.target q'.root q'.expression).2 = .ok (m', key') ∧
            u.store.assign m key (.string text) = u.store.assign m' key' (.string text) :=
          ⟨q, List.mem_singleton_self q, m, key, htarget, rfl⟩
        rw [hcall]
        cases r with
        | ok done =>
          exact ⟨.ok (), u', d', _, rfl, h', hrefreshed, .inr hwritten,
            fun _ => List.forall_mem_singleton.2 ⟨m, key, htarget, rfl, hdone rfl⟩⟩
        | error stop =>
          cases stop <;> exact ⟨_, u', d', _, rfl, h', hrefreshed, .inr hwritten, by rintro ⟨⟩⟩

/-- **An input.** -/
theorem input (h : Running vm u d) (n : NodeId) (text : String) (depth : Nat) :
    ∃ r u' s d₁ d', Play.input (Engine.ofDepth depth) vm.document n text u = (r, u') ∧
      Entering vm n text u d s d₁ r u' d' := by
  unfold Play.input
  rw [Effect.bind_apply]
  cases hequipped : d.equipped? n with
  | none =>
    have hn : d.element? n = none := by rw [Document.element?_equipped, hequipped]; rfl
    obtain ⟨err, herr⟩ := Coupled.updateElement_refused hn .setValue
      fun e => { e with value := some text }
    rw [Play.edit_refused (fun d => d.setValue n text) h.staged herr]
    refine ⟨_, u, u.store, d, d, rfl, h, .refl _ _ _, fun x => ?_, .inl rfl, by rintro ⟨⟩⟩
    split
    next hx =>
      rw [hx, Document.entered?, hn]
      rfl
    next => rfl
  | some entry =>
    obtain ⟨e, listeners⟩ := entry
    obtain ⟨parent, children, hn⟩ := Document.equipped?_eq_some hequipped
    obtain ⟨d₁, hd₁, ha⟩ := Document.updateElement_altered h.coupled.joined hn .setValue
      fun e => { e with value := some text }
    have hhtml : Facet.model ≠ .html := by rintro ⟨⟩
    obtain ⟨hcoupled, -, hentered⟩ :=
      h.coupled.rendered (n := n) hhtml (by rintro ⟨⟩) (.string text)
    have hrender : d.render n .model (.string text) = (.ok (), d₁) := hd₁
    rw [hrender] at hcoupled hentered
    have hequipped₁ : d₁.equipped? n = some ({ e with value := some text }, listeners) := by
      rw [ha.equipped?, if_pos rfl]
    have h₁ : Running vm (u.put vm.document d₁) d₁ := h.of_put hcoupled
    rw [Play.edit_apply (fun d => d.setValue n text) h.staged hd₁]
    obtain ⟨r, u', d', s, hr, h', hrefreshed, hwritten, hdone⟩ :=
      h₁.dispatch hequipped₁ text depth
    refine ⟨r, u', s, d₁, d', hr, h', hrefreshed, fun x => (hentered x).trans ?_, hwritten,
      fun hok => ⟨?_, hdone hok⟩⟩
    · by_cases hx : x = n
      · rw [if_pos ⟨hx, rfl⟩, if_pos hx]
        rfl
      · rw [if_neg hx, if_neg fun hx' => hx hx'.1]
    · rw [Document.entered?_equipped, hequipped]
      rfl

end Running

end DataBinding
