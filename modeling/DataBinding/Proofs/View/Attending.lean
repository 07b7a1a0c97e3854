/-
  Watchers that attend to bindings.

  A watcher `Attends` to an expression of a binding if it is subscribed to the
  slot that the expression ends at, and renders the binding when it reacts.  In a
  store that is `Attended`, every expression has such a watcher, and nothing else
  is subscribed anywhere.

  * `Store.Attended.watch`: a new watcher for one more expression;
  * `Updating.each`: a pass over watchers answers, and after it every binding
    shows the data that was stale at a slot of these watchers (`Updating`).
-/
import DataBinding.Proofs.Reactive.Watching
import DataBinding.Proofs.View.Fitting
import DataBinding.Proofs.View.Staging
import DataBinding.Session.Engine

namespace DataBinding

variable {R : Type}

namespace Store

variable {s : Store R} {root : MappingId}

/-- An expression ends at a slot with a value other than a mapping and without
    doubles, and there are no blanks in it but around it. -/
def Holds (s : Store R) (root : MappingId) (expression : String) : Prop :=
  (∀ c ∈ Text.trimChars expression.toList, Text.isBlank c = false) ∧
    ∃ i, s.Names root expression i ∧ i < s.slots.size ∧ (s.valueAt i).isMapping = false ∧
      (s.valueAt i).Integral

theorem Holds.resolve {e : String} (h : s.Holds root e) :
    ∃ v, (s.resolve root e).2 = .ok v ∧ v.Integral := by
  obtain ⟨-, i, ⟨front, hfront⟩, -, -, hintegral⟩ := h
  exact ⟨s.valueAt i, by rw [hfront], hintegral⟩

/-- What a watcher has seen looks like the present value of its expression. -/
def Informed (s : Store R) (w : WatcherId) : Prop :=
  ∀ watcher, s.watchers[w]? = some watcher →
    ∃ v, (s.resolve watcher.root watcher.expression).2 = .ok v ∧ v.Alike watcher.value

variable {s : Store Reaction} {document : DocumentId}

/-- A watcher of an expression of a binding, which is subscribed to the slot that
    the expression ends at. -/
structure Attends (s : Store Reaction) (document : DocumentId) (root : MappingId) (b : Binding)
    (e : String) (w : WatcherId) : Prop where
  watcher : ∃ v n, s.watchers[w]? = some ⟨root, e, b.reaction document root, v, n⟩ ∧ v.Integral
  subscribed : ∀ i, s.Names root e i → w ∈ s.subscribers i

/-- All subscribers attend to some expressions, to each of them at least one. -/
structure Attended (s : Store Reaction) (document : DocumentId) (root : MappingId)
    (pairs : List (Binding × String)) : Prop where
  sound : ∀ i, ∀ w ∈ s.subscribers i, ∃ p ∈ pairs, s.Attends document root p.1 p.2 w
  complete : ∀ p ∈ pairs, ∃ w, s.Attends document root p.1 p.2 w

theorem Attends.informed {b : Binding} {e : String} {w : WatcherId}
    (h : s.Attends document root b e w) : s.Informed w ↔
      ∃ v seen n, (s.resolve root e).2 = .ok v ∧
        s.watchers[w]? = some ⟨root, e, b.reaction document root, seen, n⟩ ∧ v.Alike seen := by
  obtain ⟨⟨seen, n, hw, -⟩, -⟩ := h
  constructor
  · intro hinformed
    obtain ⟨v, hv, halike⟩ := hinformed _ hw
    exact ⟨v, seen, n, hv, hw, halike⟩
  · rintro ⟨v, seen', n', hv, hw', halike⟩ watcher hwatcher
    rw [hw'] at hwatcher
    obtain rfl := Option.some.inj hwatcher
    exact ⟨v, hv, halike⟩

end Store

/-! ## Reactions -/

namespace Play

variable {u : World Reaction Stage} {id : DocumentId} {d d' : Document Listener}

theorem content_apply {root : MappingId} {template text : String}
    (hcollecting : u.store.collecting = [])
    (htext : (u.store.fill root template).1 = .ok text) :
    Effect.content root template u = (.ok text, u) := by
  obtain ⟨slots, hcontent⟩ := Effect.content_tracks root template u
  rw [hcontent, htext, Store.trackAll_of_not_collecting _ hcollecting]
  rfl

/-- **A reaction renders its binding**: it shows the data then, and what all
    other bindings display is as before. -/
theorem react_apply {root : MappingId} {bs : List Binding} {os : List Outline} {b : Binding}
    {e text : String} {v : Value} (depth : Nat) (hcollecting : u.store.collecting = [])
    (hd : u.stage.documents[id]? = some d) (hfitted : Fitted d root bs os) (hb : b ∈ bs)
    (he : e ∈ b.expressions) (hv : (u.store.resolve root e).2 = .ok v)
    (htext : b.shown u.store root = .ok text) :
    ∃ d', (Engine.ofDepth (depth + 1)).react (b.reaction id root) v u = (.ok (), u.put id d') ∧
      Fitted d' root bs os ∧ Displays d' b text ∧
      ∀ b' ∈ bs, b' ≠ b → ∀ t, Displays d b' t → Displays d' b' t := by
  unfold Binding.shown at htext
  unfold Binding.expressions at he
  unfold Binding.reaction
  split at htext
  next htemplated =>
    have hfacet := Binding.isText_of_templated htemplated
    obtain ⟨d', hd', hfitted', hdisplays, hother⟩ := hfitted.render hb (.string text)
    rw [hfacet] at hd' hdisplays
    refine ⟨d', ?_, hfitted', hdisplays, hother⟩
    rw [if_pos htemplated]
    change (Effect.content root b.source >>= fun text =>
      rerender id b.node .text (.string text)) u = _
    rw [Effect.bind_apply, content_apply hcollecting htext]
    exact rerender_apply hd (hfitted.live hb) hd'
  next htemplated =>
    rw [if_neg htemplated, List.mem_singleton] at he
    subst he
    rw [hv] at htext
    obtain rfl := Except.ok.inj htext
    obtain ⟨d', hd', hfitted', hdisplays, hother⟩ := hfitted.render hb v
    refine ⟨d', ?_, hfitted', hdisplays, hother⟩
    rw [if_neg htemplated]
    exact rerender_apply hd (hfitted.live hb) hd'

end Play

/-! ## Watchers changed -/

namespace Store

/-- A store with other watchers. -/
def withWatchers (s : Store R) (watchers : Array (Watcher R)) : Store R :=
  { s with watchers := watchers }

section

variable (s : Store R) (watchers : Array (Watcher R))

@[simp]
theorem resolve_withWatchers (root : MappingId) (e : String) :
    (s.withWatchers watchers).resolve root e = s.resolve root e := by
  refine resolve_congr ?_ ?_ root e
  · exact fun _ _ => rfl
  · exact fun _ => rfl

@[simp]
theorem names_withWatchers (root : MappingId) (e : String) (i : SlotId) :
    (s.withWatchers watchers).Names root e i ↔ s.Names root e i := by
  unfold Names
  rw [resolve_withWatchers]
  rfl

end

/-- Watchers of which one has seen something else. -/
structure Revised (s : Store R) (w : WatcherId) (watchers : Array (Watcher R)) : Prop where
  here : ∀ root e r seen n, s.watchers[w]? = some ⟨root, e, r, seen, n⟩ →
    ∃ v n', watchers[w]? = some ⟨root, e, r, v, n'⟩ ∧ (seen.Integral → v.Integral)
  elsewhere : ∀ x, x ≠ w → watchers[x]? = s.watchers[x]?

theorem Revised.modify {s : Store R} {w : WatcherId} {f : Watcher R → Watcher R}
    (hf : ∀ root e r seen n, ∃ v n', f ⟨root, e, r, seen, n⟩ = ⟨root, e, r, v, n'⟩ ∧
      (seen.Integral → v.Integral)) : s.Revised w (s.watchers.modify w f) where
  here root e r seen n h := by
    obtain ⟨v, n', hv, hintegral⟩ := hf root e r seen n
    refine ⟨v, n', ?_, hintegral⟩
    rw [Array.getElem?_modify, if_pos rfl, h, Option.map_some, hv]
  elsewhere x hx := by rw [Array.getElem?_modify, if_neg (Ne.symm hx)]

/-- A watcher that has been counted and has seen a value. -/
def renewed (s : Store R) (w : WatcherId) (v : Value) : Store R :=
  (s.counted w).updateWatcher w fun watcher => { watcher with value := v }

theorem renewed_eq (s : Store R) (w : WatcherId) (v : Value) :
    s.renewed w v = s.withWatchers (s.watchers.modify w fun watcher =>
      { watcher with evaluations := watcher.evaluations + 1, value := v }) := by
  have hwatchers : (s.renewed w v).watchers = s.watchers.modify w fun watcher =>
      { watcher with evaluations := watcher.evaluations + 1, value := v } := by
    refine Array.ext_getElem? fun x => ?_
    unfold renewed counted updateWatcher
    simp only [Array.getElem?_modify]
    by_cases hx : w = x
    · rw [if_pos hx, if_pos hx, if_pos hx, Option.map_map]
      rfl
    · rw [if_neg hx, if_neg hx, if_neg hx]
  rw [← hwatchers]
  rfl

theorem Revised.attends {s : Store Reaction} {document : DocumentId} {root : MappingId}
    {w : WatcherId} {watchers : Array (Watcher Reaction)} (h : s.Revised w watchers) {b : Binding}
    {e : String} {x : WatcherId} (hx : s.Attends document root b e x) :
    (s.withWatchers watchers).Attends document root b e x := by
  obtain ⟨⟨v, n, hv, hintegral⟩, hsubscribed⟩ := hx
  refine ⟨?_, fun i hi => hsubscribed i ((names_withWatchers s watchers root e i).1 hi)⟩
  by_cases hxw : x = w
  · subst hxw
    obtain ⟨v', n', hv', hintegral'⟩ := h.here _ _ _ _ _ hv
    exact ⟨v', n', hv', hintegral' hintegral⟩
  · exact ⟨v, n, (h.elsewhere x hxw).trans hv, hintegral⟩

theorem Revised.attended {s : Store Reaction} {document : DocumentId} {root : MappingId}
    {w : WatcherId} {watchers : Array (Watcher Reaction)} (h : s.Revised w watchers)
    {pairs : List (Binding × String)} (hs : s.Attended document root pairs) :
    (s.withWatchers watchers).Attended document root pairs where
  sound i x hx := by
    obtain ⟨p, hp, hx⟩ := hs.sound i x hx
    exact ⟨p, hp, h.attends hx⟩
  complete p hp := by
    obtain ⟨x, hx⟩ := hs.complete p hp
    exact ⟨x, h.attends hx⟩

theorem Revised.informed {s : Store R} {w : WatcherId} {watchers : Array (Watcher R)}
    (h : s.Revised w watchers) {x : WatcherId} (hx : x ≠ w) :
    (s.withWatchers watchers).Informed x ↔ s.Informed x := by
  unfold Informed
  rw [show (s.withWatchers watchers).watchers[x]? = s.watchers[x]? from h.elsewhere x hx]
  simp only [resolve_withWatchers]

end Store

/-! ## A pass -/

/-- The bindings with each of the expressions that they depend on. -/
def Binding.pairs (bs : List Binding) : List (Binding × String) :=
  bs.flatMap fun b => b.expressions.map (b, ·)

theorem Binding.mem_pairs {bs : List Binding} {p : Binding × String} :
    p ∈ pairs bs ↔ p.1 ∈ bs ∧ p.2 ∈ p.1.expressions := by
  obtain ⟨b, e⟩ := p
  simp only [pairs, List.mem_flatMap, List.mem_map, Prod.mk.injEq]
  constructor
  · rintro ⟨b', hb', e', he', rfl, rfl⟩
    exact ⟨hb', he'⟩
  · rintro ⟨hb, he⟩
    exact ⟨b, hb, e, he, rfl, rfl⟩

/-- A binding displays the text that is to be shown. -/
def Binding.Faithful (d : Document Listener) (s : Store R) (root : MappingId) (b : Binding) :
    Prop :=
  ∃ text, b.shown s root = .ok text ∧ Displays d b text

theorem Binding.Faithful.shows {d : Document Listener} {s : Store R} {root : MappingId}
    {b : Binding} (h : b.Faithful d s root) : b.Shows d s root := by
  obtain ⟨text, htext, hdisplays⟩ := h
  exact ⟨text, htext, hdisplays.current?⟩

/-- What holds while the watchers `rest` are still to be updated: only these have
    missed a change, and a binding that does not show the data waits for one of
    them. -/
structure Updating (s : Store Reaction) (document : DocumentId) (root : MappingId)
    (bs : List Binding) (rest : List WatcherId) (u : World Reaction Stage) : Prop where
  store : ∃ watchers, u.store = s.withWatchers watchers
  attended : u.store.Attended document root (Binding.pairs bs)
  informed : ∀ i, ∀ w ∈ u.store.subscribers i, u.store.Informed w ∨ w ∈ rest
  view : ∃ d, u.stage.documents[document]? = some d ∧ Fitted d root bs [] ∧
    ∀ b ∈ bs, b.Faithful d u.store root ∨
      ∃ w ∈ rest, ∃ e ∈ b.expressions, u.store.Attends document root b e w ∧ ¬ u.store.Informed w

/-- A reaction tells which place is rendered. -/
theorem Binding.place_of_reaction {b b' : Binding} {document : DocumentId} {root : MappingId}
    (h : b.reaction document root = b'.reaction document root) :
    b.node = b'.node ∧ b.facet = b'.facet := by
  unfold reaction at h
  by_cases hb : b.templated = true
  · by_cases hb' : b'.templated = true
    · rw [if_pos hb, if_pos hb', Reaction.fill.injEq] at h
      exact ⟨h.2.1, (isText_of_templated hb).trans (isText_of_templated hb').symm⟩
    · rw [if_pos hb, if_neg hb'] at h
      cases h
  · by_cases hb' : b'.templated = true
    · rw [if_neg hb, if_pos hb'] at h
      cases h
    · rw [if_neg hb, if_neg hb', Reaction.render.injEq] at h
      exact h.2

theorem Binding.shown_withWatchers {s : Store R} (watchers : Array (Watcher R)) {root : MappingId}
    {b : Binding} (h : ∀ e ∈ b.expressions, ∃ v, (s.resolve root e).2 = .ok v) :
    b.shown (s.withWatchers watchers) root = b.shown s root := by
  obtain ⟨text, htext, htext'⟩ : ∃ text, b.shown s root = .ok text ∧
      b.shown (s.withWatchers watchers) root = .ok text := shown_alike fun e he => by
      obtain ⟨v, hv⟩ := h e he
      exact ⟨v, v, hv, by rw [Store.resolve_withWatchers, hv], .refl v⟩
  rw [htext, htext']

namespace Updating

variable {s : Store Reaction} {document : DocumentId} {root : MappingId} {bs : List Binding}
  {w : WatcherId} {rest : List WatcherId} {u u' : World Reaction Stage}

/-- The watcher has been updated, and its binding shows the data. -/
theorem next (h : Updating s document root bs (w :: rest) u)
    (hholds : ∀ b ∈ bs, ∀ e ∈ b.expressions, s.Holds root e) {watchers : Array (Watcher Reaction)}
    (hstore : u'.store = u.store.withWatchers watchers) (hrevised : u.store.Revised w watchers)
    (hinformed : (u.store.withWatchers watchers).Informed w)
    (hview : ∀ d, u.stage.documents[document]? = some d → Fitted d root bs [] →
      ∃ d', u'.stage.documents[document]? = some d' ∧ Fitted d' root bs [] ∧
        ∀ b ∈ bs, (b.Faithful d u.store root → b.Faithful d' u.store root) ∧
          ∀ e ∈ b.expressions, u.store.Attends document root b e w → ¬ u.store.Informed w →
            b.Faithful d' u.store root) : Updating s document root bs rest u' := by
  obtain ⟨⟨watchers₀, hstore₀⟩, hattended, hmissed, d, hd, hfitted, hbs⟩ := h
  obtain ⟨d', hd', hfitted', hbs'⟩ := hview d hd hfitted
  have hshown : ∀ b ∈ bs, b.Faithful d' u.store root →
      b.Faithful d' (u.store.withWatchers watchers) root := by
    rintro b hb ⟨text, htext, hdisplays⟩
    refine ⟨text, ?_, hdisplays⟩
    rw [Binding.shown_withWatchers, htext]
    intro e he
    obtain ⟨v, hv, -⟩ := (hholds b hb e he).resolve
    exact ⟨v, by rw [hstore₀, Store.resolve_withWatchers, hv]⟩
  refine ⟨⟨watchers, by rw [hstore, hstore₀]; rfl⟩, by rw [hstore]; exact hrevised.attended hattended,
    fun i x hx => ?_, d', hd', hfitted', fun b hb => ?_⟩
  · rw [hstore] at hx ⊢
    by_cases hxw : x = w
    · exact .inl (hxw ▸ hinformed)
    · rcases hmissed i x hx with hx | hx
      · exact .inl ((hrevised.informed hxw).2 hx)
      · exact .inr ((List.mem_cons.1 hx).resolve_left hxw)
  · rw [hstore]
    rcases hbs b hb with hfaithful | ⟨x, hx, e, he, hattends, hnot⟩
    · exact .inl (hshown b hb ((hbs' b hb).1 hfaithful))
    · by_cases hxw : x = w
      · subst hxw
        exact .inl (hshown b hb ((hbs' b hb).2 e he hattends hnot))
      · refine .inr ⟨x, (List.mem_cons.1 hx).resolve_left hxw, e, he, hrevised.attends hattends, ?_⟩
        rwa [hrevised.informed hxw]

/-- The expressions of the bindings have values. -/
theorem resolve (h : Updating s document root bs rest u)
    (hholds : ∀ b ∈ bs, ∀ e ∈ b.expressions, s.Holds root e) {b : Binding} (hb : b ∈ bs) {e : String}
    (he : e ∈ b.expressions) : ∃ v, (u.store.resolve root e).2 = .ok v ∧ v.Integral := by
  obtain ⟨watchers, hstore⟩ := h.store
  rw [hstore, Store.resolve_withWatchers]
  exact (hholds b hb e he).resolve

/-- A watcher for which nothing has changed has missed nothing: it is counted. -/
theorem step_unchanged (h : Updating s document root bs (w :: rest) u)
    (hholds : ∀ b ∈ bs, ∀ e ∈ b.expressions, s.Holds root e) {b : Binding} {e : String}
    (hattends : u.store.Attends document root b e w) {v seen : Value} {n : Nat}
    (hv : (u.store.resolve root e).2 = .ok v)
    (hwatcher : u.store.watchers[w]? = some ⟨root, e, b.reaction document root, seen, n⟩)
    (halike : v.Alike seen) :
    Updating s document root bs rest { u with store := u.store.counted w } := by
  have hrevised : u.store.Revised w (u.store.watchers.modify w fun watcher =>
      { watcher with evaluations := watcher.evaluations + 1 }) :=
    .modify fun root e r seen n => ⟨seen, n + 1, rfl, id⟩
  have hinformed : u.store.Informed w := hattends.informed.2 ⟨v, seen, n, hv, hwatcher, halike⟩
  refine h.next hholds rfl hrevised ?_ fun d hd hfitted =>
    ⟨d, hd, hfitted, fun b' _ => ⟨id, fun e' _ _ hnot => absurd hinformed hnot⟩⟩
  refine (hrevised.attends hattends).informed.2 ⟨v, seen, n + 1, ?_, ?_, halike⟩
  · rw [Store.resolve_withWatchers, hv]
  · rw [Store.withWatchers, Array.getElem?_modify, if_pos rfl, hwatcher]
    rfl

/-- A watcher for which something has changed renders its binding. -/
theorem step_changed (h : Updating s document root bs (w :: rest) u)
    (hcollecting : u.store.collecting = [])
    (hholds : ∀ b ∈ bs, ∀ e ∈ b.expressions, s.Holds root e) {b : Binding} (hb : b ∈ bs) {e : String}
    (he : e ∈ b.expressions) (hattends : u.store.Attends document root b e w) {v seen : Value}
    {n : Nat} (hv : (u.store.resolve root e).2 = .ok v) (hintegral : v.Integral)
    (hwatcher : u.store.watchers[w]? = some ⟨root, e, b.reaction document root, seen, n⟩)
    (depth : Nat) :
    ∃ d', (Engine.ofDepth (depth + 1)).react (b.reaction document root) v
        { u with store := u.store.counted w } =
          (.ok (), World.put { u with store := u.store.counted w } document d') ∧
      Updating s document root bs rest
        (World.put { u with store := u.store.renewed w v } document d') := by
  have hrevised : u.store.Revised w (u.store.watchers.modify w fun watcher =>
      { watcher with evaluations := watcher.evaluations + 1, value := v }) :=
    .modify fun root e r seen n => ⟨v, n + 1, rfl, fun _ => hintegral⟩
  have hshown : ∀ b ∈ bs, b.shown (u.store.counted w) root = b.shown u.store root :=
    fun b hb => Binding.shown_withWatchers _ fun e he => by
      obtain ⟨v, hv, -⟩ := h.resolve hholds hb he
      exact ⟨v, hv⟩
  obtain ⟨d, hd, hfitted, -⟩ := h.view
  obtain ⟨text, htext, -⟩ : ∃ text, b.shown u.store root = .ok text ∧
      b.shown u.store root = .ok text := Binding.shown_alike fun e he => by
      obtain ⟨v, hv, -⟩ := h.resolve hholds hb he
      exact .of_ok hv
  obtain ⟨d', hreact, hfitted', hdisplays, hother⟩ :=
    Play.react_apply (u := { u with store := u.store.counted w }) depth hcollecting hd hfitted hb
      he (by rw [show u.store.counted w = u.store.withWatchers _ from rfl,
        Store.resolve_withWatchers, hv]) (by rw [hshown b hb, htext])
  refine ⟨d', hreact, h.next hholds (Store.renewed_eq _ _ _) hrevised ?_ fun d₁ hd₁ _ =>
    ⟨d', World.documents_put hd d', hfitted', fun b' hb' => ⟨fun hfaithful => ?_,
      fun e' he' hattends' _ => ?_⟩⟩⟩
  · refine (hrevised.attends hattends).informed.2 ⟨v, v, n + 1, ?_, ?_, .refl v⟩
    · rw [Store.resolve_withWatchers, hv]
    · rw [Store.withWatchers, Array.getElem?_modify, if_pos rfl, hwatcher]
      rfl
  · obtain rfl : d₁ = d := Option.some.inj (hd₁.symm.trans hd)
    by_cases hbb : b' = b
    · exact hbb ▸ ⟨text, htext, hdisplays⟩
    · obtain ⟨text', htext', hdisplays'⟩ := hfaithful
      exact ⟨text', htext', hother b' hb' hbb text' hdisplays'⟩
  · -- the watcher renders no other binding
    obtain ⟨seen', n', hwatcher', -⟩ := hattends'.watcher
    rw [hwatcher, Option.some.injEq, Watcher.mk.injEq] at hwatcher'
    obtain ⟨hnode, hfacet⟩ := Binding.place_of_reaction hwatcher'.2.2.1
    obtain rfl := hfitted.alone b hb b' hb' hnode hfacet
    exact ⟨text, htext, hdisplays⟩

/-- **One update** answers, and renders what its watcher has missed. -/
theorem step (h : Updating s document root bs (w :: rest) u) (hcollecting : s.collecting = [])
    (hholds : ∀ b ∈ bs, ∀ e ∈ b.expressions, s.Holds root e) {i : SlotId}
    (hw : w ∈ s.subscribers i) (depth : Nat) :
    ∃ u', Effect.updateWatcher (Engine.ofDepth (depth + 1)).react w u = (.ok (), u') ∧
      Updating s document root bs rest u' := by
  obtain ⟨watchers₀, hstore₀⟩ := h.store
  have hcollecting₀ : u.store.collecting = [] := by rw [hstore₀]; exact hcollecting
  obtain ⟨⟨b, e⟩, hp, hattends⟩ := h.attended.sound i w (by rw [hstore₀]; exact hw)
  obtain ⟨hb, he⟩ := Binding.mem_pairs.1 hp
  dsimp only at hattends hb he
  obtain ⟨v, hv, hintegral⟩ := h.resolve hholds hb he
  obtain ⟨seen, n, hwatcher, hseen⟩ := hattends.watcher
  by_cases hequal : v.equal seen = true
  · rw [Effect.updateWatcher_of_equal _ hwatcher hv hequal, Store.trackAll_counted hcollecting₀]
    exact ⟨_, rfl, h.step_unchanged hholds hattends hv hwatcher
      (Value.alike_of_equal hintegral hseen hequal)⟩
  · rw [Effect.updateWatcher_of_changed _ hwatcher hv hequal, Store.trackAll_counted hcollecting₀,
      Effect.bind_apply]
    obtain ⟨d', hreact, hnext⟩ :=
      h.step_changed hcollecting₀ hholds hb he hattends hv hintegral hwatcher depth
    rw [hreact]
    exact ⟨_, rfl, hnext⟩

/-- **A pass** answers, and renders all that its watchers have missed. -/
theorem each (hcollecting : s.collecting = [])
    (hholds : ∀ b ∈ bs, ∀ e ∈ b.expressions, s.Holds root e) {i : SlotId} (depth : Nat) :
    ∀ {rest : List WatcherId} {u : World Reaction Stage}, Updating s document root bs rest u →
      (∀ w ∈ rest, w ∈ s.subscribers i) →
      ∃ u', Effect.each (Effect.updateWatcher (Engine.ofDepth (depth + 1)).react) rest u =
          (.ok (), u') ∧ Updating s document root bs [] u'
  | [], u, h, _ => ⟨u, rfl, h⟩
  | w :: rest, u, h, hw => by
    obtain ⟨hhead, htail⟩ := List.forall_mem_cons.1 hw
    obtain ⟨u₁, hu₁, h₁⟩ := h.step hcollecting hholds hhead depth
    obtain ⟨u₂, hu₂, h₂⟩ := each hcollecting hholds depth h₁ htail
    refine ⟨u₂, ?_, h₂⟩
    rw [Effect.each, Effect.bind_apply, hu₁]
    exact hu₂

end Updating

end DataBinding
