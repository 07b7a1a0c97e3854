/-
  Watchers made for bindings.

  A store is `Wired` for some expressions of bindings, on the data of another
  store, if it has that data and its watchers attend to just these expressions
  and have seen their values.

  * `Wired.watch`: a watcher of an expression that has a value adds it;
  * `Wired.make`: making a binding adds its expressions, and comes to rendering
    the text that is to be shown.
-/
import DataBinding.Proofs.View.Attending
import DataBinding.View.Model

namespace DataBinding

open Effect (mapFault each)

namespace Store

section

variable {R : Type} (s : Store R) (root : MappingId) (e : String) (label : R) (v : Value)

@[simp]
theorem resolve_watched (root' : MappingId) (e' : String) :
    (s.watched root e label v).resolve root' e' = s.resolve root' e' := by
  refine resolve_congr (fun m key => ?_) (valueAt_watched s root e label v) root' e'
  rw [slot?, members, mappings_watched]
  rfl

@[simp]
theorem names_watched (root' : MappingId) (e' : String) (i : SlotId) :
    (s.watched root e label v).Names root' e' i ↔ s.Names root' e' i := by
  unfold Names
  rw [resolve_watched, valueAt_watched]

theorem mem_subscribers_watched {i : SlotId} {w : WatcherId} :
    w ∈ (s.watched root e label v).subscribers i ↔
      w ∈ s.subscribers i ∨ i < s.slots.size ∧ w = s.watchers.size ∧
        i ∈ (s.resolve root e).1 := by
  by_cases hi : i < s.slots.size
  · rw [subscribers_watched s root e label v hi, List.mem_append, List.mem_replicate,
      ← Nat.pos_iff_ne_zero, List.count_pos_iff]
    simp [hi, and_comm]
  · have hle := Nat.le_of_not_lt hi
    rw [subscribers_of_size_le s hle, subscribers_of_size_le _
      ((size_slots_watched s root e label v).trans_le hle)]
    simp [hi]

theorem getElem?_watchers_watched {w : WatcherId} {watcher : Watcher R}
    (h : s.watchers[w]? = some watcher) :
    (s.watched root e label v).watchers[w]? = some watcher := by
  obtain ⟨hlt, -⟩ := Array.getElem?_eq_some_iff.1 h
  exact (Array.getElem?_push_lt hlt).trans (Array.getElem?_eq_getElem hlt ▸ h)

end

variable {s s' : Store Reaction} {document : DocumentId} {root : MappingId}
  {ps : List (Binding × String)} {b : Binding} {e : String}

theorem Attends.watched {w : WatcherId} (h : s.Attends document root b e w) (root' : MappingId)
    (e' : String) (label : Reaction) (v : Value) :
    (s.watched root' e' label v).Attends document root b e w where
  watcher := by
    obtain ⟨seen, n, hw, hseen⟩ := h.watcher
    exact ⟨seen, n, getElem?_watchers_watched s root' e' label v hw, hseen⟩
  subscribed i hi := (mem_subscribers_watched s root' e' label v).2
    (.inl (h.subscribed i ((names_watched s root' e' label v root e i).1 hi)))

/-- A store with the data of `s`, whose watchers attend to some expressions and
    have seen the values. -/
structure Wired (s : Store Reaction) (document : DocumentId) (root : MappingId)
    (ps : List (Binding × String)) (s' : Store Reaction) : Prop where
  mappings : s'.mappings = s.mappings
  size : s'.slots.size = s.slots.size
  values : ∀ i, s'.valueAt i = s.valueAt i
  quiet : s'.collecting = []
  depth : s'.depth = s.depth
  limit : s'.limit = s.limit
  attended : s'.Attended document root ps
  informed : ∀ i, ∀ w ∈ s'.subscribers i, s'.Informed w

namespace Wired

theorem resolve (h : Wired s document root ps s') (root' : MappingId) (e : String) :
    s'.resolve root' e = s.resolve root' e := by
  refine resolve_congr (fun m key => ?_) h.values root' e
  rw [slot?, members, h.mappings]
  rfl

theorem names (h : Wired s document root ps s') (root' : MappingId) (e : String) (i : SlotId) :
    s'.Names root' e i ↔ s.Names root' e i := by
  unfold Names
  rw [h.resolve, h.values]

theorem holds (h : Wired s document root ps s') (he : s.Holds root e) : s'.Holds root e := by
  obtain ⟨hblank, i, hi, hlt, hscalar, hintegral⟩ := he
  refine ⟨hblank, i, (h.names root e i).2 hi, h.size ▸ hlt, ?_, ?_⟩
  · rwa [h.values]
  · rwa [h.values]

/-- Without subscribers, there is nothing to attend to. -/
theorem start (hquiet : s.collecting = []) (hnone : ∀ i, s.subscribers i = []) :
    Wired s document root [] s where
  mappings := rfl
  size := rfl
  values _ := rfl
  quiet := hquiet
  depth := rfl
  limit := rfl
  attended := by
    refine ⟨fun i w hw => ?_, fun _ => nofun⟩
    rw [hnone i] at hw
    cases hw
  informed i w hw := by
    rw [hnone i] at hw
    cases hw

/-- A watcher of one more expression. -/
theorem watch {u : World Reaction Stage} (h : Wired s document root ps u.store)
    (he : s.Holds root e) :
    ∃ w s', Effect.watch root e (b.reaction document root) u = (.ok w, { u with store := s' }) ∧
      Wired s document root (ps ++ [(b, e)]) s' := by
  obtain ⟨-, i, hi, hlt, -, hintegral⟩ := h.holds he
  obtain ⟨v, hv⟩ : ∃ v, u.store.valueAt i = v := ⟨_, rfl⟩
  obtain ⟨front, hfront⟩ := hi
  rw [hv] at hfront hintegral
  have hvisited : (u.store.resolve root e).1 = front ++ [i] := by rw [hfront]
  have hok : (u.store.resolve root e).2 = .ok v := by rw [hfront]
  have hnew : (u.store.watched root e (b.reaction document root) v).watchers[u.store.watchers.size]? =
      some ⟨root, e, b.reaction document root, v, 1⟩ := Array.getElem?_push_size
  have hattends : (u.store.watched root e (b.reaction document root) v).Attends document root b e
      u.store.watchers.size := by
    refine ⟨⟨v, 1, hnew, hintegral⟩, fun j hj => ?_⟩
    obtain ⟨front', hfront'⟩ := (names_watched _ _ _ _ _ _ _ _).1 hj
    rw [hfront] at hfront'
    have hji : [i] = [j] := (List.append_inj' (Prod.mk.inj hfront').1 rfl).2
    obtain rfl := List.singleton_inj.1 hji
    rw [mem_subscribers_watched, hvisited]
    exact .inr ⟨hlt, rfl, List.mem_append_right _ List.mem_cons_self⟩
  refine ⟨_, _, Effect.watch_of_ok hok, ⟨(mappings_watched ..).trans h.mappings,
    (size_slots_watched ..).trans h.size, fun j => (valueAt_watched ..).trans (h.values j), h.quiet,
    (depth_watched ..).trans h.depth, (limit_watched ..).trans h.limit, ⟨fun j w hw => ?_,
    fun p hp => ?_⟩, fun j w hw => ?_⟩⟩
  · rcases (mem_subscribers_watched ..).1 hw with hw | ⟨-, rfl, -⟩
    · obtain ⟨p, hp, hpw⟩ := h.attended.sound j w hw
      exact ⟨p, List.mem_append_left _ hp, hpw.watched ..⟩
    · exact ⟨(b, e), List.mem_append_right _ List.mem_cons_self, hattends⟩
  · rcases List.mem_append.1 hp with hp | hp
    · obtain ⟨w, hw⟩ := h.attended.complete p hp
      exact ⟨w, hw.watched ..⟩
    · obtain rfl := List.mem_singleton.1 hp
      exact ⟨_, hattends⟩
  · rcases (mem_subscribers_watched ..).1 hw with hw | ⟨-, rfl, -⟩
    · obtain ⟨p, hp, hpw⟩ := h.attended.sound j w hw
      obtain ⟨x, seen, n, hx, hwatcher, hseen⟩ := hpw.informed.1 (h.informed j w hw)
      exact (hpw.watched ..).informed.2 ⟨x, seen, n, by rwa [resolve_watched],
        getElem?_watchers_watched _ _ _ _ _ hwatcher, hseen⟩
    · exact hattends.informed.2 ⟨v, v, 1, by rwa [resolve_watched], hnew, .refl v⟩

/-- Watchers of more expressions. -/
theorem watchAll : ∀ {es : List String} {ps : List (Binding × String)} {u : World Reaction Stage},
    Wired s document root ps u.store → (∀ e ∈ es, s.Holds root e) →
      ∃ s', each (fun e => do
          let _ ← Effect.watch root e (b.reaction document root)) es u =
            (.ok (), { u with store := s' }) ∧
        Wired s document root (ps ++ es.map (b, ·)) s'
  | [], ps, u, h, _ => ⟨u.store, rfl, by rwa [List.map_nil, List.append_nil]⟩
  | e :: es, ps, u, h, hes => by
    obtain ⟨he, hes⟩ := List.forall_mem_cons.1 hes
    obtain ⟨w, s₁, hu₁, h₁⟩ := h.watch (b := b) he
    obtain ⟨s₂, hu₂, h₂⟩ := watchAll (u := { u with store := s₁ }) h₁ hes
    refine ⟨s₂, ?_, ?_⟩
    · rw [Effect.each, Effect.bind_apply, Effect.bind_apply, hu₁]
      exact hu₂
    · rwa [List.append_assoc] at h₂

end Wired

end Store

/-! ## Making a binding -/

/-- Make a binding on the data of a view model. -/
def Binding.make (vm : ViewModel) (b : Binding) : Play Unit :=
  if b.templated then Play.bindTemplate vm b.node b.source (Template.placeholders b.source)
  else Play.bindValue vm b.node b.source b.facet

theorem Play.bindText_eq (vm : ViewModel) (node : NodeId) (source : String) :
    bindText vm node source = Binding.make vm ⟨node, .text, source⟩ := by
  unfold bindText Binding.make Binding.templated
  cases Template.placeholders source <;> rfl

theorem Play.bindValue_eq (vm : ViewModel) {node : NodeId} {facet : Facet} {source : String}
    (h : facet.isText = false) :
    bindValue vm node source facet = Binding.make vm ⟨node, facet, source⟩ := by
  unfold Binding.make Binding.templated
  rw [h]
  rfl

namespace Store.Wired

variable {s : Store Reaction} {vm : ViewModel} {ps : List (Binding × String)} {b : Binding}
  {u : World Reaction Stage}

/-- **Making a binding** comes to rendering the text that is to be shown, with
    watchers for its expressions. -/
theorem make (h : Wired s vm.document vm.data ps u.store)
    (hb : ∀ e ∈ b.expressions, s.Holds vm.data e) :
    ∃ s' v, Wired s vm.document vm.data (ps ++ b.expressions.map (b, ·)) s' ∧
      b.shown s vm.data = .ok (b.facet.shown v) ∧
      b.make vm u = mapFault .binding
        (Play.edit vm.document fun d => d.render b.node b.facet v) { u with store := s' } := by
  by_cases ht : b.templated = true
  · obtain ⟨s', hwatch, h'⟩ := h.watchAll (b := b) hb
    obtain ⟨text, htext', htext⟩ := Binding.shown_alike (b := b) fun e he => by
      obtain ⟨v, hv, -⟩ := (hb e he).resolve
      exact (⟨v, v, by rw [h'.resolve, hv], hv, .refl v⟩ : s'.AlikeAt s vm.data e)
    refine ⟨s', .string text, h', ?_, ?_⟩
    · rw [htext, Binding.isText_of_templated ht]
      rfl
    · unfold Binding.shown at htext'
      rw [if_pos ht] at htext'
      unfold Binding.expressions Binding.reaction at hwatch
      simp only [if_pos ht] at hwatch
      have hmake : b.make vm = Play.bindTemplate vm b.node b.source
        (Template.placeholders b.source) := if_pos ht
      rw [hmake, Binding.isText_of_templated ht]
      unfold Play.bindTemplate mapFault
      rw [Effect.bind_apply, hwatch]
      dsimp only
      rw [Effect.bind_apply, Play.content_apply h'.quiet htext']
  · have hsource : b.expressions = [b.source] := if_neg ht
    rw [hsource] at hb ⊢
    have he := hb b.source (List.mem_singleton_self _)
    obtain ⟨v, hv, -⟩ := he.resolve
    obtain ⟨w, s', hwatch, h'⟩ := h.watch (b := b) he
    refine ⟨s', v, h', ?_, ?_⟩
    · unfold Binding.shown
      rw [if_neg ht, hv]
      rfl
    · unfold Binding.reaction at hwatch
      rw [if_neg ht] at hwatch
      have hmake : b.make vm = Play.bindValue vm b.node b.source b.facet := if_neg ht
      rw [hmake]
      unfold Play.bindValue mapFault
      rw [Effect.bind_apply, hwatch]
      dsimp only
      rw [Effect.bind_apply, Effect.getPath_apply]
      dsimp only
      rw [h'.resolve, hv, Store.trackAll_of_not_collecting _ h'.quiet]
      rfl

end Store.Wired

end DataBinding
