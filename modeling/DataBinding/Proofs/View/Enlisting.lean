/-
  Watchers that are added to a store, and where they subscribe.

  A store `Enlists` expressions if it has the data of an earlier one and one watcher
  more for each of the expressions, numbered in their order.  Each of these is
  subscribed, after those that were there, to the slots on the way of its expression;
  a watcher that collects all the while may have subscribed too.

  * `Enlists.trans`: the expressions of one store after the other;
  * `Enlists.watched`, `Enlists.trackAll`: a new watcher, and a tracked reading;
  * `Represents.nodup_walk`: in a tree no path meets a slot twice, so that there is one
    subscription for each expression (`enlisted_eq_through`).
-/
import DataBinding.Proofs.Reactive.Refinement
import DataBinding.Proofs.View.Consulting

namespace DataBinding.Store

variable {R : Type}

/-! ## Subscriptions of numbered watchers -/

/-- The subscriptions to a slot of watchers of expressions, numbered from `k` on: one for
    each time an expression meets the slot. -/
def enlisted (s : Store R) (root : MappingId) (i : SlotId) : Nat → List String → List WatcherId
  | _, [] => []
  | k, e :: es =>
    List.replicate ((s.resolve root e).1.count i) k ++ enlisted s root i (k + 1) es

/-- The watchers of expressions, numbered from `k` on, whose path goes through a slot. -/
def through (s : Store R) (root : MappingId) (i : SlotId) (k : Nat) (es : List String) :
    List WatcherId :=
  ((es.zipIdx k).filter fun entry => i ∈ (s.resolve root entry.1).1).map Prod.snd

section

variable {s s' : Store R} {root : MappingId} {i : SlotId}

theorem enlisted_append (es es' : List String) : ∀ k,
    s.enlisted root i k (es ++ es') =
      s.enlisted root i k es ++ s.enlisted root i (k + es.length) es' := by
  induction es with
  | nil => exact fun _ => rfl
  | cons e es ih =>
    intro k
    rw [List.cons_append, enlisted, enlisted, ih, List.append_assoc, List.length_cons,
      Nat.add_right_comm k 1, Nat.add_assoc k]

theorem SameData.enlisted (h : s.SameData s') (es : List String) : ∀ k,
    s'.enlisted root i k es = s.enlisted root i k es := by
  induction es with
  | nil => exact fun _ => rfl
  | cons e es ih =>
    intro k
    rw [Store.enlisted, Store.enlisted, h.resolve, ih]

theorem SameData.through (h : s.SameData s') (k : Nat) (es : List String) :
    s'.through root i k es = s.through root i k es := by
  unfold Store.through
  simp only [h.resolve]

/-- If no path meets the slot twice, every watcher whose path goes through it is
    subscribed once. -/
theorem enlisted_eq_through (h : ∀ e, (s.resolve root e).1.Nodup) (es : List String) : ∀ k,
    s.enlisted root i k es = s.through root i k es := by
  induction es with
  | nil => exact fun _ => rfl
  | cons e es ih =>
    intro k
    rw [enlisted, ih, through, through, List.zipIdx_cons, List.filter_cons]
    by_cases hi : i ∈ (s.resolve root e).1
    · rw [List.count_eq_one_of_mem (h e) hi, if_pos (by simpa using hi)]
      rfl
    · rw [List.count_eq_zero_of_not_mem hi, if_neg (by simpa using hi)]
      rfl

end

/-! ## Stores with more watchers -/

/-- A store with a watcher more for each of some expressions, subscribed to the slots on
    its way. -/
structure Enlists (s : Store R) (root : MappingId) (es : List String) (s' : Store R) : Prop where
  /-- The data is as before. -/
  data : s.SameData s'
  /-- There are no other slots. -/
  size : s'.slots.size = s.slots.size
  /-- The same watchers collect. -/
  collecting : s'.collecting = s.collecting
  /-- There is a watcher more for each expression. -/
  watchers : ∃ added, s'.watchers.toList = s.watchers.toList ++ added ∧
    added.map (fun w => (w.root, w.expression, w.evaluations)) = es.map fun e => (root, e, 1)
  /-- These, and the watcher that collects, have subscribed. -/
  subscribers : ∀ i < s.slots.size, ∃ added, s'.subscribers i = s.subscribers i ++ added ∧
    added.filter (s.watchers.size ≤ ·) = s.enlisted root i s.watchers.size es ∧
      ∀ w ∈ added, w < s.watchers.size → s.collecting.head? = some w

namespace Enlists

variable {s s' s'' : Store R} {root : MappingId} {es es' : List String}

theorem length (h : Enlists s root es s') : s'.watchers.size = s.watchers.size + es.length := by
  obtain ⟨added, hadded, hmap⟩ := h.watchers
  have hlength := congrArg List.length hmap
  rw [List.length_map, List.length_map] at hlength
  rw [← Array.length_toList, hadded, List.length_append, Array.length_toList, hlength]

theorem refl (s : Store R) (root : MappingId) : Enlists s root [] s where
  data := .refl s
  size := rfl
  collecting := rfl
  watchers := ⟨[], (List.append_nil _).symm, rfl⟩
  subscribers _ _ := ⟨[], (List.append_nil _).symm, rfl, fun _ => nofun⟩

theorem trans (h : Enlists s root es s') (h' : Enlists s' root es' s'')
    (hcollecting : ∀ w ∈ s.collecting, w < s.watchers.size) : Enlists s root (es ++ es') s'' where
  data := h.data.trans h'.data
  size := h'.size.trans h.size
  collecting := h'.collecting.trans h.collecting
  watchers := by
    obtain ⟨added, hadded, hmap⟩ := h.watchers
    obtain ⟨added', hadded', hmap'⟩ := h'.watchers
    refine ⟨added ++ added', ?_, by rw [List.map_append, List.map_append, hmap, hmap']⟩
    rw [hadded', hadded, List.append_assoc]
  subscribers i hi := by
    obtain ⟨added, hadded, hfilter, hother⟩ := h.subscribers i hi
    obtain ⟨added', hadded', hfilter', hother'⟩ := h'.subscribers i (h.size ▸ hi)
    rw [h.collecting] at hother'
    have hlength := h.length
    -- what subscribed later and is not new then is the watcher that collects, an old one
    have hold : ∀ w ∈ added', w < s'.watchers.size → w < s.watchers.size := fun w hw hlt =>
      hcollecting w (List.mem_of_head? (hother' w hw hlt))
    refine ⟨added ++ added', by rw [hadded', hadded, List.append_assoc], ?_, fun w hw hlt => ?_⟩
    · rw [List.filter_append, hfilter, enlisted_append, ← hlength, ← h.data.enlisted es',
        ← hfilter']
      refine congrArg _ (List.filter_congr fun w hw => ?_)
      rw [decide_eq_decide]
      constructor
      · exact fun hle => Nat.le_of_not_lt fun hlt => absurd (hold w hw hlt) (Nat.not_lt_of_le hle)
      · exact fun hle => Nat.le_trans (hlength ▸ Nat.le_add_right _ _) hle
    · rcases List.mem_append.1 hw with hw | hw
      · exact hother w hw hlt
      · exact hother' w hw (Nat.lt_of_lt_of_le hlt (hlength ▸ Nat.le_add_right _ _))

/-- A tracked reading adds no watcher. -/
theorem trackAll (s : Store R) (root : MappingId) (slots : List SlotId)
    (hcollecting : ∀ w ∈ s.collecting, w < s.watchers.size) :
    Enlists s root [] (s.trackAll slots) where
  data := .trackAll s slots
  size := size_slots_trackAll slots s
  collecting := collecting_trackAll s slots
  watchers := ⟨[], by rw [watchers_trackAll, List.append_nil], rfl⟩
  subscribers i hi := by
    cases hc : s.collecting with
    | nil =>
      rw [trackAll_of_not_collecting s hc]
      exact ⟨[], (List.append_nil _).symm, rfl, fun _ => nofun⟩
    | cons w ws =>
      have hw : w < s.watchers.size := hcollecting w (hc ▸ List.mem_cons_self)
      refine ⟨_, subscribers_trackAll slots s hc i hi, ?_, fun w' hw' _ => ?_⟩
      · rw [enlisted, List.filter_eq_nil_iff]
        intro w' hw'
        rw [List.eq_of_mem_replicate hw', decide_eq_true_eq]
        exact Nat.not_le_of_lt hw
      · rw [List.eq_of_mem_replicate hw']
        rfl

/-- A new watcher of an expression. -/
theorem watched (s : Store R) (root : MappingId) (e : String) (label : R) (v : Value) :
    Enlists s root [e] (s.watched root e label v) where
  data := .watched s root e label v
  size := size_slots_watched s root e label v
  collecting := rfl
  watchers := ⟨[⟨root, e, label, v, 1⟩], Array.toList_push, rfl⟩
  subscribers i hi := by
    refine ⟨_, subscribers_watched s root e label v hi, ?_, fun w hw hlt => ?_⟩
    · rw [enlisted, enlisted, List.append_nil, List.filter_eq_self]
      intro w hw
      rw [List.eq_of_mem_replicate hw]
      exact decide_eq_true (Nat.le_refl _)
    · rw [List.eq_of_mem_replicate hw] at hlt
      exact absurd hlt (Nat.lt_irrefl _)

end Enlists

/-! ## Paths in trees -/

/-- In a tree a path meets no slot twice, and only slots of the tree. -/
theorem Represents.nodup_walk {s : Store R} (path : String) : ∀ {segments : List String} {j : Json}
    {v : Value} {cells : List Cell}, s.Represents j v cells → cells.Nodup →
    (s.walk path v segments).1.Nodup ∧ ∀ i ∈ (s.walk path v segments).1, Cell.slot i ∈ cells
  | [], _, v, _, _, _ => by
    rw [walk_nil]
    exact ⟨List.nodup_nil, List.forall_mem_nil _⟩
  | segment :: rest, _, _, _, h, hnodup => by
    cases h with
    | @object members m slots cells hm h =>
      unfold walk
      split
      · exact ⟨List.nodup_nil, List.forall_mem_nil _⟩
      rw [slot?_of_holding hm]
      split
      next i hi =>
        obtain ⟨b⟩ := h.beside segment
        obtain ⟨j, own, -, hold, -, hown⟩ := b.represents_old i hi
        have hcells := b.perm.nodup_iff.1 (List.nodup_cons.1 hnodup).2
        rw [hold] at hcells
        obtain ⟨hslot, hbelow⟩ := List.nodup_cons.1 (List.Nodup.of_append_left hcells)
        have hrest : (s.walk path (s.valueAt i) rest).1.Nodup ∧
            ∀ i' ∈ (s.walk path (s.valueAt i) rest).1, Cell.slot i' ∈ own :=
          hown.nodup_walk path hbelow
        obtain ⟨hwalk, hmem⟩ := hrest
        refine ⟨List.nodup_cons.2 ⟨fun hmeet => hslot (hmem i hmeet), hwalk⟩, ?_⟩
        refine List.forall_mem_cons.2 ⟨List.mem_cons_of_mem _ (h.slot_mem hi), fun i' hi' => ?_⟩
        refine List.mem_cons_of_mem _ (b.perm.mem_iff.2 (List.mem_append_left _ ?_))
        rw [hold]
        exact List.mem_cons_of_mem _ (hmem i' hi')
      next => split <;> exact ⟨List.nodup_nil, List.forall_mem_nil _⟩
    | _ => exact ⟨List.nodup_nil, List.forall_mem_nil _⟩

theorem Tree.nodup_resolve {s : Store R} {j : Json} {root : MappingId}
    (h : s.Tree j (.mapping root)) (e : String) : (s.resolve root e).1.Nodup := by
  obtain ⟨cells, h, hnodup⟩ := h
  unfold resolve
  dsimp only
  split
  · exact List.nodup_nil
  · exact (h.nodup_walk _ hnodup).1

end DataBinding.Store
