/-
  What the operations on a store do to what can be read from it.

  * reading paths depends on the mappings and the values only (`walk_congr`,
    `resolve_congr`, `target_congr`);
  * tracking changes nothing but dependency sets, and these by one subscription
    for each time a slot is met (`trackAll_eq`, `subscribers_trackAll`);
  * one equation for the values, and one for the dependency sets, after each
    operation on slots.
-/
import DataBinding.Reactive.Template
import Mathlib.Tactic.Common

namespace DataBinding.Store

variable {R : Type} (s : Store R)

/-! ## Slots -/

theorem valueAt_eq (i : SlotId) : s.valueAt i = (s.slots[i]?).elim .undefined Slot.value := rfl

theorem subscribers_eq (i : SlotId) : s.subscribers i = (s.slots[i]?).elim [] Slot.subscribers := rfl

theorem subscribers_of_size_le {i : SlotId} (h : s.slots.size ≤ i) : s.subscribers i = [] := by
  rw [subscribers_eq, Array.getElem?_eq_none h, Option.elim_none]

theorem lt_size_of_mem_subscribers {i : SlotId} {w : WatcherId} (h : w ∈ s.subscribers i) :
    i < s.slots.size := by
  by_contra hle
  rw [subscribers_of_size_le s (Nat.le_of_not_lt hle)] at h
  cases h

@[simp]
theorem valueAt_subscribe (slot : SlotId) (w : WatcherId) (i : SlotId) :
    (s.subscribe slot w).valueAt i = s.valueAt i := by
  simp only [valueAt_eq, subscribe, Array.getElem?_modify]
  split <;> cases s.slots[i]? <;> rfl

theorem subscribers_subscribe (slot : SlotId) (w : WatcherId) (i : SlotId) :
    (s.subscribe slot w).subscribers i =
      if slot = i ∧ i < s.slots.size then s.subscribers i ++ [w] else s.subscribers i := by
  simp only [subscribers_eq, subscribe, Array.getElem?_modify]
  by_cases hs : slot = i
  · by_cases hi : i < s.slots.size
    · simp [hs, hi]
    · simp [hs, hi]
  · simp [hs]

@[simp]
theorem subscribers_write (slot : SlotId) (v : Value) (i : SlotId) :
    (s.write slot v).subscribers i = s.subscribers i := by
  simp only [subscribers_eq, write, Array.getElem?_modify]
  split <;> cases s.slots[i]? <;> rfl

theorem valueAt_write (slot : SlotId) (v : Value) (i : SlotId) :
    (s.write slot v).valueAt i = if slot = i ∧ i < s.slots.size then v else s.valueAt i := by
  simp only [valueAt_eq, write, Array.getElem?_modify]
  by_cases hs : slot = i
  · by_cases hi : i < s.slots.size
    · simp [hs, hi]
    · simp [hs, hi]
  · simp [hs]

theorem valueAt_newSlot (v : Value) (i : SlotId) :
    (s.newSlot v).2.valueAt i = if i = s.slots.size then v else s.valueAt i := by
  simp only [valueAt_eq, newSlot, Array.getElem?_push]
  split <;> rfl

@[simp]
theorem subscribers_newSlot (v : Value) (i : SlotId) :
    (s.newSlot v).2.subscribers i = s.subscribers i := by
  simp only [subscribers_eq, newSlot, Array.getElem?_push]
  split
  next h => rw [Array.getElem?_eq_none (Nat.le_of_eq h.symm)]; rfl
  next => rfl

@[simp]
theorem valueAt_updateWatcher (w : WatcherId) (f : Watcher R → Watcher R) (i : SlotId) :
    (s.updateWatcher w f).valueAt i = s.valueAt i := rfl

@[simp]
theorem slot?_updateWatcher (w : WatcherId) (f : Watcher R → Watcher R) (m : MappingId)
    (key : String) : (s.updateWatcher w f).slot? m key = s.slot? m key := rfl

/-! ## Watchers -/

theorem watchers_updateWatcher (w : WatcherId) (f : Watcher R → Watcher R) (w' : WatcherId) :
    (s.updateWatcher w f).watchers[w']? =
      if w = w' then s.watchers[w']?.map f else s.watchers[w']? :=
  Array.getElem?_modify

theorem watchers_updateWatcher_self {s : Store R} {w : WatcherId} {watcher : Watcher R}
    (h : s.watchers[w]? = some watcher) (f : Watcher R → Watcher R) :
    (s.updateWatcher w f).watchers[w]? = some (f watcher) := by
  rw [watchers_updateWatcher, if_pos rfl, h, Option.map_some]

/-! ## Tracking -/

theorem track_eq (slot : SlotId) : s.track slot = { s with slots := (s.track slot).slots } := by
  unfold track
  split <;> rfl

@[simp]
theorem valueAt_track (slot i : SlotId) : (s.track slot).valueAt i = s.valueAt i := by
  unfold track
  split
  · rfl
  · exact valueAt_subscribe s _ _ _

/-- Tracking changes nothing but slots. -/
theorem trackAll_eq : ∀ (slots : List SlotId) (s : Store R),
    s.trackAll slots = { s with slots := (s.trackAll slots).slots }
  | [], _ => rfl
  | slot :: rest, s => by
    rw [show s.trackAll (slot :: rest) = (s.track slot).trackAll rest from rfl,
      trackAll_eq rest (s.track slot), track_eq s slot]

@[simp]
theorem valueAt_trackAll : ∀ (slots : List SlotId) (s : Store R) (i : SlotId),
    (s.trackAll slots).valueAt i = s.valueAt i
  | [], _, _ => rfl
  | slot :: rest, s, i => by
    rw [show s.trackAll (slot :: rest) = (s.track slot).trackAll rest from rfl,
      valueAt_trackAll rest, valueAt_track]

@[simp]
theorem mappings_trackAll (slots : List SlotId) : (s.trackAll slots).mappings = s.mappings := by
  rw [trackAll_eq]

@[simp]
theorem watchers_trackAll (slots : List SlotId) : (s.trackAll slots).watchers = s.watchers := by
  rw [trackAll_eq]

@[simp]
theorem collecting_trackAll (slots : List SlotId) :
    (s.trackAll slots).collecting = s.collecting := by
  rw [trackAll_eq]

theorem trackAll_of_not_collecting (h : s.collecting = []) :
    ∀ slots : List SlotId, s.trackAll slots = s
  | [] => rfl
  | slot :: rest => by
    have : s.track slot = s := by simp only [track, h]
    rw [show s.trackAll (slot :: rest) = (s.track slot).trackAll rest from rfl, this]
    exact trackAll_of_not_collecting h rest

theorem trackAll_append (xs ys : List SlotId) :
    (s.trackAll xs).trackAll ys = s.trackAll (xs ++ ys) :=
  List.foldl_append.symm

theorem size_slots_trackAll : ∀ (slots : List SlotId) (s : Store R),
    (s.trackAll slots).slots.size = s.slots.size
  | [], _ => rfl
  | slot :: rest, s => by
    rw [show s.trackAll (slot :: rest) = (s.track slot).trackAll rest from rfl,
      size_slots_trackAll rest, track]
    split
    · rfl
    · exact Array.size_modify

/-- The watcher that collects subscribes once for each time a slot is met. -/
theorem subscribers_trackAll {w : WatcherId} {ws : List WatcherId} :
    ∀ (slots : List SlotId) (s : Store R), s.collecting = w :: ws → ∀ i < s.slots.size,
      (s.trackAll slots).subscribers i = s.subscribers i ++ List.replicate (slots.count i) w
  | [], s, _, i, _ => (List.append_nil _).symm
  | slot :: rest, s, hc, i, hi => by
    have htrack : s.track slot = s.subscribe slot w := by simp only [track, hc]
    have hsize : (s.subscribe slot w).slots.size = s.slots.size := Array.size_modify
    rw [show s.trackAll (slot :: rest) = (s.track slot).trackAll rest from rfl, htrack,
      subscribers_trackAll rest (s.subscribe slot w) hc i (hsize ▸ hi), subscribers_subscribe]
    by_cases hs : slot = i
    · subst hs
      rw [if_pos ⟨rfl, hi⟩, List.count_cons_self, List.append_assoc, List.replicate_succ]
      rfl
    · rw [if_neg fun h => hs h.1, List.count_cons_of_ne hs]

/-! ## Paths -/

variable {s}

theorem evaluate_eq (s : Store R) (root : MappingId) (expression : String) :
    s.evaluate root expression =
      ((s.resolve root expression).2, s.trackAll (s.resolve root expression).1) := by
  unfold evaluate
  generalize s.resolve root expression = found
  rfl

theorem evaluate_fst (s : Store R) (root : MappingId) (expression : String) :
    (s.evaluate root expression).1 = (s.resolve root expression).2 := by
  rw [evaluate_eq]

theorem evaluate_snd (s : Store R) (root : MappingId) (expression : String) :
    (s.evaluate root expression).2 = s.trackAll (s.resolve root expression).1 := by
  rw [evaluate_eq]

theorem walk_congr {s s' : Store R} (hslot : ∀ m key, s'.slot? m key = s.slot? m key)
    (hvalue : ∀ i, s'.valueAt i = s.valueAt i) (path : String) :
    ∀ (segments : List String) (v : Value), s'.walk path v segments = s.walk path v segments
  | [], v => by cases v <;> rfl
  | segment :: rest, v => by
    cases v with
    | mapping m =>
      unfold walk
      rw [hslot]
      cases s.slot? m segment with
      | none => rfl
      | some slot => simp only [hvalue, walk_congr hslot hvalue path rest]
    | _ => rfl

theorem resolve_congr {s s' : Store R} (hslot : ∀ m key, s'.slot? m key = s.slot? m key)
    (hvalue : ∀ i, s'.valueAt i = s.valueAt i) (root : MappingId) (expression : String) :
    s'.resolve root expression = s.resolve root expression := by
  simp only [resolve, walk_congr hslot hvalue]

theorem target_congr {s s' : Store R} (hslot : ∀ m key, s'.slot? m key = s.slot? m key)
    (hvalue : ∀ i, s'.valueAt i = s.valueAt i) (root : MappingId) (expression : String) :
    s'.target root expression = s.target root expression := by
  simp only [target, resolve_congr hslot hvalue]

/-- Tracking does not change what expressions come to. -/
theorem resolve_trackAll (s : Store R) (slots : List SlotId) (root : MappingId)
    (expression : String) :
    (s.trackAll slots).resolve root expression = s.resolve root expression := by
  refine resolve_congr (fun m key => ?_) (valueAt_trackAll slots s) root expression
  rw [slot?, members, mappings_trackAll]
  rfl

/-- Filling in a text changes the store as tracking does. -/
theorem exists_trackAll_fillPieces (root : MappingId) (pieces : List Template.Piece) (s : Store R) :
    ∃ slots, (s.fillPieces root pieces).2 = s.trackAll slots := by
  induction pieces generalizing s with
  | nil => exact ⟨[], rfl⟩
  | cons piece rest ih =>
    cases piece with
    | literal c =>
      obtain ⟨slots, h⟩ := ih s
      refine ⟨slots, ?_⟩
      rw [fillPieces]
      exact h
    | placeholder inner =>
      rw [fillPieces, evaluate]
      cases hr : (s.resolve root (String.ofList inner)) with
      | mk visited result =>
        cases result with
        | error e => exact ⟨visited, rfl⟩
        | ok v =>
          obtain ⟨slots, h⟩ := ih (s.trackAll visited)
          exact ⟨visited ++ slots, h.trans (trackAll_append s visited slots)⟩

end DataBinding.Store
