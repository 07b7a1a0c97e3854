/-
  What evaluating and making watchers comes to.

  `Effect.evaluate_apply` says what the evaluation of a watcher answers and
  leaves.  An update stops where the expression does not resolve, is suppressed if the
  value is equal to the one that the watcher has seen, and else lets the watcher react
  and remembers the value (`Effect.updateWatcher_of_error`, `Effect.updateWatcher_of_equal`,
  `Effect.updateWatcher_of_changed`).  A new watcher is subscribed to every slot on the way of its expression, as
  often as the slot is met, whether or not the expression resolves in the end
  (`Store.watched`).  `Effect.watch_of_ok` and `Effect.watch_of_error` say what
  `Effect.watch` answers and which store it leaves.
-/
import DataBinding.Proofs.Reactive.Data
import DataBinding.Proofs.Reactive.Effects

namespace DataBinding

variable {R σ : Type}

namespace Store

/-- A store in which an evaluation of a watcher is counted. -/
def counted (s : Store R) (w : WatcherId) : Store R :=
  s.updateWatcher w fun watcher => { watcher with evaluations := watcher.evaluations + 1 }

/-- The store in which a new watcher evaluates its expression. -/
def evaluating (s : Store R) (root : MappingId) (expression : String) (label : R) : Store R :=
  { s with
    watchers := s.watchers.push ⟨root, expression, label, .null, 1⟩
    collecting := s.watchers.size :: s.collecting }

/-- A store with a watcher more, which has seen a value, and is subscribed to
    every slot on the way of its expression. -/
def watched (s : Store R) (root : MappingId) (expression : String) (label : R) (v : Value) :
    Store R :=
  { (s.evaluating root expression label).trackAll (s.resolve root expression).1 with
    watchers := s.watchers.push ⟨root, expression, label, v, 1⟩
    collecting := s.collecting }

section

variable (s : Store R) (root : MappingId) (expression : String) (label : R) (v : Value)

theorem size_slots_watched :
    (s.watched root expression label v).slots.size = s.slots.size :=
  size_slots_trackAll _ _

@[simp]
theorem valueAt_watched (i : SlotId) :
    (s.watched root expression label v).valueAt i = s.valueAt i :=
  valueAt_trackAll _ _ i

@[simp]
theorem mappings_watched : (s.watched root expression label v).mappings = s.mappings :=
  mappings_trackAll _ _

theorem depth_watched : (s.watched root expression label v).depth = s.depth := by
  unfold watched
  rw [trackAll_eq]
  rfl

theorem limit_watched : (s.watched root expression label v).limit = s.limit := by
  unfold watched
  rw [trackAll_eq]
  rfl

theorem subscribers_watched {i : SlotId} (hi : i < s.slots.size) :
    (s.watched root expression label v).subscribers i =
      s.subscribers i ++ List.replicate ((s.resolve root expression).1.count i) s.watchers.size :=
  subscribers_trackAll _ (s.evaluating root expression label) rfl i hi

end

theorem watchers_counted {s : Store R} {w : WatcherId} {watcher : Watcher R}
    (h : s.watchers[w]? = some watcher) :
    (s.counted w).watchers[w]? = some { watcher with evaluations := watcher.evaluations + 1 } :=
  watchers_updateWatcher_self h _

/-- Nothing is tracked in an evaluation where no watcher collects. -/
theorem trackAll_counted {s : Store R} (h : s.collecting = []) (w : WatcherId) (slots : List SlotId) :
    (s.counted w).trackAll slots = s.counted w :=
  trackAll_of_not_collecting (s.counted w) h slots

theorem modify_push {α : Type} (xs : Array α) (x : α) (f : α → α) :
    (xs.push x).modify xs.size f = xs.push (f x) := by
  refine Array.ext_getElem? fun i => ?_
  simp only [Array.getElem?_modify, Array.getElem?_push]
  by_cases h : i = xs.size
  · simp [h]
  · simp [h, Ne.symm h]

end Store

namespace Effect

variable {u : World R σ} {root : MappingId} {expression : String} {label : R}

/-- Counting the first evaluation of a watcher, which collects. -/
private theorem counted_newWatcher (s : Store R) :
    ({ (s.newWatcher root expression label).2 with
        collecting := s.watchers.size :: s.collecting } : Store R).counted s.watchers.size =
      s.evaluating root expression label := by
  unfold Store.counted Store.updateWatcher Store.newWatcher Store.evaluating
  dsimp only
  rw [Store.modify_push]

private theorem tail_trackAll (s : Store R) (slots : List SlotId) :
    ({ (s.evaluating root expression label).trackAll slots with
        collecting := ((s.evaluating root expression label).trackAll slots).collecting.tail }
          : Store R) =
      { (s.evaluating root expression label).trackAll slots with
        watchers := s.watchers.push ⟨root, expression, label, .null, 1⟩
        collecting := s.collecting } := by
  rw [Store.trackAll_eq]
  rfl

private theorem resolve_newWatcher (s : Store R) (ws : List WatcherId) :
    ({ (s.newWatcher root expression label).2 with collecting := ws } : Store R).resolve root
      expression = s.resolve root expression := by
  refine Store.resolve_congr ?_ ?_ root expression
  · exact fun _ _ => rfl
  · exact fun _ => rfl

theorem getPath_apply :
    getPath root expression u =
      ((u.store.resolve root expression).2.mapError fun e => .fault (.path e),
        { u with store := u.store.trackAll (u.store.resolve root expression).1 }) := by
  rw [getPath, reading_apply, Store.evaluate_eq]

/-- Filling in a text answers the text, or fails, and tracks slots at the most. -/
theorem content_tracks (root : MappingId) (text : String) (u : World R σ) :
    ∃ slots, content root text u =
      ((u.store.fill root text).1.mapError fun e => .fault (.path e),
        { u with store := u.store.trackAll slots }) := by
  obtain ⟨slots, hslots⟩ := Store.exists_trackAll_fillPieces root (Template.pieces text) u.store
  have hstore : (u.store.fill root text).2 = u.store.trackAll slots := hslots
  refine ⟨slots, ?_⟩
  rw [content, reading_apply, hstore]

theorem getPath_eq_ok_iff {v : Value} : (getPath root expression u).1 = .ok v ↔
    (u.store.resolve root expression).2 = .ok v := by
  rw [getPath_apply]
  cases (u.store.resolve root expression).2 with
  | ok w => simp [Except.mapError]
  | error e => simp [Except.mapError]

theorem getPath_eq_error_iff {err : PathError} :
    (getPath root expression u).1 = .error (.fault (.path err)) ↔
      (u.store.resolve root expression).2 = .error err := by
  rw [getPath_apply]
  cases (u.store.resolve root expression).2 with
  | ok v => simp [Except.mapError]
  | error e => simp [Except.mapError]

/-- The evaluation of a watcher counts, and tracks the slots on the way. -/
theorem evaluate_apply (w : WatcherId) (watcher : Watcher R) :
    evaluate w watcher u =
      let found := u.store.resolve watcher.root watcher.expression
      (found.2.mapError fun e => .fault (.path e),
        { u with store := (u.store.counted w).trackAll found.1 }) := by
  have hresolve : (u.store.counted w).resolve watcher.root watcher.expression =
      u.store.resolve watcher.root watcher.expression := by
    refine Store.resolve_congr ?_ ?_ _ _
    · exact fun _ _ => rfl
    · exact fun _ => rfl
  unfold evaluate
  rw [bind_apply]
  dsimp only [modifyStore]
  rw [getPath_apply, show u.store.updateWatcher w _ = u.store.counted w from rfl, hresolve]

section

variable (react : R → Value → Effect R σ Unit) {w : WatcherId} {watcher : Watcher R}
  (hwatcher : u.store.watchers[w]? = some watcher)

include hwatcher

/-- An update stops where the expression does not resolve. -/
theorem updateWatcher_of_error {e : PathError}
    (h : (u.store.resolve watcher.root watcher.expression).2 = .error e) :
    updateWatcher react w u = (.error (.fault (.path e)), { u with
      store := (u.store.counted w).trackAll
        (u.store.resolve watcher.root watcher.expression).1 }) := by
  rw [updateWatcher_of_some react hwatcher, bind_apply, evaluate_apply]
  dsimp only
  rw [h]
  rfl

/-- An update to an equal value is suppressed: its evaluation counts, and nothing reacts. -/
theorem updateWatcher_of_equal {v : Value}
    (hv : (u.store.resolve watcher.root watcher.expression).2 = .ok v)
    (h : v.equal watcher.value = true) :
    updateWatcher react w u = (.ok (), { u with
      store := (u.store.counted w).trackAll
        (u.store.resolve watcher.root watcher.expression).1 }) := by
  rw [updateWatcher_of_some react hwatcher, bind_apply, evaluate_apply]
  dsimp only
  rw [hv]
  dsimp only [Except.mapError]
  rw [if_pos h]
  rfl

/-- A watcher reacts to another value, and remembers it. -/
theorem updateWatcher_of_changed {v : Value}
    (hv : (u.store.resolve watcher.root watcher.expression).2 = .ok v)
    (h : ¬ v.equal watcher.value = true) :
    updateWatcher react w u = (react watcher.reaction v >>= fun _ => remember w v) { u with
      store := (u.store.counted w).trackAll
        (u.store.resolve watcher.root watcher.expression).1 } := by
  rw [updateWatcher_of_some react hwatcher, bind_apply, evaluate_apply]
  dsimp only
  rw [hv]
  dsimp only [Except.mapError]
  rw [if_neg h]

end

/-- The first evaluation of a new watcher, which collects. -/
theorem collecting_evaluate :
    collecting u.store.watchers.size
        (evaluate u.store.watchers.size ⟨root, expression, label, .null, 0⟩)
        { u with store := (u.store.newWatcher root expression label).2 } =
      ((u.store.resolve root expression).2.mapError fun e => .fault (.path e),
        { u with store := u.store.watched root expression label .null }) := by
  have hbody : evaluate u.store.watchers.size ⟨root, expression, label, .null, 0⟩
      { u with store := { (u.store.newWatcher root expression label).2 with
        collecting := u.store.watchers.size :: u.store.collecting } } =
      ((u.store.resolve root expression).2.mapError fun e => .fault (.path e),
        { u with store :=
          (u.store.evaluating root expression label).trackAll (u.store.resolve root expression).1 }) := by
    rw [evaluate_apply, resolve_newWatcher, counted_newWatcher]
  unfold collecting within
  dsimp only
  rw [show (u.store.newWatcher root expression label).2.collecting = u.store.collecting from rfl,
    hbody]
  exact congrArg (fun s => (_, ({ u with store := s } : World R σ))) (tail_trackAll u.store _)

theorem watch_apply :
    watch root expression label u =
      match (u.store.resolve root expression).2 with
      | .ok v => (.ok u.store.watchers.size,
          { u with store := u.store.watched root expression label v })
      | .error e => (.error (.fault (.path e)),
          { u with store := u.store.watched root expression label .null }) := by
  unfold watch
  rw [bind_apply]
  dsimp only [onStore]
  rw [show (u.store.newWatcher root expression label).1 = u.store.watchers.size from rfl,
    bind_apply, collecting_evaluate]
  cases (u.store.resolve root expression).2 with
  | error e => rfl
  | ok v =>
    dsimp only [Except.mapError]
    rw [bind_apply]
    dsimp only [remember, modifyStore, pure_apply]
    unfold Store.updateWatcher Store.watched
    dsimp only
    rw [Store.modify_push]

/-- A watcher whose expression resolves has seen its value. -/
theorem watch_of_ok {v : Value} (h : (u.store.resolve root expression).2 = .ok v) :
    watch root expression label u =
      (.ok u.store.watchers.size, { u with store := u.store.watched root expression label v }) := by
  rw [watch_apply, h]

/-- A watcher whose expression does not resolve is refused, but stays where it
    is subscribed. -/
theorem watch_of_error {e : PathError} (h : (u.store.resolve root expression).2 = .error e) :
    watch root expression label u =
      (.error (.fault (.path e)),
        { u with store := u.store.watched root expression label .null }) := by
  rw [watch_apply, h]

end Effect

end DataBinding
