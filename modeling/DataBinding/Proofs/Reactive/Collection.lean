/-
  What a new watcher is subscribed to.

  A watcher reads its expression for the first time while it collects, whoever has
  collected so far: it is the innermost one then, and leaves the others as they were.

  * `Store.subscribeAll`: one subscription for each time a slot is met, in order;
  * `Store.watched_eq`: the store with a new watcher has these subscriptions more;
  * `Effect.watch_collects`: the slots that are met are those of the keys on the way,
    whatever passes the watcher is made in.
-/
import DataBinding.Proofs.Reactive.Grounded
import DataBinding.Proofs.Reactive.Lookup

namespace DataBinding

variable {R σ : Type}

namespace Store

/-! ## Subscriptions -/

/-- Add a watcher at the end of the dependency sets of slots, in order, as often as
    they are listed. -/
def subscribeAll (s : Store R) (slots : List SlotId) (w : WatcherId) : Store R :=
  slots.foldl (fun s i => s.subscribe i w) s

theorem trackAll_of_collecting {w : WatcherId} {ws : List WatcherId} (slots : List SlotId) :
    ∀ {s : Store R}, s.collecting = w :: ws → s.trackAll slots = s.subscribeAll slots w := by
  induction slots with
  | nil => intro s _; rfl
  | cons slot rest ih =>
    intro s h
    have htrack : s.track slot = s.subscribe slot w := by simp only [track, h]
    change (s.track slot).trackAll rest = (s.subscribe slot w).subscribeAll rest w
    rw [htrack]
    exact ih h

/-- Subscriptions change dependency sets only, and depend on slots only. -/
theorem subscribeAll_with (slots : List SlotId) (w : WatcherId) : ∀ s s' : Store R,
    s'.slots = s.slots →
      s'.subscribeAll slots w = { s' with slots := (s.subscribeAll slots w).slots } := by
  induction slots with
  | nil =>
    intro s s' h
    change s' = { s' with slots := s.slots }
    rw [← h]
  | cons slot rest ih =>
    intro s s' h
    refine ih (s.subscribe slot w) (s'.subscribe slot w) ?_
    simp only [subscribe, h]

/-- The store with a new watcher, which is subscribed once for each time that a slot is
    met. -/
theorem watched_eq (s : Store R) (root : MappingId) (expression : String) (label : R) (v : Value) :
    s.watched root expression label v =
      { s.subscribeAll (s.resolve root expression).1 s.watchers.size with
        watchers := s.watchers.push ⟨root, expression, label, v, 1⟩ } := by
  have hevaluating : (s.evaluating root expression label).collecting =
    s.watchers.size :: s.collecting := rfl
  rw [watched, trackAll_of_collecting _ hevaluating,
    subscribeAll_with _ _ s (s.evaluating root expression label) rfl,
    subscribeAll_with _ _ s s rfl]
  rfl

theorem resolve_collecting (s : Store R) (ws : List WatcherId) (root : MappingId)
    (expression : String) : ({ s with collecting := ws } : Store R).resolve root expression =
      s.resolve root expression := by
  refine resolve_congr ?_ ?_ root expression
  · intro m key; rfl
  · intro i; rfl

/-- Who else collects does not matter. -/
theorem watched_collecting (s : Store R) (ws : List WatcherId) (root : MappingId)
    (expression : String) (label : R) (v : Value) :
    ({ s with collecting := ws } : Store R).watched root expression label v =
      { s.watched root expression label v with collecting := ws } := by
  rw [watched_eq, watched_eq, resolve_collecting, subscribeAll_with _ _ s s rfl,
    subscribeAll_with _ _ s { s with collecting := ws } rfl]

end Store

namespace Effect

variable {u : World R σ} {root : MappingId} {expression : String} {v : Value}

/-- A new watcher is the same one within passes of other watchers, one in another. -/
theorem watch_within (label : R) (ws : List WatcherId) : ∀ {u : World R σ},
    (u.store.resolve root expression).2 = .ok v →
      ws.foldr collecting (watch root expression label) u =
        (.ok u.store.watchers.size,
          { u with store := u.store.watched root expression label v }) := by
  induction ws with
  | nil =>
    intro u h
    exact watch_of_ok h
  | cons w ws ih =>
    intro u h
    have hbody := @ih { u with store.collecting := w :: u.store.collecting }
      (by rw [Store.resolve_collecting]; exact h)
    rw [Store.watched_collecting] at hbody
    rw [List.foldr_cons, collecting, within]
    dsimp only
    rw [hbody]
    rfl

/-- **A new watcher whose expression resolves** is subscribed to the slot of each key
    on the way, at the end of its dependency set, in the order of the keys and as often
    as the slot is met: all of them, or all but the last if that is absent.  No other
    watcher is subscribed to anything, whether one collects or not, and the same ones
    collect afterwards; further passes around it make no difference. -/
theorem watch_collects (hgrounded : u.store.Grounded) (label : R)
    (h : (getPath root expression u).1 = .ok v) :
    ∃ visited u', watch root expression label u = (.ok u.store.watchers.size, u') ∧
      Text.trim expression ≠ "" ∧
      u.store.Finds (.mapping root) (Text.splitOn '.' (Text.trim expression)) visited v ∧
      u' = { u with store := { u.store.subscribeAll visited u.store.watchers.size with
        watchers := u.store.watchers.push ⟨root, expression, label, v, 1⟩ } } ∧
      (∀ i, u'.store.subscribers i =
        u.store.subscribers i ++ List.replicate (visited.count i) u.store.watchers.size) ∧
      (∀ outer < u.store.watchers.size, ∀ i,
        (u'.store.subscribers i).count outer = (u.store.subscribers i).count outer) ∧
      u'.store.collecting = u.store.collecting ∧
      ∀ ws : List WatcherId, ws.foldr collecting (watch root expression label) u =
        (.ok u.store.watchers.size, u') := by
  rw [getPath_eq_ok_iff] at h
  obtain ⟨visited, hresolve⟩ : ∃ visited, u.store.resolve root expression = (visited, .ok v) :=
    ⟨_, Prod.ext rfl h⟩
  obtain ⟨hblank, hfinds⟩ := Store.resolve_eq_ok_iff.1 hresolve
  have hsubscribers (i : SlotId) : (u.store.watched root expression label v).subscribers i =
      u.store.subscribers i ++ List.replicate (visited.count i) u.store.watchers.size := by
    by_cases hi : i < u.store.slots.size
    · rw [Store.subscribers_watched _ _ _ _ _ hi, hresolve]
    · -- a slot that is not there is not met
      have hcount : visited.count i = 0 := by
        rw [List.count_eq_zero]
        intro hmem
        exact hi (hgrounded.lt_size_of_mem_resolve (by rw [hresolve]; exact hmem))
      have hsize := u.store.size_slots_watched root expression label v
      have hle := Nat.le_of_not_lt hi
      rw [Store.subscribers_of_size_le _ (hsize ▸ hle), Store.subscribers_of_size_le _ hle, hcount]
      rfl
  refine ⟨visited, _, watch_of_ok h, hblank, hfinds, ?_, hsubscribers, ?_, rfl,
    fun ws => watch_within label ws h⟩
  · rw [Store.watched_eq, hresolve]
  · intro outer houter i
    rw [hsubscribers, List.count_append, List.count_replicate]
    simp [Nat.ne_of_gt houter]

/-- A mapping that holds itself, where a watcher that is subscribed to its slot
    collects. -/
def selfHeld : World Unit Unit where
  store := { ((Store.empty.newMapping []).2.install 0 "self" (.mapping 0)).watched 0 "self" ()
    (.mapping 0) with collecting := [0] }
  stage := ()

/-- Who goes round twice is subscribed twice. -/
theorem watch_collects_of_selfHeld : ∃ u', watch 0 "self.self" () selfHeld = (.ok 1, u') ∧
    selfHeld.store.subscribers 0 = [0] ∧ u'.store.subscribers 0 = [0, 1, 1] ∧
    u'.store.collecting = [0] := by
  have hgrounded : selfHeld.store.Grounded := by
    have hempty : ((Store.empty : Store Unit).newMapping []).2.Grounded :=
      Store.Grounded.empty.newMapping nofun
    have hwatched := (hempty.install 0 "self" (.mapping 0)).watched 0 "self" () (.mapping 0)
    exact ⟨hwatched.slots, hwatched.watchers⟩
  have hslot : selfHeld.store.slot? 0 "self" = some 0 := by decide +kernel
  have hself : selfHeld.store.valueAt 0 = .mapping 0 :=
    Store.valueAt_watched _ 0 "self" () (.mapping 0) 0
  have honce : selfHeld.store.Leads (.mapping 0) ["self"] [0] (.mapping 0) :=
    hself ▸ .on rfl hslot (.here _)
  have htwice : selfHeld.store.Leads (.mapping 0) ["self", "self"] [0, 0] (.mapping 0) :=
    .on rfl hslot (hself ▸ honce)
  have hkeys : Text.splitOn '.' (Text.trim "self.self") = ["self", "self"] := by decide +kernel
  have hblank : Text.trim "self.self" ≠ "" := by decide +kernel
  have hresolve := Store.resolve_eq_ok_iff.2 ⟨hblank, hkeys ▸ Store.Finds.all htwice⟩
  obtain ⟨visited, u', hwatch, -, hfinds, -, hsubscribers, -, hcollecting, -⟩ :=
    watch_collects hgrounded () (getPath_eq_ok_iff.2 (congrArg Prod.snd hresolve))
  rw [hkeys] at hfinds
  have hvisited : visited = [0, 0] := by
    cases hfinds with
    | all h => exact (h.unique htwice).1
    | butLast _ _ _ _ hundefined => cases hundefined
  have hbefore : selfHeld.store.subscribers 0 = [0] := by decide +kernel
  refine ⟨u', hwatch, hbefore, ?_, hcollecting⟩
  rw [hsubscribers, hbefore, hvisited]
  rfl

end Effect

end DataBinding
