/-
  Who is subscribed by an update.

  A watcher that is updated reads its expression as everybody does, so that the watcher
  that collects meanwhile, if there is one, is subscribed to the slots on the way.  The
  callbacks here leave the data as it is (`Store.Detached`).

  * `Store.Revisited`: watchers have been evaluated, whoever collects, with one rule for
    each part of an update;
  * `Effect.updateWatcher_revisited` is one update, `Effect.each_revisited` a pass, which
    begins the updates of the first of its watchers;
  * `Renewal.keeps_subscribers_iff`: the dependency sets after an update, a notification
    or a write, and when they are as they were.
-/
import DataBinding.Proofs.Reactive.Record
import DataBinding.Proofs.Reactive.Replacement

namespace DataBinding

variable {R σ : Type}

namespace Store

/-! ## Evaluated watchers -/

/-- The slots that a watcher meets on the way of its expression. -/
def met (s : Store R) (w : WatcherId) : List SlotId :=
  (s.watchers[w]?).elim [] fun watcher => (s.resolve watcher.root watcher.expression).1

/-- What is added to the dependency set of a slot while slots are met: the innermost
    watcher that collects, each time that it is this slot. -/
def added (s : Store R) (slots : List SlotId) (i : SlotId) : List WatcherId :=
  (s.collecting.head?).elim [] fun w => List.replicate (slots.count i) w

/-- What a watcher does when its value has changed leaves the data as it is. -/
def Detached (s : Store R) (react : R → Value → Effect R σ Unit) (w : WatcherId) : Prop :=
  ∀ watcher, s.watchers[w]? = some watcher →
    ∀ (v : Value) (u : World R σ), (react watcher.reaction v u).2.store = u.store

/-- Watchers have been evaluated, each as often as it is listed, and may have seen other
    values; nothing else has happened than that the watcher that collects has been
    subscribed to the slots that they met. -/
structure Revisited (s : Store R) (done : List WatcherId) (s' : Store R) : Prop where
  /-- The mappings are the same. -/
  mappings : s'.mappings = s.mappings
  /-- The slots have the same values. -/
  values : ∀ i, s'.valueAt i = s.valueAt i
  /-- There are no new slots. -/
  slots : s'.slots.size = s.slots.size
  /-- The dependency sets have the new subscriptions at their ends. -/
  subscribers : ∀ i < s.slots.size,
    s'.subscribers i = s.subscribers i ++ s.added (done.flatMap s.met) i
  /-- What goes on is the same. -/
  activity : s'.activity = s.activity
  /-- There are no new watchers. -/
  size : s'.watchers.size = s.watchers.size
  /-- The watchers are bound as they were, and have been evaluated. -/
  watchers : ∀ (w : WatcherId) (watcher : Watcher R), s.watchers[w]? = some watcher → ∃ v,
    s'.watchers[w]? = some { watcher with
      value := v, evaluations := watcher.evaluations + done.count w }

section

variable {s s' s'' : Store R} {done done' : List WatcherId} {xs ys : List SlotId} {i : SlotId}

@[simp]
theorem added_nil : s.added [] i = [] := by
  unfold added
  cases s.collecting.head? <;> rfl

theorem added_append : s.added (xs ++ ys) i = s.added xs i ++ s.added ys i := by
  unfold added
  cases s.collecting.head? with
  | none => rfl
  | some w => simp only [Option.elim_some, List.count_append, List.replicate_append_replicate]

theorem added_of_activity (h : s'.activity = s.activity) : s'.added xs i = s.added xs i := by
  have hcollecting : s'.collecting = s.collecting := congrArg Activity.collecting h
  rw [added, added, hcollecting]

theorem added_eq_nil_iff : s.added xs i = [] ↔ s.collecting = [] ∨ i ∉ xs := by
  unfold added
  cases s.collecting with
  | nil => simp
  | cons w ws => simp [List.count_eq_zero]

theorem subscribers_trackAll_added (hi : i < s.slots.size) :
    (s.trackAll xs).subscribers i = s.subscribers i ++ s.added xs i := by
  unfold added
  cases hs : s.collecting with
  | nil =>
    rw [trackAll_of_not_collecting s hs]
    simp
  | cons w ws => exact subscribers_trackAll xs s hs i hi

theorem met_of_none {w : WatcherId} (h : s.watchers[w]? = none) : s.met w = [] := by
  rw [met, h]
  rfl

theorem met_of_some {w : WatcherId} {watcher : Watcher R} (h : s.watchers[w]? = some watcher) :
    s.met w = (s.resolve watcher.root watcher.expression).1 := by
  rw [met, h]
  rfl

namespace Revisited

theorem refl (s : Store R) : s.Revisited [] s where
  mappings := rfl
  values _ := rfl
  slots := rfl
  subscribers i _ := by simp
  activity := rfl
  size := rfl
  watchers w watcher hw := ⟨watcher.value, hw⟩

theorem resolve (h : s.Revisited done s') (root : MappingId) (expression : String) :
    s'.resolve root expression = s.resolve root expression := by
  refine resolve_congr (fun m key => ?_) h.values root expression
  rw [slot?, slot?, members, members, h.mappings]

theorem watchers_eq_none (h : s.Revisited done s') {w : WatcherId} (hw : s.watchers[w]? = none) :
    s'.watchers[w]? = none := by
  rw [Array.getElem?_eq_none_iff] at hw ⊢
  exact h.size ▸ hw

/-- A watcher meets what it met. -/
theorem met (h : s.Revisited done s') (w : WatcherId) : s'.met w = s.met w := by
  cases hw : s.watchers[w]? with
  | none => rw [met_of_none hw, met_of_none (h.watchers_eq_none hw)]
  | some watcher =>
    obtain ⟨v, hw'⟩ := h.watchers w watcher hw
    rw [met_of_some hw, met_of_some hw', h.resolve]

theorem detached {react : R → Value → Effect R σ Unit} (h : s.Revisited done s') {w : WatcherId}
    (hw : s.Detached react w) : s'.Detached react w := by
  intro watcher' hw'
  cases hs : s.watchers[w]? with
  | none =>
    rw [h.watchers_eq_none hs] at hw'
    cases hw'
  | some watcher =>
    obtain ⟨v, hv⟩ := h.watchers w watcher hs
    rw [hv] at hw'
    cases hw'
    exact hw watcher hs

theorem evaluations (h : s.Revisited done s') {w : WatcherId} (hw : w < s.watchers.size) :
    s'.evaluations w = s.evaluations w + done.count w := by
  have hs := Array.getElem?_eq_getElem hw
  obtain ⟨v, hv⟩ := h.watchers w _ hs
  rw [Store.evaluations, Store.evaluations, hs, hv]
  rfl

theorem trans (h : s.Revisited done s') (h' : s'.Revisited done' s'') :
    s.Revisited (done ++ done') s'' where
  mappings := h'.mappings.trans h.mappings
  values i := (h'.values i).trans (h.values i)
  slots := h'.slots.trans h.slots
  subscribers i hi := by
    have hmet : s'.met = s.met := funext h.met
    rw [h'.subscribers i (h.slots ▸ hi), h.subscribers i hi, hmet, added_of_activity h.activity,
      List.flatMap_append, added_append, List.append_assoc]
  activity := h'.activity.trans h.activity
  size := h'.size.trans h.size
  watchers w watcher hw := by
    obtain ⟨v, hv⟩ := h.watchers w watcher hw
    obtain ⟨v', hv'⟩ := h'.watchers w _ hv
    refine ⟨v', ?_⟩
    rw [hv', List.count_append, Nat.add_assoc]

/-- A watcher that is not there meets nothing. -/
theorem absent {w : WatcherId} (hw : s.watchers[w]? = none) : s.Revisited [w] s where
  mappings := rfl
  values _ := rfl
  slots := rfl
  subscribers i _ := by simp [met_of_none hw]
  activity := rfl
  size := rfl
  watchers w' watcher hw' := by
    have hne : w ≠ w' := by
      rintro rfl
      rw [hw] at hw'
      cases hw'
    refine ⟨watcher.value, ?_⟩
    rw [hw', List.count_cons_of_ne hne]
    rfl

/-- A watcher is evaluated. -/
theorem evaluated {w : WatcherId} {watcher : Watcher R} (hw : s.watchers[w]? = some watcher) :
    s.Revisited [w]
      ((s.counted w).trackAll (s.resolve watcher.root watcher.expression).1) where
  mappings := mappings_trackAll _ _
  values i := valueAt_trackAll _ _ i
  slots := size_slots_trackAll _ _
  subscribers i hi := by
    rw [List.flatMap_singleton, met_of_some hw]
    exact subscribers_trackAll_added (s := s.counted w) hi
  activity := activity_trackAll _ _
  size := by
    rw [watchers_trackAll]
    exact Array.size_modify
  watchers w' watcher' hw' := by
    refine ⟨watcher'.value, ?_⟩
    rw [watchers_trackAll]
    rw [counted, watchers_updateWatcher, hw']
    by_cases h : w = w'
    · subst h
      simp
    · simp [h]

/-- A value is remembered. -/
theorem remembered (s : Store R) (w : WatcherId) (v : Value) :
    s.Revisited [] (s.updateWatcher w fun watcher => { watcher with value := v }) where
  mappings := rfl
  values _ := rfl
  slots := rfl
  subscribers i _ := by
    rw [List.flatMap_nil, added_nil, List.append_nil]
    rfl
  activity := rfl
  size := Array.size_modify
  watchers w' watcher hw' := by
    rw [watchers_updateWatcher, hw']
    by_cases h : w = w'
    · subst h
      exact ⟨v, by simp⟩
    · exact ⟨watcher.value, by simp [h]⟩

/-- What happens while a notification is open. -/
theorem of_entered (h : ({ s with depth := s.depth + 1 } : Store R).Revisited done s') :
    s.Revisited done { s' with depth := s'.depth - 1 } where
  mappings := h.mappings
  values := h.values
  slots := h.slots
  subscribers i hi := by
    have hresolve (root : MappingId) (expression : String) :
        ({ s with depth := s.depth + 1 } : Store R).resolve root expression =
          s.resolve root expression := by
      refine resolve_congr ?_ ?_ root expression
      · exact fun _ _ => rfl
      · exact fun _ => rfl
    have hmet : ({ s with depth := s.depth + 1 } : Store R).met = s.met := by
      funext w
      simp only [Store.met, hresolve]
    have hsubscribers := h.subscribers i hi
    rw [hmet] at hsubscribers
    exact hsubscribers
  activity := congrArg (fun a => { a with depth := a.depth - 1 }) h.activity
  size := h.size
  watchers := h.watchers

end Revisited

end

end Store

/-! ## Updates, passes and notifications -/

namespace Effect

variable {react : R → Value → Effect R σ Unit} {u : World R σ}

/-- One update of a watcher. -/
theorem updateWatcher_revisited {w : WatcherId} (hreact : u.store.Detached react w) :
    u.store.Revisited [w] (updateWatcher react w u).2.store := by
  cases hwatcher : u.store.watchers[w]? with
  | none =>
    rw [updateWatcher_of_none react hwatcher]
    exact .absent hwatcher
  | some watcher =>
    have hevaluated := Store.Revisited.evaluated hwatcher
    cases hresolve : (u.store.resolve watcher.root watcher.expression).2 with
    | error e =>
      rw [updateWatcher_of_error react hwatcher hresolve]
      exact hevaluated
    | ok v =>
      by_cases hequal : v.equal watcher.value = true
      · rw [updateWatcher_of_equal react hwatcher hresolve hequal]
        exact hevaluated
      · rw [updateWatcher_of_changed react hwatcher hresolve hequal]
        generalize (u.store.counted w).trackAll
          (u.store.resolve watcher.root watcher.expression).1 = s at hevaluated ⊢
        have hsame := hreact watcher hwatcher v { u with store := s }
        rw [bind_apply]
        rcases h : react watcher.reaction v { u with store := s } with ⟨stop | ⟨⟩, u₁⟩
        · rw [h] at hsame
          dsimp only at hsame ⊢
          rw [hsame]
          exact hevaluated
        · rw [h] at hsame
          dsimp only [remember, modifyStore] at hsame ⊢
          rw [hsame]
          exact hevaluated.trans (.remembered s w v)

/-- A pass begins the updates of the first of the watchers, and of all of them if it does
    not stop. -/
theorem each_revisited (ws : List WatcherId) :
    ∀ {u : World R σ}, (∀ w ∈ ws, u.store.Detached react w) →
      ∃ done, done <+: ws ∧ ((each (updateWatcher react) ws u).1 = .ok () → done = ws) ∧
        u.store.Revisited done (each (updateWatcher react) ws u).2.store := by
  induction ws with
  | nil => exact fun _ => ⟨[], List.nil_prefix, fun _ => rfl, .refl _⟩
  | cons w ws ih =>
    intro u hreact
    have hupdate := updateWatcher_revisited (hreact w List.mem_cons_self)
    rw [each, bind_apply]
    rcases h : updateWatcher react w u with ⟨stop | ⟨⟩, u₁⟩
    · rw [h] at hupdate
      refine ⟨[w], List.cons_prefix_cons.2 ⟨rfl, List.nil_prefix⟩, fun hok => ?_, hupdate⟩
      cases hok
    · rw [h] at hupdate
      obtain ⟨done, hprefix, hall, hrest⟩ := @ih u₁ fun w' hw' =>
        hupdate.detached (hreact w' (List.mem_cons_of_mem w hw'))
      refine ⟨w :: done, List.cons_prefix_cons.2 ⟨rfl, hprefix⟩, fun hok => ?_,
        hupdate.trans hrest⟩
      rw [hall hok]

/-- A notification is a pass, or is refused. -/
theorem notify_revisited {i : SlotId} (hreact : ∀ w ∈ u.store.subscribers i, u.store.Detached react w) :
    ∃ done, done <+: u.store.subscribers i ∧
      ((notify react i u).1 = .ok () → done = u.store.subscribers i) ∧
      u.store.Revisited done (notify react i u).2.store := by
  by_cases hnone : u.store.subscribers i = []
  · rw [notify_of_nil react hnone, hnone]
    exact ⟨[], List.nil_prefix, fun _ => rfl, .refl _⟩
  · rcases Nat.lt_or_ge u.store.limit (u.store.depth + 1) with hlimit | hlimit
    · rw [notify_of_lt react hnone hlimit]
      exact ⟨[], List.nil_prefix, nofun, .refl _⟩
    · rw [notify_of_le react hnone hlimit]
      obtain ⟨done, hprefix, hall, hrevisited⟩ := each_revisited (u.store.subscribers i)
        (u := { u with store.depth := u.store.depth + 1 }) hreact
      exact ⟨done, hprefix, hall, hrevisited.of_entered⟩

end Effect

/-! ## Renewals -/

/-- What makes watchers look at their expressions once more. -/
inductive Renewal where
  /-- The update of a watcher. -/
  | update (w : WatcherId)
  /-- The notification of a dependency set. -/
  | notify (i : SlotId)
  /-- A write under a key. -/
  | set (m : MappingId) (key : String) (v : Value)

namespace Renewal

/-- What is done. -/
def effect (react : R → Value → Effect R σ Unit) : Renewal → Effect R σ Unit
  | update w => Effect.updateWatcher react w
  | notify i => Effect.notify react i
  | set m key v => Effect.set react m key v

/-- The watchers to be updated, in order. -/
def pass (s : Store R) : Renewal → List WatcherId
  | update w => [w]
  | notify i => s.subscribers i
  | set m key _ => (s.slot? m key).elim [] s.subscribers

/-- The store in which the updates begin. -/
def written (s : Store R) : Renewal → Store R
  | set m key v => s.assign m key v
  | _ => s

section

variable {react : R → Value → Effect R σ Unit} {u : World R σ}

/-- A renewal begins the updates of the first of its watchers, once the value is
    written. -/
theorem revisited (r : Renewal) (hreact : ∀ w ∈ r.pass u.store, u.store.Detached react w) :
    ∃ done, done <+: r.pass u.store ∧ ((r.effect react u).1 = .ok () → done = r.pass u.store) ∧
      (r.written u.store).Revisited done (r.effect react u).2.store := by
  cases r with
  | update w =>
    have hupdate := Effect.updateWatcher_revisited (hreact w (List.mem_singleton.2 rfl))
    exact ⟨[w], List.prefix_refl _, fun _ => rfl, hupdate⟩
  | notify i => exact Effect.notify_revisited hreact
  | set m key v =>
    dsimp only [pass, effect, written] at hreact ⊢
    cases hslot : u.store.slot? m key with
    | none =>
      rw [Effect.set_assign_of_none react hslot]
      exact ⟨[], List.nil_prefix, fun _ => rfl, .refl _⟩
    | some i =>
      rw [hslot] at hreact
      rw [Effect.set_assign_of_some react hslot]
      have hsubscribers := u.store.subscribers_assign m key v i
      have hdetached : ∀ w ∈ (u.store.assign m key v).subscribers i,
          (u.store.assign m key v).Detached react w := by
        rw [hsubscribers]
        intro w hw watcher hwatcher
        rw [Store.watchers_assign] at hwatcher
        exact hreact w hw watcher hwatcher
      have hnotify := Effect.notify_revisited (u := { u with store := u.store.assign m key v })
        hdetached
      rw [show ({ u with store := u.store.assign m key v } : World R σ).store.subscribers i =
        u.store.subscribers i from hsubscribers] at hnotify
      exact hnotify

end

section

variable (s : Store R) (r : Renewal)

theorem subscribers_written (i : SlotId) : (r.written s).subscribers i = s.subscribers i := by
  cases r with
  | set m key v => exact s.subscribers_assign m key v i
  | _ => rfl

theorem activity_written : (r.written s).activity = s.activity := by
  cases r with
  | set m key v => exact s.activity_assign m key v
  | _ => rfl

theorem watchers_written : (r.written s).watchers = s.watchers := by
  cases r with
  | set m key v => exact s.watchers_assign m key v
  | _ => rfl

theorem size_slots_le_written : s.slots.size ≤ (r.written s).slots.size := by
  cases r with
  | set m key v =>
    dsimp only [written, Store.assign, Store.write, Store.install, Store.newSlot]
    split
    · simp
    · split <;> simp
  | _ => exact Nat.le_refl _

end

section

variable {react : R → Value → Effect R σ Unit} {u : World R σ}

/-- **An update subscribes the watcher that collects**, and nobody else: after an update, a
    notification or a write, whose watchers leave the data as it is, every dependency set
    has one subscription more of the innermost watcher that collects for each time that its
    slot was met by the updates begun, which are all of them unless one stops.  So the
    dependency sets are as they were exactly if nobody collects or no slot was met. -/
theorem keeps_subscribers_iff (r : Renewal)
    (hreact : ∀ w ∈ r.pass u.store, u.store.Detached react w) :
    ∃ done, done <+: r.pass u.store ∧
      ((r.effect react u).1 = .ok () → done = r.pass u.store) ∧
      (∀ w < u.store.watchers.size,
        (r.effect react u).2.store.evaluations w = u.store.evaluations w + done.count w) ∧
      (∀ i < u.store.slots.size, (r.effect react u).2.store.subscribers i =
        u.store.subscribers i ++ u.store.added (done.flatMap (r.written u.store).met) i) ∧
      ((∀ i < u.store.slots.size,
          (r.effect react u).2.store.subscribers i = u.store.subscribers i) ↔
        u.store.collecting = [] ∨
          ∀ i < u.store.slots.size, i ∉ done.flatMap (r.written u.store).met) := by
  obtain ⟨done, hprefix, hall, hrevisited⟩ := r.revisited hreact
  have hsubscribers (i : SlotId) (hi : i < u.store.slots.size) :
      (r.effect react u).2.store.subscribers i =
        u.store.subscribers i ++ u.store.added (done.flatMap (r.written u.store).met) i := by
    have hi' := Nat.lt_of_lt_of_le hi (r.size_slots_le_written u.store)
    rw [hrevisited.subscribers i hi', r.subscribers_written,
      Store.added_of_activity (r.activity_written u.store)]
  refine ⟨done, hprefix, hall, fun w hw => ?_, hsubscribers, ?_, ?_⟩
  · have hwatchers := r.watchers_written u.store
    rw [hrevisited.evaluations (hwatchers ▸ hw), Store.evaluations, hwatchers, Store.evaluations]
  · intro hkept
    by_cases hidle : u.store.collecting = []
    · exact .inl hidle
    · refine .inr fun i hi => ?_
      have hadded := hsubscribers i hi
      rw [hkept i hi, List.self_eq_append_right, Store.added_eq_nil_iff] at hadded
      exact hadded.resolve_left hidle
  · intro hnone i hi
    have hadded := Store.added_eq_nil_iff.2 (hnone.imp_right fun hmet => hmet i hi)
    rw [hsubscribers i hi, hadded, List.append_nil]

/-- Two keys, and a watcher of each. -/
def twoWatched : World Unit Unit :=
  ((do
    let _ ← Effect.onStore fun s =>
      s.observeMapping (.object [("a", .string "x"), ("b", .string "x")])
    let _ ← Effect.watch 0 "a" ()
    Effect.watch 0 "b" () : Effect Unit Unit WatcherId) ⟨Store.empty, ()⟩).2

/-- A write to the second key while the first watcher collects. -/
theorem keeps_subscribers_iff_of_twoWatched :
    let u : World Unit Unit := { twoWatched with store.collecting := [0] }
    let after := ((set 0 "b" (.string "y")).effect (fun _ _ => pure ()) u).2
    after.store.subscribers 0 = [0] ∧ after.store.subscribers 1 = [1, 0] ∧
      after.store.evaluations 1 = 2 := by
  intro u after
  have hpass : (set 0 "b" (.string "y")).pass u.store = [1] := by decide +kernel
  have hends : ((set 0 "b" (.string "y")).effect (fun _ _ => pure ()) u).1.isOk = true := by
    decide +kernel
  obtain ⟨done, -, hall, hevaluations, hsubscribers, -⟩ :=
    @keeps_subscribers_iff Unit Unit (fun _ _ => pure ()) u (set 0 "b" (.string "y"))
      fun _ _ _ _ _ _ => rfl
  obtain rfl : done = [1] := by
    rw [← hpass]
    refine hall ?_
    cases h : ((set 0 "b" (.string "y")).effect (fun _ _ => pure ()) u).1 with
    | ok x => rfl
    | error e =>
      rw [h] at hends
      cases hends
  refine ⟨?_, ?_, ?_⟩
  · rw [hsubscribers 0 (by decide +kernel)]
    decide +kernel
  · rw [hsubscribers 1 (by decide +kernel)]
    decide +kernel
  · rw [hevaluations 1 (by decide +kernel)]
    decide +kernel

/-- While the first watcher collects, an update of the second subscribes the first to
    what the second reads. -/
theorem subscribes_collector :
    let react : Unit → Value → Effect Unit Unit Unit := fun _ _ => pure ()
    let after := (Effect.collecting 0 (Effect.updateWatcher react 1) twoWatched).2
    twoWatched.store.collecting = [] ∧ twoWatched.store.subscribers 1 = [1] ∧
      after.store.collecting = [] ∧ after.store.subscribers 1 = [1, 0] := by
  decide +kernel

end

end Renewal

end DataBinding
