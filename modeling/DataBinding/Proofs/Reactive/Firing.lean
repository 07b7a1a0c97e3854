/-
  Which watchers one write calls, and how often.

  The callbacks here act on the stage only (`Effect.aside`), so that the watchers of a
  dependency set are due what they were due when the value was written, until they are
  updated.

  * `Effect.updateWatcher_aside` is one update, `Effect.each_aside` a pass;
  * `Effect.set_fires_once`: a write that comes to its end calls every watcher that is
    due once;
  * `Effect.set_aborted`: a write that fails has updated the watchers before the first
    that fails, and the same write once more calls the others.
-/
import DataBinding.Proofs.Reactive.Due

namespace DataBinding

variable {R σ : Type}

/-! ## Updates and notifications -/

namespace Effect

/-- What acts on the stage only, and may fail there. -/
def aside (f : σ → Except Fault Unit × σ) : Effect R σ Unit := fun u =>
  ((f u.stage).1.mapError .fault, { u with stage := (f u.stage).2 })

section

variable (act : R → Value → σ → Except Fault Unit × σ) {u : World R σ}

/-- One update of a watcher. -/
theorem updateWatcher_aside (hidle : u.store.collecting = []) (w : WatcherId) :
    (∃ s' st', updateWatcher (fun label v => aside (act label v)) w u = (.ok (), ⟨s', st'⟩) ∧
      u.store.attend act w u.stage = (.ok (), st') ∧ u.store.CaughtUp [w] s') ∨
    ∃ f st', updateWatcher (fun label v => aside (act label v)) w u =
        (.error (.fault f), ⟨u.store.counted w, st'⟩) ∧
      u.store.attend act w u.stage = (.error f, st') := by
  cases hwatcher : u.store.watchers[w]? with
  | none =>
    have hcall : u.store.call? w = none := by
      rw [Store.call?, hwatcher]
      rfl
    refine .inl ⟨u.store, u.stage, updateWatcher_of_none _ hwatcher, ?_, ?_⟩
    · rw [Store.attend, hcall, Store.failure?, hwatcher]
      rfl
    · have hcaught := Store.CaughtUp.counted hcall
      rwa [Store.counted_of_none hwatcher] at hcaught
  | some watcher =>
    cases hv : (u.store.resolve watcher.root watcher.expression).2 with
    | error e =>
      rw [updateWatcher_of_error _ hwatcher hv, Store.trackAll_counted hidle]
      refine .inr ⟨.path e, u.stage, rfl, ?_⟩
      rw [Store.attend, Store.failure?_of_error hwatcher hv]
    | ok v =>
      have hfailure := Store.failure?_of_ok hwatcher hv
      have hcall := Store.call?_eq hwatcher hv
      by_cases hequal : v.equal watcher.value = true
      · rw [if_pos hequal] at hcall
        rw [updateWatcher_of_equal _ hwatcher hv hequal, Store.trackAll_counted hidle]
        refine .inl ⟨_, _, rfl, ?_, .counted hcall⟩
        rw [Store.attend, hfailure, hcall]
        rfl
      · rw [if_neg hequal] at hcall
        rw [updateWatcher_of_changed _ hwatcher hv hequal, Store.trackAll_counted hidle, bind_apply,
          Store.attend, hfailure, hcall]
        dsimp only [aside, Option.toList_some, play]
        rcases act watcher.reaction v u.stage with ⟨f | ⟨⟩, st'⟩
        · exact .inr ⟨f, st', rfl, rfl⟩
        · exact .inl ⟨_, st', rfl, rfl, .called hcall⟩

/-- The updates of watchers, one after another. -/
theorem each_aside : ∀ (ws : List WatcherId) {u : World R σ}, u.store.collecting = [] →
    u.store.Proper → ∃ r u', each (updateWatcher fun label v => aside (act label v)) ws u = (r, u') ∧
      u.store.Pass act ws u.stage r u'.store u'.stage
  | [], u, _, _ => ⟨.ok (), u, rfl, .completed (fun _ => nofun) rfl (.refl _)⟩
  | w :: ws, u, hidle, hproper => by
    rw [each, bind_apply]
    rcases updateWatcher_aside act hidle w with
      ⟨s₁, st₁, hupdate, hattend, hcaught⟩ | ⟨f, st', hupdate, hattend⟩
    · rw [hupdate]
      obtain ⟨r, u', heach, hpass⟩ :=
        each_aside ws (u := ⟨s₁, st₁⟩) (hcaught.collecting hidle) (hcaught.proper hproper)
      exact ⟨r, u', heach, hpass.cons hproper hattend hcaught⟩
    · rw [hupdate]
      have hsplit : w :: ws = [] ++ w :: ws := rfl
      exact ⟨_, _, rfl, .aborted hsplit List.not_mem_nil (fun _ => nofun) rfl (.refl _) hattend⟩

/-- A notification is a pass over the subscribers, if there is room for it. -/
theorem notify_aside (hidle : u.store.collecting = []) (hroom : u.store.depth < u.store.limit)
    (hproper : u.store.Proper) (i : SlotId) :
    ∃ r u', notify (fun label v => aside (act label v)) i u = (r, u') ∧
      u.store.Pass act (u.store.subscribers i) u.stage r u'.store u'.stage := by
  by_cases hsubscribers : u.store.subscribers i = []
  · rw [notify_of_nil _ hsubscribers, hsubscribers]
    exact ⟨.ok (), u, rfl, .completed (fun _ => nofun) rfl (.refl _)⟩
  · rw [notify_of_le _ hsubscribers hroom]
    obtain ⟨r, u', heach, hpass⟩ := each_aside act (u.store.subscribers i)
      (u := { u with store := { u.store with depth := u.store.depth + 1 } }) hidle hproper
    refine ⟨r, { u' with store := { u'.store with depth := u'.store.depth - 1 } }, ?_,
      hpass.of_entered⟩
    unfold notifying within
    rw [heach]

end

end Effect

/-! ## Writes -/

/-- A value that is there is written once more. -/
theorem Store.write_eq_self {s : Store R} {i : SlotId} {v : Value} (h : s.valueAt i = v) :
    s.write i v = s := by
  have hsame : s.slots.modify i (fun entry => { entry with value := v }) = s.slots := by
    refine Array.ext_getElem? fun t => ?_
    rw [Array.getElem?_modify]
    split
    next ht =>
      subst ht
      rw [valueAt_eq] at h
      cases hslot : s.slots[i]? with
      | none => rfl
      | some slot =>
        rw [hslot] at h
        exact congrArg some (congrArg (Slot.mk · slot.subscribers) h.symm)
    next => rfl
  rw [write, hsame]

/-- A subscription of a watcher that is there. -/
theorem Store.Grounded.subscribe {s : Store R} (h : s.Grounded) (i : SlotId) {w : WatcherId}
    (hw : w < s.watchers.size) : (s.subscribe i w).Grounded := by
  refine h.of_le (fun m key t ht => .inl ht) (Nat.le_of_eq Array.size_modify.symm)
    (fun t x hx => ?_) (Nat.le_refl _)
  rw [subscribers_subscribe] at hx
  split at hx
  · refine (List.mem_append.1 hx).imp_right fun hx => ?_
    obtain rfl := List.mem_singleton.1 hx
    exact hw
  · exact .inl hx

/-- A key is there, with the dependency set of its slot; a write to it has room to
    notify the set, and nobody collects meanwhile. -/
structure Store.Ready (s : Store R) (m : MappingId) (key : String) (i : SlotId)
    (ws : List WatcherId) : Prop where
  /-- The slot under the key. -/
  slot : s.slot? m key = some i
  /-- Its dependency set. -/
  subscribers : s.subscribers i = ws
  /-- Nobody collects. -/
  idle : s.collecting = []
  /-- There is room for a notification. -/
  room : s.depth < s.limit
  /-- References lead somewhere. -/
  grounded : s.Grounded
  /-- The values are proper. -/
  proper : s.Proper

namespace Store.Ready

variable {s s' : Store R} {m : MappingId} {key : String} {i : SlotId} {ws : List WatcherId}
  {w : WatcherId}

theorem lt_size (h : s.Ready m key i ws) (hw : w ∈ ws) : w < s.watchers.size :=
  h.grounded.watchers i w (h.subscribers ▸ hw)

/-- A value other than a mapping is written to the slot that is there. -/
theorem assign_eq (h : s.Ready m key i ws) {v : Value} (hv : v.isMapping = false) :
    s.assign m key v = s.write i v := by
  rw [Store.assign, h.slot]
  dsimp only
  rw [if_neg (by rw [hv]; exact Bool.false_ne_true)]

theorem write (h : s.Ready m key i ws) {v : Value} (hv : v.Proper) :
    (s.write i v).Ready m key i ws where
  slot := h.slot
  subscribers := (subscribers_write s i v i).trans h.subscribers
  idle := h.idle
  room := h.room
  grounded := h.grounded.write i v
  proper t := by
    rw [valueAt_write]
    split
    · exact hv
    · exact h.proper t

/-- A key stays ready while watchers are updated. -/
theorem caughtUp (h : s.Ready m key i ws) {done : List WatcherId} (hs : s.CaughtUp done s') :
    s'.Ready m key i ws where
  slot := (hs.slot? m key).trans h.slot
  subscribers := (hs.subscribers i).trans h.subscribers
  idle := hs.collecting h.idle
  room := depth_lt_of_activity hs.activity h.room
  grounded := hs.grounded h.grounded
  proper := hs.proper h.proper

theorem counted (h : s.Ready m key i ws) (w : WatcherId) : (s.counted w).Ready m key i ws where
  slot := h.slot
  subscribers := h.subscribers
  idle := h.idle
  room := h.room
  grounded := (After.counted s w).grounded h.grounded
  proper := h.proper

end Store.Ready

namespace Effect

variable {u : World R σ} {m : MappingId} {key : String} {i : SlotId} {ws : List WatcherId}
  {v : Value}

/-- A write is a pass over the dependency set, from the store in which the value is
    written. -/
theorem set_aside (act : R → Value → σ → Except Fault Unit × σ) (h : u.store.Ready m key i ws)
    (hv : v.Proper) :
    ∃ r u', set (fun label v => aside (act label v)) m key v u = (r, u') ∧
      (u.store.assign m key v).Pass act ws u.stage r u'.store u'.stage := by
  rw [set_assign_of_some _ h.slot]
  obtain ⟨r, u', hnotify, hpass⟩ := notify_aside act
    (u := { u with store := u.store.assign m key v })
    ((u.store.collecting_assign m key v).trans h.idle)
    (Store.depth_lt_of_activity (u.store.activity_assign m key v) h.room)
    (h.proper.assign hv m key) i
  rw [show ({ u with store := u.store.assign m key v } : World R σ).store.subscribers i = ws from
    (u.store.subscribers_assign m key v i).trans h.subscribers] at hpass
  exact ⟨r, u', hnotify, hpass⟩

/-- A pass whose watchers resolve and whose callbacks do not fail comes to its end. -/
theorem set_completed {act : R → Value → σ → Except Fault Unit × σ}
    (h : u.store.Ready m key i ws) (hv : v.Proper)
    (hact : ∀ label v st, (act label v st).1 = .ok ())
    (hresolves : ∀ w ∈ ws, (u.store.assign m key v).failure? w = none) :
    ∃ u', set (fun label v => aside (act label v)) m key v u = (.ok (), u') ∧
      u'.stage = (play act ((u.store.assign m key v).calls ws) u.stage).2 ∧
      (u.store.assign m key v).CaughtUp ws u'.store := by
  obtain ⟨r, ⟨s', st'⟩, hset, hpass⟩ := set_aside act h hv
  dsimp only at hpass
  cases hpass with
  | completed _ hplayed hcaught =>
    exact ⟨_, hset, (congrArg Prod.snd hplayed).symm, hcaught⟩
  | @aborted _ w _ _ st₁ _ _ hsplit _ _ _ _ hfailed =>
    have hw : w ∈ ws := hsplit ▸ List.mem_append_right _ List.mem_cons_self
    rw [Store.attend, hresolves w hw] at hfailed
    dsimp only at hfailed
    have hok := play_of_ok hact ((u.store.assign m key v).call? w).toList st₁
    rw [hfailed] at hok
    cases hok

/-- **A write calls every watcher that is due exactly once**, whatever repetitions there
    are in the dependency set: if the expressions resolve after the write and no callback
    fails, the write answers; a watcher is evaluated as often as it occurs; the calls are
    those of the watchers whose values differ from the ones that they saw last, in the
    order of their first occurrences; then the subscribers are up to date, and nothing
    has changed for other watchers and in other dependency sets. -/
theorem set_fires_once {act : R → Value → σ → Except Fault Unit × σ}
    (h : u.store.Ready m key i ws) (hv : v.Proper)
    (hact : ∀ label v st, (act label v st).1 = .ok ())
    (hresolves : ∀ w ∈ ws, (u.store.assign m key v).failure? w = none) :
    ∃ u', set (fun label v => aside (act label v)) m key v u = (.ok (), u') ∧
      (∀ w, u'.store.evaluations w = u.store.evaluations w + ws.count w) ∧
      u'.stage = (play act ((u.store.assign m key v).calls ws) u.stage).2 ∧
      (∀ w ∈ ws, u'.store.UpToDate w) ∧
      (∀ w ∉ ws, u'.store.watchers[w]? = u.store.watchers[w]?) ∧
      (∀ t, u'.store.subscribers t = u.store.subscribers t) ∧
      ∀ m' key', ¬ (m' = m ∧ key' = key) → u'.store.slot? m' key' = u.store.slot? m' key' := by
  obtain ⟨u', hset, hstage, hcaught⟩ := set_completed h hv hact hresolves
  have hwatchers := u.store.watchers_assign m key v
  have hevaluations (w : WatcherId) :
      (u.store.assign m key v).evaluations w = u.store.evaluations w := by
    rw [Store.evaluations, hwatchers, Store.evaluations]
  have hsize {w : WatcherId} (hw : w ∈ ws) : w < (u.store.assign m key v).watchers.size :=
    hwatchers ▸ h.lt_size hw
  refine ⟨u', hset, fun w => ?_, hstage, fun w hw => ?_, fun w hw => ?_, fun t => ?_,
    fun m' key' hother => ?_⟩
  · by_cases hw : w ∈ ws
    · rw [hcaught.evaluations (hsize hw), hevaluations]
    · rw [List.count_eq_zero_of_not_mem hw, Nat.add_zero, Store.evaluations,
        hcaught.watchers_of_not_mem hw, hwatchers, Store.evaluations]
  · exact hcaught.upToDate (h.proper.assign hv m key) hw (hsize hw) (hresolves w hw)
  · rw [hcaught.watchers_of_not_mem hw, hwatchers]
  · exact (hcaught.subscribers t).trans (u.store.subscribers_assign m key v t)
  · exact (hcaught.slot? m' key').trans (u.store.slot?_assign_other m key v hother)

/-- A callback that notes its label. -/
def noting (label : Bool) (_ : Value) (st : List Bool) : Except Fault Unit × List Bool :=
  (.ok (), st ++ [label])

/-- A world in which one watcher is subscribed twice to a slot, and another one
    between. -/
def subscribedTwice : World Bool (List Bool) where
  store := ((((Store.empty.observe (.object [("a", .string "x")])).2.watched 0 "a" true
    (.string "x")).watched 0 "a" false (.string "x")).subscribe 0 0)
  stage := []

theorem ready_subscribedTwice : subscribedTwice.store.Ready 0 "a" 0 [0, 1, 0] where
  slot := by decide +kernel
  subscribers := by decide +kernel
  idle := rfl
  room := by decide +kernel
  grounded := (((Store.Grounded.empty.observe _).watched 0 "a" true (.string "x")).watched 0 "a"
    false (.string "x")).subscribe 0 (by decide +kernel)
  proper := (((Store.Proper.observe (j := .object [("a", .string "x")])
    ⟨by decide, trivial, trivial⟩ .empty).2.watched 0 "a" true (.string "x")).watched 0 "a" false
    (.string "x")).subscribe 0 0

/-- The watcher that is subscribed twice is evaluated twice and called once. -/
theorem set_fires_once_of_subscribedTwice :
    ∃ u', set (fun label v => aside (noting label v)) 0 "a" (.string "y") subscribedTwice =
        (.ok (), u') ∧
      u'.store.evaluations 0 = 3 ∧ u'.store.evaluations 1 = 2 ∧ u'.stage = [true, false] ∧
      u'.store.UpToDate 0 ∧ u'.store.UpToDate 1 := by
  have hv : (Value.string "y").Proper := trivial
  have hnoting : ∀ label v st, (noting label v st).1 = .ok () := fun _ _ _ => rfl
  obtain ⟨u', hset, hevaluations, hstage, huptodate, -⟩ :=
    set_fires_once ready_subscribedTwice hv hnoting (by decide +kernel)
  refine ⟨u', hset, ?_, ?_, ?_, huptodate 0 (by decide), huptodate 1 (by decide)⟩
  · exact (hevaluations 0).trans (by decide +kernel)
  · exact (hevaluations 1).trans (by decide +kernel)
  · exact hstage.trans (by decide +kernel)

/-- **A write that fails has updated the watchers before the first that fails**, and no
    other one: the error is that of this watcher, which has still seen the value that it
    saw before, and the slot holds what was written.  **The same write once more**, with
    expressions that resolve and callbacks that do not fail, brings every subscriber up to
    date, and calls those once that were not. -/
theorem set_aborted {act : R → Value → σ → Except Fault Unit × σ}
    (h : u.store.Ready m key i ws) (hv : v.Proper) (hscalar : v.isMapping = false)
    {stop : Stop} {u' : World R σ}
    (hset : set (fun label v => aside (act label v)) m key v u = (.error stop, u')) :
    (∃ front w rest st f, ws = front ++ w :: rest ∧ w ∉ front ∧ stop = .fault f ∧
      (∀ x ∈ front, (u.store.assign m key v).failure? x = none) ∧
      play act ((u.store.assign m key v).calls front) u.stage = (.ok (), st) ∧
      (u.store.assign m key v).attend act w st = (.error f, u'.stage) ∧
      (∀ x ∈ front, u'.store.UpToDate x) ∧
      u'.store.watchers[w]? = (u.store.watchers[w]?).map (fun watcher =>
        { watcher with evaluations := watcher.evaluations + 1 }) ∧
      ∀ x ∉ front, x ≠ w → u'.store.watchers[x]? = u.store.watchers[x]?) ∧
    u'.store.valueAt i = v ∧ u'.store.Ready m key i ws ∧ u'.store.assign m key v = u'.store ∧
    ∀ (act' : R → Value → σ → Except Fault Unit × σ) (u₁ : World R σ),
      u₁.store.Ready m key i ws → (∀ label v st, (act' label v st).1 = .ok ()) →
      (∀ x ∈ ws, (u₁.store.assign m key v).failure? x = none) →
      ∃ u₂, set (fun label v => aside (act' label v)) m key v u₁ = (.ok (), u₂) ∧
        (∀ x ∈ ws, u₂.store.UpToDate x) ∧
        u₂.stage = (play act' ((u₁.store.assign m key v).calls ws) u₁.stage).2 ∧
        ∀ x ∈ ws, ((u₁.store.assign m key v).call? x).isSome ↔
          ¬ (u₁.store.assign m key v).UpToDate x := by
  have hassign := h.assign_eq hscalar
  have hready : (u.store.assign m key v).Ready m key i ws := hassign ▸ h.write hv
  have hwatchers := u.store.watchers_assign m key v
  obtain ⟨r, ⟨s', st'⟩, hset', hpass⟩ := set_aside act h hv
  obtain ⟨rfl, rfl⟩ := Prod.mk.inj (hset.symm.trans hset')
  dsimp only at hpass
  cases hpass with
  | @aborted front w rest s₁ st f _ hsplit hfirst hresolves hplayed hcaught hfailed =>
    have hready₁ := hready.caughtUp hcaught
    have hvalue : s₁.valueAt i = v := by
      rw [hcaught.valueAt, hassign, Store.valueAt_write,
        if_pos ⟨rfl, h.grounded.slots m key i h.slot⟩]
    have hother (x : WatcherId) (hne : w ≠ x) : (s₁.counted w).watchers[x]? = s₁.watchers[x]? := by
      rw [Store.counted, Store.updateWatcher, Array.getElem?_modify, if_neg hne]
    refine ⟨⟨front, w, rest, st, f, hsplit, hfirst, rfl, hresolves, hplayed, hfailed, ?_, ?_, ?_⟩,
      hvalue, hready₁.counted w, ?_, ?_⟩
    · intro x hx
      have hmem : x ∈ ws := hsplit ▸ List.mem_append_left _ hx
      have hne : w ≠ x := fun heq => hfirst (heq ▸ hx)
      obtain ⟨watcher, value, hwatcher, hv', hequal⟩ :=
        hcaught.upToDate hready.proper hx (hready.lt_size hmem) (hresolves x hx)
      refine ⟨watcher, value, ?_, ?_, hequal⟩
      · exact (hother x hne).trans hwatcher
      · have hresolve : (s₁.counted w).resolve watcher.root watcher.expression =
            s₁.resolve watcher.root watcher.expression := by
          refine Store.resolve_of_parts ?_ ?_ _ _ <;> rfl
        rw [hresolve]
        exact hv'
    · change (s₁.watchers.modify w _)[w]? = _
      rw [Array.getElem?_modify, if_pos rfl, hcaught.watchers_of_not_mem hfirst, hwatchers]
    · intro x hx hne
      rw [hother x hne.symm, hcaught.watchers_of_not_mem hx, hwatchers]
    · exact ((hready₁.counted w).assign_eq hscalar).trans (Store.write_eq_self hvalue)
    · intro act' u₁ h₁ hact hresolves₁
      obtain ⟨u₂, hset₂, hstage, hcaught₂⟩ := set_completed h₁ hv hact hresolves₁
      have hsize {x : WatcherId} (hx : x ∈ ws) :
          x < (u₁.store.assign m key v).watchers.size :=
        u₁.store.watchers_assign m key v ▸ h₁.lt_size hx
      refine ⟨u₂, hset₂, fun x hx => ?_, hstage, fun x hx => ?_⟩
      · exact hcaught₂.upToDate (h₁.proper.assign hv m key) hx (hsize hx) (hresolves₁ x hx)
      · exact Store.call?_isSome_iff (hsize hx) (hresolves₁ x hx)

/-- A callback that fails for one of the labels. -/
def failing (label : Bool) (_ : Value) (st : List Bool) : Except Fault Unit × List Bool :=
  if label then (.ok (), st ++ [label]) else (.error (.raised "no"), st)

/-- The second watcher fails: the first has been called, and is not called any more
    when the write is made once more. -/
theorem set_aborted_of_subscribedTwice :
    let after := set (fun label v => aside (failing label v)) 0 "a" (.string "y") subscribedTwice
    after.1.isOk = false ∧ after.2.store.valueAt 0 = .string "y" ∧ after.2.stage = [true] ∧
      ∃ u₂, set (fun label v => aside (noting label v)) 0 "a" (.string "y") after.2 =
          (.ok (), u₂) ∧
        u₂.store.UpToDate 0 ∧ u₂.store.UpToDate 1 ∧ u₂.stage = [true, false] := by
  intro after
  have hfails : after.1.isOk = false := by decide +kernel
  obtain ⟨stop, hstop⟩ : ∃ stop, after.1 = .error stop := by
    cases h : after.1 with
    | ok x =>
      rw [h] at hfails
      cases hfails
    | error stop => exact ⟨stop, rfl⟩
  have hset : set (fun label v => aside (failing label v)) 0 "a" (.string "y") subscribedTwice =
      (.error stop, after.2) := Prod.ext hstop rfl
  have hv : (Value.string "y").Proper := trivial
  obtain ⟨-, hvalue, hready, -, hretry⟩ := set_aborted ready_subscribedTwice hv rfl hset
  obtain ⟨u₂, hset', huptodate, hstage, -⟩ :=
    hretry noting after.2 hready (fun _ _ _ => rfl) (by decide +kernel)
  refine ⟨hfails, hvalue, by decide +kernel, u₂, hset', huptodate 0 (by decide),
    huptodate 1 (by decide), hstage.trans (by decide +kernel)⟩

end Effect

end DataBinding
