/-
  Mappings that are put in the place of what was under a key.

  A write of a mapping puts a new slot without subscribers under its key, and
  notifies those of the old slot once more.  They are subscribed to nothing in the
  new mapping, and no write to it, or to the key, will ever evaluate them; it does
  evaluate the watchers that are made later.

  * `Store.Renewed`: only new watchers are subscribed to what is under a key;
  * `Renewed.assign`: a write of plain data there, or below, keeps it so;
  * `Program.Rewritten`: what follows when there are such writes, and new
    watchers;
  * `Program.mapping_replaced`: the replacement of a mapping, and what follows.

  Callbacks only read in all of this: `Program.orphan_is_updated` is a callback
  that updates a watcher which nothing notifies any more.
-/
import DataBinding.Proofs.Reactive.Refinement
import DataBinding.Proofs.Reactive.Silence

namespace DataBinding

variable {R σ : Type}

namespace Store

/-! ## Subscribers -/

section

variable (s : Store R)

theorem subscribers_observe (j : Json) (i : SlotId) :
    (s.observe j).2.subscribers i = s.subscribers i :=
  (After.observe s j).subscribers i

theorem subscribers_assign (m : MappingId) (key : String) (v : Value) (i : SlotId) :
    (s.assign m key v).subscribers i = s.subscribers i := by
  unfold assign
  split
  · exact subscribers_newSlot s v i
  · rw [subscribers_write]
    split
    · exact subscribers_newSlot s v i
    · rfl

theorem subscribers_of_not_holding {i : SlotId} (h : s.holding? (.slot i) = none) :
    s.subscribers i = [] := by
  rw [subscribers_eq, Option.map_eq_none_iff.1 h]
  rfl

theorem watchers_assign (m : MappingId) (key : String) (v : Value) :
    (s.assign m key v).watchers = s.watchers := by
  unfold assign
  split
  · rfl
  · split <;> rfl

theorem Grounded.assign {s : Store R} (h : s.Grounded) (m : MappingId) (key : String) (v : Value) :
    (s.assign m key v).Grounded := by
  unfold Store.assign
  split
  · exact h.install m key v
  · split
    · exact (h.install m key v).write _ v
    · exact h.write _ v

theorem activity_assign (m : MappingId) (key : String) (v : Value) :
    (s.assign m key v).activity = s.activity := by
  unfold assign
  split
  · rfl
  · split <;> rfl

theorem collecting_assign (m : MappingId) (key : String) (v : Value) :
    (s.assign m key v).collecting = s.collecting :=
  congrArg Activity.collecting (s.activity_assign m key v)

end

theorem depth_lt_of_activity {s s' : Store R} (h : s'.activity = s.activity)
    (hroom : s.depth < s.limit) : s'.depth < s'.limit := by
  change s'.activity.depth < s'.activity.limit
  rw [h]
  exact hroom

/-! ## New watchers -/

section

variable (s : Store R) (root : MappingId) (expression : String) (label : R) (v : Value)

theorem evaluations_watched {w : WatcherId} (hw : w < s.watchers.size) :
    (s.watched root expression label v).evaluations w = s.evaluations w := by
  change ((s.watchers.push _)[w]?).elim 0 Watcher.evaluations = _
  rw [Array.getElem?_push, if_neg (Nat.ne_of_lt hw)]
  rfl

theorem Extends.watched : s.Extends (s.watched root expression label v) :=
  .of_eq fun c => holding_trackAll _ (s.evaluating root expression label) c

end

/-! ## What is under a key -/

/-- Under a key of a mapping there is a slot whose value is plain data, in cells
    of its own, and only watchers from the number `n` on are subscribed there. -/
structure Renewed (s : Store R) (o : MappingId) (k : String) (n : Nat) (i : SlotId) (j : Json)
    (cells : List Cell) : Prop where
  /-- The slot is under the key. -/
  slots : ∃ slots, s.holding? (.mapping o) = some (.inr slots) ∧ Keyed.get? slots k = some i
  /-- It holds plain data. -/
  value : ∃ v, s.holding? (.slot i) = some (.inl v) ∧ s.Represents j v cells
  /-- The cells are used once. -/
  nodup : (.mapping o :: .slot i :: cells).Nodup
  /-- The subscribers are new. -/
  subscribers : ∀ t, .slot t ∈ .slot i :: cells → ∀ w ∈ s.subscribers t, n ≤ w

namespace Renewed

variable {s s' : Store R} {o : MappingId} {k : String} {n : Nat} {i : SlotId} {j : Json}
  {cells : List Cell}

theorem present (h : s.Renewed o k n i j cells) :
    ∀ c ∈ .mapping o :: .slot i :: cells, (s.holding? c).isSome := by
  obtain ⟨slots, hslots, -⟩ := h.slots
  obtain ⟨v, hv, hrepresents⟩ := h.value
  refine List.forall_mem_cons.2 ⟨?_, List.forall_mem_cons.2 ⟨?_, hrepresents.present⟩⟩
  · rw [hslots]
    rfl
  · rw [hv]
    rfl

/-- More data, and new subscribers, do no harm. -/
theorem of_extends (h : s.Renewed o k n i j cells) (hs : s.Extends s')
    (hsubscribers : ∀ t, ∀ w ∈ s'.subscribers t, w ∈ s.subscribers t ∨ n ≤ w) :
    s'.Renewed o k n i j cells := by
  have hframe (c) (hc : c ∈ .mapping o :: .slot i :: cells) := hs c (h.present c hc)
  obtain ⟨slots, hslots, hi⟩ := h.slots
  obtain ⟨v, hv, hrepresents⟩ := h.value
  have hslot := hframe _ (List.mem_cons_of_mem _ List.mem_cons_self)
  refine ⟨⟨slots, (hframe _ List.mem_cons_self).trans hslots, hi⟩,
    ⟨v, hslot.trans hv, hrepresents.of_extends hs⟩, h.nodup, fun t ht w hw => ?_⟩
  exact (hsubscribers t w hw).elim (h.subscribers t ht w) id

/-- A write of plain data under the key. -/
theorem assign_here (h : s.Renewed o k n i j cells) {new : Json} {v : Value} {own : List Cell}
    (hnew : s.Represents new v own) (hown : own.Nodup)
    (hapart : own.Disjoint (.mapping o :: .slot i :: cells))
    (hquiet : ∀ t, .slot t ∈ own → s.subscribers t = []) :
    (∀ t, s.slot? o k = some t → ∀ w ∈ s.subscribers t, n ≤ w) ∧
      ∃ i', (s.assign o k v).Renewed o k n i' new own := by
  obtain ⟨slots, hslots, hi⟩ := h.slots
  have hold : ∀ t, Keyed.get? slots k = some t → t = i := fun t ht =>
    Option.some.inj (ht.symm.trans hi)
  obtain ⟨i', hi', hvalue, hmapping, hother⟩ := s.holding_assign o k v hslots fun t ht =>
    h.present _ (hold t ht ▸ List.mem_cons_of_mem _ List.mem_cons_self)
  have hslot : .slot i' ∉ own := by
    intro hmem
    rcases hi' with hi' | hi'
    · exact hapart hmem (hold i' hi' ▸ List.mem_cons_of_mem _ List.mem_cons_self)
    · exact Option.isSome_iff_ne_none.1 (hnew.present _ hmem) hi'
  constructor
  · intro t ht
    rw [slot?_of_holding hslots] at ht
    exact hold t ht ▸ h.subscribers i List.mem_cons_self
  refine ⟨i', ⟨_, hmapping, Keyed.get?_put_self slots k i'⟩, ⟨v, hvalue,
    hnew.frame fun c hc => hother c (hnew.present c hc) ?_ ?_⟩, ?_, fun t ht w hw => ?_⟩
  · exact fun h => hapart hc (h ▸ List.mem_cons_self)
  · exact fun t ht h => hapart hc (h ▸ hold t ht ▸ List.mem_cons_of_mem _ List.mem_cons_self)
  · refine List.nodup_cons.2 ⟨fun hmem => ?_, List.nodup_cons.2 ⟨hslot, hown⟩⟩
    exact hapart ((List.mem_cons.1 hmem).resolve_left nofun) List.mem_cons_self
  · rw [subscribers_assign] at hw
    rcases List.mem_cons.1 ht with ht | ht
    · obtain rfl := Cell.slot.inj ht
      rcases hi' with hi' | hi'
      · exact h.subscribers t (hold t hi' ▸ List.mem_cons_self) w hw
      · rw [subscribers_of_not_holding s hi'] at hw
        cases hw
    · rw [hquiet t ht] at hw
      cases hw

/-- A write of plain data below the key. -/
theorem assign_below (h : s.Renewed o k n i j cells) {new : Json} {v : Value} {own : List Cell}
    (hnew : s.Represents new v own) (hown : own.Nodup)
    (hapart : own.Disjoint (.mapping o :: .slot i :: cells))
    (hquiet : ∀ t, .slot t ∈ own → s.subscribers t = []) {path : List String} {key : String}
    {m : MappingId} (hreach : s.reach (k :: path) (.mapping o) = some m) :
    (∀ t, s.slot? m key = some t → ∀ w ∈ s.subscribers t, n ≤ w) ∧
      ∃ j' cells', (s.assign m key v).Renewed o k n i j' cells' := by
  obtain ⟨slots, hslots, hi⟩ := h.slots
  obtain ⟨x, hx, hrepresents⟩ := h.value
  rw [reach, slot?_of_holding hslots, hi, Option.bind_some, valueAt_of_holding hx] at hreach
  obtain ⟨slots', hm, -, hcells⟩ := hrepresents.mem_of_reach hreach
  -- what leads to the data is not in it
  obtain ⟨hfirst, hnodup, hbefore⟩ := List.nodup_append'.1
    (show ([Cell.mapping o, .slot i] ++ cells).Nodup from h.nodup)
  obtain ⟨j', cells', -, hrepresents', hnodup', hamong⟩ := hnew.assign hown hrepresents hnodup
    (fun c hc hc' => hapart hc' (List.mem_cons_of_mem _ (List.mem_cons_of_mem _ hc))) hreach
  have hoff : ∀ c ∈ [.mapping o, .slot i],
      (s.assign m key v).holding? c = s.holding? c ∧ c ∉ cells' := by
    intro c hc
    have hmem : c ∈ .mapping o :: .slot i :: cells := List.mem_append_left cells hc
    exact hrepresents.outside_assign hreach hamong (h.present c hmem) (hbefore hc)
      fun hc' => hapart hc' hmem
  have hmapping := hoff _ List.mem_cons_self
  have hslot := hoff (.slot i) (List.mem_cons_of_mem _ List.mem_cons_self)
  constructor
  · intro t ht
    rw [slot?_of_holding hm] at ht
    exact h.subscribers t (List.mem_cons_of_mem _ (hcells key t ht))
  refine ⟨j', cells', ⟨slots, hmapping.1.trans hslots, hi⟩,
    ⟨x, hslot.1.trans hx, hrepresents'⟩, ?_, fun t ht w hw => ?_⟩
  · exact hfirst.append hnodup' fun c hc hc' => (hoff c hc).2 hc'
  · rw [subscribers_assign] at hw
    rcases List.mem_cons.1 ht with ht | ht
    · exact h.subscribers t (ht ▸ List.mem_cons_self) w hw
    rcases hamong _ ht with ht | ht | hnone
    · exact h.subscribers t (List.mem_cons_of_mem _ ht) w hw
    · rw [hquiet t ht] at hw
      cases hw
    · rw [subscribers_of_not_holding s hnone] at hw
      cases hw

/-- **A write of plain data under the key, or below,** notifies new subscribers
    only, and leaves only new ones. -/
theorem assign (h : s.Renewed o k n i j cells) {new : Json} {v : Value} {own : List Cell}
    (hnew : s.Represents new v own) (hown : own.Nodup)
    (hapart : own.Disjoint (.mapping o :: .slot i :: cells))
    (hquiet : ∀ t, .slot t ∈ own → s.subscribers t = []) {path : List String} {key : String}
    {m : MappingId} (hpath : path.headD key = k) (hreach : s.reach path (.mapping o) = some m) :
    (∀ t, s.slot? m key = some t → ∀ w ∈ s.subscribers t, n ≤ w) ∧
      ∃ i' j' cells', (s.assign m key v).Renewed o k n i' j' cells' := by
  cases path with
  | nil =>
    obtain rfl : key = k := hpath
    obtain rfl : o = m := Option.some.inj hreach
    obtain ⟨hnotified, i', hnext⟩ := h.assign_here hnew hown hapart hquiet
    exact ⟨hnotified, i', new, own, hnext⟩
  | cons step path =>
    obtain rfl : step = k := hpath
    obtain ⟨hnotified, j', cells', hnext⟩ := h.assign_below hnew hown hapart hquiet hreach
    exact ⟨hnotified, i, j', cells', hnext⟩

end Renewed

/-- A mapping that is put under a key gets a new slot. -/
theorem slot?_assign_mapping {s : Store R} {o : MappingId} {k : String} {i : SlotId}
    (h : s.slot? o k = some i) {v : Value} (hv : v.isMapping = true) :
    (s.assign o k v).slot? o k = some s.slots.size := by
  obtain ⟨slots, hslots, -⟩ := holding_of_slot? h
  have hlt : o < s.mappings.size := lt_of_holding (by rw [hslots]; rfl)
  unfold assign
  rw [h]
  dsimp only
  rw [if_pos hv]
  change Keyed.get? (((s.mappings.modify o _)[o]?).getD []) k = _
  rw [Array.getElem?_modify, if_pos rfl, Array.getElem?_eq_getElem hlt]
  exact Keyed.get?_put_self _ k _

/-- A mapping in the place of what was under a key has a new slot, to which nobody
    is subscribed. -/
theorem renewed_replace {s : Store R} {o : MappingId} {k : String} {i : SlotId}
    (h : s.slot? o k = some i) (hi : i < s.slots.size) (members : List (String × Json)) (n : Nat) :
    let observed := s.observe (.object members)
    ∃ cells, (observed.2.assign o k observed.1).Renewed o k n observed.2.slots.size
      (.object members) cells := by
  intro observed
  obtain ⟨own, hnew, hown, hfresh⟩ := represents_observe (.object members) s
  have hextends : s.Extends observed.2 := .observe s _
  obtain ⟨slots, hslots, hget⟩ := holding_of_slot? h
  have hheld : (s.holding? (.slot i)).isSome := by
    rw [holding_slot, Array.getElem?_eq_getElem hi]
    rfl
  have hslots' : observed.2.holding? (.mapping o) = some (.inr slots) :=
    (hextends _ (by rw [hslots]; rfl)).trans hslots
  have hother : ∀ t, Keyed.get? slots k = some t → t = i := fun t ht =>
    Option.some.inj (ht.symm.trans hget)
  obtain ⟨i', -, hvalue, hmapping, hframe⟩ := observed.2.holding_assign o k observed.1 hslots'
    fun t ht => by rw [hother t ht, hextends _ hheld]; exact hheld
  obtain rfl : i' = observed.2.slots.size := by
    have hslot := slot?_assign_mapping ((slot?_of_holding hslots' k).trans hget)
      (show observed.1.isMapping = true from rfl)
    rw [slot?_of_holding hmapping, Keyed.get?_put_self] at hslot
    exact Option.some.inj hslot
  have hquiet : ∀ t, .slot t ∈ .slot observed.2.slots.size :: own →
      (observed.2.assign o k observed.1).subscribers t = [] := by
    intro t ht
    rw [subscribers_assign]
    rcases List.mem_cons.1 ht with ht | ht
    · exact subscribers_of_not_holding _ (ht ▸ not_holding_slot _)
    · exact (subscribers_observe s _ t).trans (subscribers_of_not_holding s (hfresh _ ht))
  have hapart : ∀ c ∈ own, c ≠ .mapping o ∧ c ≠ .slot i := by
    refine fun c hc => ⟨?_, ?_⟩
    · rintro rfl
      rw [hfresh _ hc] at hslots
      cases hslots
    · rintro rfl
      rw [hfresh _ hc] at hheld
      cases hheld
  refine ⟨own, ⟨_, hmapping, Keyed.get?_put_self _ k _⟩, ⟨_, hvalue, hnew.frame fun c hc =>
    hframe c (hnew.present c hc) (hapart c hc).1 fun t ht => hother t ht ▸ (hapart c hc).2⟩, ?_,
    fun t ht w hw => ?_⟩
  · refine List.nodup_cons.2 ⟨fun hmem => ?_, List.nodup_cons.2 ⟨fun hmem => ?_, hown⟩⟩
    · exact (hapart _ ((List.mem_cons.1 hmem).resolve_left nofun)).1 rfl
    · exact Option.isSome_iff_ne_none.1 (hnew.present _ hmem) (not_holding_slot _)
  · rw [hquiet t ht] at hw
    cases hw

/-- Under a key there is a slot without subscribers, which holds a mapping that has
    the plain data as its snapshot. -/
structure Installed (s : Store R) (o : MappingId) (k : String) (i : SlotId) (j : Json) : Prop where
  /-- The slot is under the key. -/
  slot : s.slot? o k = some i
  /-- Nobody is subscribed to it. -/
  subscribers : s.subscribers i = []
  /-- It holds a mapping. -/
  mapping : (s.valueAt i).isMapping = true
  /-- Its snapshot is the plain data. -/
  snapshot : s.toJson? (s.valueAt i) = some j

theorem Renewed.installed {s : Store R} {o : MappingId} {k : String} {n : Nat} {i : SlotId}
    {members : List (String × Json)} {cells : List Cell}
    (h : s.Renewed o k n i (.object members) cells) (hsubscribers : s.subscribers i = []) :
    s.Installed o k i (.object members) := by
  obtain ⟨slots, hslots, hi⟩ := h.slots
  obtain ⟨v, hv, hrepresents⟩ := h.value
  have hvalue := valueAt_of_holding hv
  have hnodup := (List.nodup_cons.1 (List.nodup_cons.1 h.nodup).2).2
  refine ⟨(slot?_of_holding hslots k).trans hi, hsubscribers, ?_, ?_⟩
  · rw [hvalue]
    cases hrepresents
    rfl
  · rw [hvalue]
    exact hrepresents.toJson? hnodup

end Store

/-! ## What follows -/

namespace Program

open Effect (Silent)

variable {K S : Type}

/-- What follows a world when plain data is written under a key of a mapping, or
    below what is there, and watchers are made. -/
inductive Rewritten (react : K → Value → Run K S Unit) (o : MappingId) (k : String)
    (u : World K (Scene K S)) : World K (Scene K S) → Prop
  /-- Nothing has happened. -/
  | start : Rewritten react o k u u
  /-- A write, however it ends. -/
  | write {u'} (h : Rewritten react o k u u') {w : PathWrite} (hw : w.path.headD w.key = k) :
    Rewritten react o k u (w.perform react o u').2
  /-- A new watcher, whether its expression resolves or not. -/
  | watch {u'} (h : Rewritten react o k u u') (root : MappingId) (expression : String) (label : K) :
    Rewritten react o k u (Effect.watch root expression label u').2

/-- Nobody collects, only watchers from the number `n` on are subscribed to what
    is under a key, and the others have been evaluated so often. -/
structure Orphaned (o : MappingId) (k : String) (n : Nat) (evaluations : WatcherId → Nat)
    (s : Store K) : Prop where
  /-- Nobody collects. -/
  collecting : s.collecting = []
  /-- References lead somewhere. -/
  grounded : s.Grounded
  /-- There are so many watchers. -/
  size : n ≤ s.watchers.size
  /-- The first ones have been evaluated so often. -/
  evaluations : ∀ w < n, s.evaluations w = evaluations w
  /-- Only the others are subscribed to what is under the key. -/
  renewed : ∃ i j cells, s.Renewed o k n i j cells

variable {o : MappingId} {k : String} {n : Nat} {evaluations : WatcherId → Nat}
  {react : K → Value → Run K S Unit}

/-- Evaluations of new watchers leave the others alone. -/
theorem Orphaned.after {s s' : Store K} {done : List WatcherId} (h : Orphaned o k n evaluations s)
    (hs : s.After done s') (hdone : ∀ w ∈ done, n ≤ w) : Orphaned o k n evaluations s' := by
  obtain ⟨i, j, cells, hrenewed⟩ := h.renewed
  refine ⟨hs.collecting h.collecting, hs.grounded h.grounded, hs.size ▸ h.size, fun w hw => ?_,
    i, j, cells, hrenewed.of_extends hs.data fun t w hw => .inl (hs.subscribers t ▸ hw)⟩
  have hnot : w ∉ done := fun hmem => Nat.not_le.2 hw (hdone w hmem)
  have hevaluations := hs.evaluations w (Nat.lt_of_lt_of_le hw h.size)
  rw [List.count_eq_zero.2 hnot, h.evaluations w hw] at hevaluations
  exact hevaluations

/-- Plain data is written under the key, or below, where only new watchers are
    subscribed. -/
theorem Orphaned.assign {s : Store K} (h : Orphaned o k n evaluations s) {w : PathWrite}
    (hw : w.path.headD w.key = k) {m : MappingId}
    (hreach : (s.observe w.value).2.reach w.path (.mapping o) = some m) :
    let observed := s.observe w.value
    let assigned := observed.2.assign m w.key observed.1
    Orphaned o k n evaluations assigned ∧
      ∀ t, observed.2.slot? m w.key = some t → ∀ w ∈ assigned.subscribers t, n ≤ w := by
  intro observed assigned
  have hobserve : s.After [] observed.2 := .observe s w.value
  have hobserved := h.after hobserve fun _ => nofun
  obtain ⟨i, j, cells, hrenewed⟩ := h.renewed
  obtain ⟨own, hnew, hown, hfresh⟩ := Store.represents_observe w.value s
  have hapart : own.Disjoint (.mapping o :: .slot i :: cells) := fun c hc hc' =>
    Option.isSome_iff_ne_none.1 (hrenewed.present c hc') (hfresh c hc)
  have hquiet : ∀ t, .slot t ∈ own → observed.2.subscribers t = [] := fun t ht =>
    (hobserve.subscribers t).trans (Store.subscribers_of_not_holding _ (hfresh _ ht))
  obtain ⟨hsubscribers, hassigned⟩ :=
    (hrenewed.of_extends hobserve.data fun t w hw => .inl (hobserve.subscribers t ▸ hw)).assign
      hnew hown hapart hquiet hw hreach
  refine ⟨⟨?_, hobserved.grounded.assign m w.key _, ?_, fun w' hw' => ?_, hassigned⟩,
    fun t ht w' hw' => ?_⟩
  · exact (observed.2.collecting_assign m w.key observed.1).trans hobserved.collecting
  · rw [Store.watchers_assign]
    exact hobserved.size
  · rw [Store.evaluations, Store.watchers_assign]
    exact hobserved.evaluations w' hw'
  · rw [Store.subscribers_assign] at hw'
    exact hsubscribers t ht w' hw'

/-- A write under the key, or below, leaves the watchers alone. -/
theorem Orphaned.perform (hreact : ∀ label v, (react label v).Silent) {u : World K (Scene K S)}
    (h : Orphaned o k n evaluations u.store) {w : PathWrite} (hw : w.path.headD w.key = k) :
    Orphaned o k n evaluations (w.perform react o u).2.store := by
  rw [PathWrite.perform_apply]
  split
  next => exact h.after (.observe u.store w.value) fun _ => nofun
  next m hreach =>
    obtain ⟨hassigned, hsubscribers⟩ := h.assign hw hreach
    cases hslot : (u.store.observe w.value).2.slot? m w.key with
    | none =>
      rw [Effect.set_assign_of_none react hslot]
      exact hassigned
    | some t =>
      rw [Effect.set_assign_of_some react hslot]
      obtain ⟨done, hdone, hafter⟩ := @Effect.notify_after _ _ react hreact
        { u with store := (u.store.observe w.value).2.assign m w.key (u.store.observe w.value).1 }
        hassigned.collecting t
      exact hassigned.after hafter fun w' hw' => hsubscribers t hslot w' (hdone.subset hw')

/-- A new watcher is not one of the first ones. -/
theorem Orphaned.watch {u : World K (Scene K S)} (h : Orphaned o k n evaluations u.store)
    (root : MappingId) (expression : String) (label : K) :
    Orphaned o k n evaluations (Effect.watch root expression label u).2.store := by
  have hwatched : ∀ v, Orphaned o k n evaluations (u.store.watched root expression label v) := by
    intro v
    obtain ⟨i, j, cells, hrenewed⟩ := h.renewed
    refine ⟨h.collecting, h.grounded.watched root expression label v, ?_, fun w hw => ?_, i, j,
      cells, hrenewed.of_extends (.watched u.store root expression label v) fun t w hw => ?_⟩
    · rw [Store.size_watchers_watched]
      exact Nat.le_succ_of_le h.size
    · exact (u.store.evaluations_watched root expression label v
        (Nat.lt_of_lt_of_le hw h.size)).trans (h.evaluations w hw)
    · rcases u.store.of_mem_subscribers_watched root expression label v hw with hw | rfl
      · exact .inl hw
      · exact .inr h.size
  cases hresolve : (u.store.resolve root expression).2 with
  | ok v =>
    rw [Effect.watch_of_ok hresolve]
    exact hwatched v
  | error e =>
    rw [Effect.watch_of_error hresolve]
    exact hwatched .null

theorem Rewritten.orphaned (hreact : ∀ label v, (react label v).Silent)
    {u u' : World K (Scene K S)} (h : Rewritten react o k u u')
    (hu : Orphaned o k n evaluations u.store) : Orphaned o k n evaluations u'.store := by
  induction h with
  | start => exact hu
  | write _ hw ih => exact ih.perform hreact hw
  | watch _ root expression label ih => exact ih.watch root expression label

/-! ## New watchers are heeded -/

/-- A write to a slot, under whichever key it is, evaluates a watcher, unless a
    subscriber before it fails. -/
def Heeds (react : K → Value → Run K S Unit) (t : SlotId) (w : WatcherId)
    (u : World K (Scene K S)) : Prop :=
  ∀ m key v, u.store.slot? m key = some t → ∃ front rest,
    u.store.subscribers t = front ++ w :: rest ∧ w ∉ front ∧
      ((Effect.notifying (Effect.each (Effect.updateWatcher react) front)
          { u with store := u.store.assign m key v }).1 = .ok () →
        u.store.evaluations w < (Effect.set react m key v u).2.store.evaluations w)

/-- Subscriptions stay, whatever programs do. -/
theorem kept_subscribed (t : SlotId) (w : WatcherId) :
    Program.Kept (fun u : World K (Scene K S) =>
      w ∈ u.store.subscribers t ∧ w < u.store.watchers.size) (fun _ _ _ => True) fun _ => True where
  subscribe u slot w' h := by
    refine ⟨?_, h.2⟩
    dsimp only
    rw [Store.subscribers_subscribe]
    split
    · exact List.mem_append_left _ h.1
    · exact h.1
  count _ _ h := ⟨h.1, Nat.lt_of_lt_of_eq h.2 Array.size_modify.symm⟩
  collecting _ _ h := h
  depth _ _ h := h
  newSlot u v h := ⟨(u.store.subscribers_newSlot v t).symm ▸ h.1, h.2⟩
  newMapping _ _ h := h
  scene _ _ _ h := h
  remember _ _ _ h := ⟨h.1, Nat.lt_of_lt_of_eq h.2 Array.size_modify.symm⟩
  newWatcher _ _ _ _ _ h :=
    ⟨h.1, Nat.lt_of_lt_of_eq (Nat.lt_succ_of_lt h.2) (Array.size_push _).symm⟩
  note _ _ h := h
  install u m key v _ _ h := ⟨(u.store.subscribers_newSlot v t).symm ▸ h.1, h.2⟩
  write u m key v slot _ hslot h := by
    have hassign : (if v.isMapping then u.store.install m key v else u.store).write slot v =
        u.store.assign m key v := by
      rw [Store.assign, hslot]
    dsimp only
    rw [hassign, Store.subscribers_assign, Store.watchers_assign]
    exact h

/-- A subscriber is heeded. -/
theorem heeds_of_mem (hreact : ∀ label v, (react label v).Silent) {u : World K (Scene K S)}
    {t : SlotId} {w : WatcherId} (hcollecting : u.store.collecting = [])
    (hroom : u.store.depth < u.store.limit) (hmem : w ∈ u.store.subscribers t)
    (hw : w < u.store.watchers.size) : Heeds react t w u := by
  intro m key v hslot
  obtain ⟨front, rest, hsubscribers, hnot⟩ := List.eq_append_cons_of_mem hmem
  refine ⟨front, rest, hsubscribers, hnot, fun hfront => ?_⟩
  rw [Effect.set_assign_of_some react hslot]
  have hlt := @Effect.evaluations_lt_of_notify _ _ react hreact
    { u with store := u.store.assign m key v }
    ((u.store.collecting_assign m key v).trans hcollecting)
    (Store.depth_lt_of_activity (u.store.activity_assign m key v) hroom) t front rest w
    ((u.store.subscribers_assign m key v t).trans hsubscribers)
    ((u.store.watchers_assign m key v).symm ▸ hw) hfront
  rw [Store.evaluations, Store.watchers_assign] at hlt
  exact hlt

/-- A new watcher is heeded at every slot on the way of its expression, whatever
    happens before the write. -/
theorem heeds_of_watch (hreact : ∀ label v, (react label v).Silent) {u u₁ : World K (Scene K S)}
    (hgrounded : u.store.Grounded) {root : MappingId} {expression : String} {label : K}
    {w : WatcherId} (hwatch : Effect.watch root expression label u = (.ok w, u₁)) {t : SlotId}
    (ht : t ∈ (u.store.resolve root expression).1) (callback : K → Value → Program K S)
    (depth : Nat) (p : Program K S)
    (hcollecting : (p.run (reactions callback depth) u₁).2.store.collecting = [])
    (hroom : (p.run (reactions callback depth) u₁).2.store.depth <
      (p.run (reactions callback depth) u₁).2.store.limit) :
    Heeds react t w (p.run (reactions callback depth) u₁).2 := by
  have hsubscribed : w ∈ u₁.store.subscribers t ∧ w < u₁.store.watchers.size := by
    cases hresolve : (u.store.resolve root expression).2 with
    | error e =>
      rw [Effect.watch_of_error hresolve] at hwatch
      cases hwatch
    | ok v =>
      rw [Effect.watch_of_ok hresolve] at hwatch
      cases hwatch
      constructor
      · rw [Store.subscribers_watched _ _ _ _ _ (hgrounded.lt_size_of_mem_resolve ht)]
        exact List.mem_append_right _
          (List.mem_replicate.2 ⟨Nat.pos_iff_ne_zero.1 (List.count_pos_iff.2 ht), rfl⟩)
      · rw [Store.size_watchers_watched]
        exact Nat.lt_succ_self _
  have hkept := kept_subscribed (S := S) (K := K) t w
  obtain ⟨hmem, hw⟩ := ((hkept.operable (hkept.reactions (fun label v =>
    allowed_all _ (callback label v)) depth)).run p (allowed_all _ p)) u₁ hsubscribed
  exact heeds_of_mem hreact hcollecting hroom hmem hw

/-! ## The replacement of a mapping -/

variable {callback : K → Value → Program K S}
  (hcallback : ∀ label v, (callback label v).OnlyReads)

include hcallback

/-- **A mapping that is put under a present key** gets a slot of its own, and the
    subscribers of the old slot are updated, in order, once for every
    subscription, where the new mapping is.  Whatever plain data is then written
    under the key or below it, they are not evaluated any more, while new
    watchers are heeded. -/
theorem mapping_replaced (depth : Nat) {u : World K (Scene K S)} (hgrounded : u.store.Grounded)
    (hcollecting : u.store.collecting = []) (hroom : u.store.depth < u.store.limit)
    {o : MappingId} {k : String} {i : SlotId} (hslot : u.store.slot? o k = some i)
    (members : List (String × Json)) :
    let react := reactions callback (depth + 1)
    let observed := u.store.observe (.object members)
    let installed := observed.2.assign o k observed.1
    let after := Effect.set react o k observed.1 { u with store := observed.2 }
    (∃ i', u.store.holding? (.slot i') = none ∧ installed.Installed o k i' (.object members) ∧
      after.2.store.Installed o k i' (.object members)) ∧
    (∃ s', after.1 ≠ .error .exhausted ∧
      installed.Passed (u.store.subscribers i) { installed with depth := installed.depth + 1 }
        after.1 s' ∧ after.2.store = { s' with depth := s'.depth - 1 }) ∧
    ∀ u', Rewritten react o k after.2 u' →
      (∀ w ∈ u.store.subscribers i, u'.store.evaluations w = after.2.store.evaluations w) ∧
      ∀ root expression label w u₁, Effect.watch root expression label u' = (.ok w, u₁) →
        ∀ t ∈ (u'.store.resolve root expression).1,
        ∀ (other : K → Value → Program K S) (depth' : Nat) (p : Program K S)
          (u₂ : World K (Scene K S)),
          u₂ = (p.run (reactions other depth') u₁).2 → u₂.store.collecting = [] →
          u₂.store.depth < u₂.store.limit → Heeds react t w u₂ := by
  intro react observed installed after
  have hreact : ∀ label v, (react label v).Silent := silent_reactions hcallback depth
  have hobserve : u.store.After [] observed.2 := .observe _ _
  have hsubscribers (t : SlotId) : installed.subscribers t = u.store.subscribers t :=
    (observed.2.subscribers_assign o k observed.1 t).trans (hobserve.subscribers t)
  have hquiet : installed.collecting = [] :=
    (observed.2.collecting_assign o k observed.1).trans (hobserve.collecting hcollecting)
  have hroom' : installed.depth < installed.limit := Store.depth_lt_of_activity
    ((observed.2.activity_assign o k observed.1).trans hobserve.activity) hroom
  have hset : after = Effect.notify react i { u with store := installed } :=
    Effect.set_assign_of_some react (hobserve.data.slot? hslot)
  -- only watchers that are not there yet will be subscribed to the new mapping
  obtain ⟨cells, hrenewed⟩ :=
    Store.renewed_replace hslot (hgrounded.slots o k i hslot) members u.store.watchers.size
  have hnone : u.store.holding? (.slot observed.2.slots.size) = none :=
    hobserve.data.eq_none (Store.not_holding_slot _)
  have hinstalled : installed.subscribers observed.2.slots.size = [] :=
    (hsubscribers _).trans (Store.subscribers_of_not_holding _ hnone)
  obtain ⟨done, -, hafter⟩ :=
    @Effect.notify_after _ _ react hreact { u with store := installed } hquiet i
  obtain ⟨s', hends, hpassed, hstore⟩ :=
    @Effect.notify_passed _ _ react hreact { u with store := installed } hquiet hroom' i
  rw [← hset] at hafter hends hpassed hstore
  have hrenewed' : after.2.store.Renewed o k u.store.watchers.size observed.2.slots.size
      (.object members) cells :=
    hrenewed.of_extends hafter.data fun t w hw => .inl (hafter.subscribers t ▸ hw)
  have horphaned : Orphaned o k u.store.watchers.size after.2.store.evaluations after.2.store := by
    refine ⟨hafter.collecting hquiet, hafter.grounded ?_, ?_, fun _ _ => rfl, _, _, _, hrenewed'⟩
    · exact (hobserve.grounded hgrounded).assign o k observed.1
    · rw [hafter.size]
      exact Nat.le_of_eq (hobserve.size.symm.trans
        (congrArg Array.size (observed.2.watchers_assign o k observed.1)).symm)
  refine ⟨⟨_, hnone, hrenewed.installed hinstalled,
    hrenewed'.installed ((hafter.subscribers _).trans hinstalled)⟩,
    ⟨s', hends, hsubscribers i ▸ hpassed, hstore⟩, fun u' hrewritten => ?_⟩
  have horphaned' := hrewritten.orphaned hreact horphaned
  refine ⟨fun w hw => horphaned'.evaluations w (hgrounded.watchers i w hw), ?_⟩
  rintro root expression label w u₁ hwatch t ht other depth' p _ rfl hcollecting' hroom'
  exact heeds_of_watch hreact horphaned'.grounded hwatch ht other depth' p hcollecting' hroom'

omit hcallback

/-- A user with a name. -/
def user (name : String) : Json := .object [("name", .string name)]

/-- A world in which the name of a user is watched, by a watcher held as `w`. -/
def watchedName : World Bool (Scene Bool Unit) where
  store := (Store.empty.observe (.object [("user", user "A")])).2.watched 1 "user.name" false
    (.string "A")
  stage := ⟨(), [("w", 0)], []⟩

/-- The user is replaced: the watcher sees the new name, and no later one. -/
theorem mapping_replaced_of_watchedName :
    let react := reactions (fun _ _ => .done (.ok ()) : Bool → Value → Program Bool Unit) 1
    let observed := watchedName.store.observe (user "B")
    let after := Effect.set react 1 "user" observed.1 { watchedName with store := observed.2 }
    (∃ i, after.2.store.Installed 1 "user" i (user "B")) ∧ after.2.store.evaluations 0 = 2 ∧
      ∀ w : PathWrite, w.path.headD w.key = "user" →
        (w.perform react 1 after.2).2.store.evaluations 0 = 2 := by
  intro react observed after
  have hgrounded : watchedName.store.Grounded :=
    (Store.Grounded.empty.observe _).watched 1 "user.name" false (.string "A")
  have honlyReads : ∀ label v, ((fun _ _ => .done (.ok ()) :
      Bool → Value → Program Bool Unit) label v).OnlyReads := fun _ _ => trivial
  obtain ⟨⟨i, -, -, hinstalled⟩, -, hlater⟩ := mapping_replaced honlyReads 0 hgrounded
    (by decide +kernel) (by decide +kernel)
    (show watchedName.store.slot? 1 "user" = some 1 by decide +kernel)
    [("name", .string "B")]
  have htwice : after.2.store.evaluations 0 = 2 := by decide +kernel
  refine ⟨⟨i, hinstalled⟩, htwice, fun w hw => ?_⟩
  exact ((hlater _ (.write .start hw)).1 0 (by decide +kernel)).trans htwice

/-- A callback that writes nothing and collects nothing, and updates the watcher
    held as `w` for one of the labels. -/
def updating (label : Bool) (_ : Value) : Program Bool Unit :=
  if label then .update "w" fun _ => .done (.ok ()) else .done (.ok ())

/-- A callback of a new watcher updates a watcher that nothing notifies any more,
    when a name below the new mapping is written. -/
theorem orphan_is_updated :
    let react := reactions updating 2
    let observed := watchedName.store.observe (user "B")
    let after := Effect.set react 1 "user" observed.1 { watchedName with store := observed.2 }
    let watched := (Effect.watch 1 "user.name" true after.2).2
    let w : PathWrite := ⟨["user"], "name", .string "C"⟩
    (∀ label v, (updating label v).WritesNothing) ∧ watchedName.store.collecting = [] ∧
      watchedName.store.depth < watchedName.store.limit ∧
      watchedName.store.slot? 1 "user" = some 1 ∧ watchedName.store.subscribers 1 = [0] ∧
      Rewritten react 1 "user" after.2 (w.perform react 1 watched).2 ∧
      after.2.store.evaluations 0 = 2 ∧ (w.perform react 1 watched).2.store.evaluations 0 = 3 := by
  intro react observed after watched w
  have hupdating : ∀ label v, (updating label v).WritesNothing := by
    rintro (_ | _) v
    · trivial
    · exact fun _ => trivial
  refine ⟨hupdating, by decide +kernel, by decide +kernel, by decide +kernel, by decide +kernel,
    .write (.watch .start 1 "user.name" true) rfl, by decide +kernel, by decide +kernel⟩

end Program

end DataBinding
