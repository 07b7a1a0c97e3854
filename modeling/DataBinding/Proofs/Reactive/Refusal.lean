/-
  What a watcher that could not be made leaves behind.

  A watcher is subscribed segment by segment while its expression is resolved,
  and nothing takes the subscriptions back when the expression does not resolve.
  So a new watcher that is refused stays at the end of the dependency set of
  every slot that was read before the failure, and of no other.

  * `Beside.run`: a program does the same with such a watcher as without it, as
    long as it notifies none of the slots that the watcher has read;
  * `Effect.watch_refused`: what a refused watcher leaves behind, and that every
    later program does the same as if it had never been asked for, until it
    notifies one of those slots.
-/
import DataBinding.Proofs.Reactive.Invariants
import DataBinding.Proofs.Reactive.Shadow
import DataBinding.Proofs.Reactive.Watching

namespace DataBinding

open Effect (Preserves Mimics)

variable {K S α : Type}

namespace Keyed

theorem get?_map {α β : Type} (f : α → β) (key : String) : ∀ entries : Keyed α,
    get? (entries.map fun entry => (entry.1, f entry.2)) key = (get? entries key).map f
  | [] => rfl
  | (k, a) :: rest => by
    simp only [List.map_cons, get?]
    split
    · rfl
    · exact get?_map f key rest

theorem put_map {α β : Type} (f : α → β) (key : String) (a : α) : ∀ entries : Keyed α,
    put (entries.map fun entry => (entry.1, f entry.2)) key (f a) =
      (put entries key a).map fun entry => (entry.1, f entry.2)
  | [] => rfl
  | (k, b) :: rest => by
    simp only [List.map_cons, put]
    split
    · rfl
    · rw [List.map_cons, put_map f key a rest]

end Keyed

/-- Worlds that are the same but for an additional watcher, which nobody holds. -/
structure Beside (w : Nat) (extra : Watcher K) (read : List SlotId)
    (u u' : World K (Scene K S)) : Prop where
  /-- The data are the same but for the watcher. -/
  store : u.store.Shadowed w extra read u'.store
  /-- Programs have the same state. -/
  state : u'.stage.state = u.stage.state
  /-- The same watchers are held. -/
  held : u'.stage.held = u.stage.held.map fun entry => (entry.1, shift w entry.2)
  /-- The same was noted. -/
  log : u'.stage.log = u.stage.log

/-- One of these slots was notified. -/
def Notified (read : List SlotId) (u : World K (Scene K S)) : Prop :=
  ∃ i ∈ read, Entry.notified i ∈ u.stage.log

theorem Notified.setStore {read : List SlotId} {u : World K (Scene K S)} (h : Notified read u)
    (s : Store K) : Notified read { u with store := s } := h

/-- What was notified stays so. -/
theorem kept_notified (read : List SlotId) :
    Program.Kept (Notified (K := K) (S := S) read) (fun _ _ _ => True) fun _ => True where
  subscribe _ _ _ h := h
  count _ _ h := h
  remember _ _ _ h := h
  collecting _ _ h := h
  depth _ _ h := h
  newSlot _ _ h := h
  newMapping _ _ h := h
  newWatcher _ _ _ _ _ h := h
  scene _ _ _ h := h
  note _ e h := by
    obtain ⟨i, hi, hlog⟩ := h
    exact ⟨i, hi, List.mem_cons_of_mem e hlog⟩
  install _ _ _ _ _ _ h := h
  write _ _ _ _ _ _ _ h := h

namespace Beside

variable {w : Nat} {extra : Watcher K} {read : List SlotId}

/-- Two effects that do the same in worlds beside each other, until a slot is
    notified that the additional watcher has read. -/
abbrev Same {β : Type} (w : Nat) (extra : Watcher K) (read : List SlotId) (g : α → β)
    (a : Program.Run K S α) (a' : Program.Run K S β) : Prop :=
  Mimics (Notified read) (Beside w extra read) g a a'

theorem setStore {u u' : World K (Scene K S)} (h : Beside w extra read u u') {s s' : Store K}
    (hs : s.Shadowed w extra read s') : Beside w extra read { u with store := s } { u' with store := s' } :=
  { h with store := hs }

theorem setLog {u u' : World K (Scene K S)} (h : Beside w extra read u u') (e : Entry K) :
    Beside w extra read { u with stage.log := e :: u.stage.log }
      { u' with stage.log := e :: u'.stage.log } :=
  { h with log := congrArg (e :: ·) h.log }

theorem note (e : Entry K) :
    Same (S := S) w extra read id (Program.note e) (Program.note e) :=
  Mimics.modifyStage (fun u hu => (kept_notified read).note u e hu) fun _ _ h => h.setLog e

theorem get? (m : MappingId) (key : String) :
    Same (S := S) w extra read id (Effect.get? m key) (Effect.get? m key) := by
  refine ⟨(kept_notified read).get? m key, fun u u' h => .inr ?_⟩
  unfold Effect.get? Effect.onStore
  dsimp only
  rw [h.store.slot? m key]
  cases u.store.slot? m key with
  | none => exact ⟨rfl, h⟩
  | some slot =>
    refine ⟨?_, h.setStore (h.store.track slot)⟩
    dsimp only [Except.map, id]
    rw [h.store.values]

theorem getPath (root : MappingId) (expression : String) :
    Same (S := S) w extra read id (Effect.getPath root expression)
      (Effect.getPath root expression) :=
  Mimics.reading (fun _ h => h.setStore _) fun _ _ h =>
    ⟨(h.store.evaluate root expression).1, h.setStore (h.store.evaluate root expression).2⟩

theorem content (root : MappingId) (text : String) :
    Same (S := S) w extra read id (Effect.content root text)
      (Effect.content root text) :=
  Mimics.reading (fun _ h => h.setStore _) fun _ _ h =>
    ⟨(h.store.fill root text).1, h.setStore (h.store.fill root text).2⟩

theorem updated (v : Nat) (f : Watcher K → Watcher K) :
    Same (S := S) w extra read id (Effect.modifyStore fun s => s.updateWatcher v f)
      (Effect.modifyStore fun s => s.updateWatcher (shift w v) f) :=
  Mimics.modifyStore (fun _ h => h.setStore _) fun _ _ h => h.setStore (h.store.updateWatcher v f)

theorem evaluate (v : Nat) (watcher : Watcher K) :
    Same (S := S) w extra read id (Effect.evaluate v watcher)
      (Effect.evaluate (shift w v) watcher) :=
  (updated v _).bind fun _ => getPath watcher.root watcher.expression

theorem collecting (v : Nat) {body body' : Program.Run K S α}
    (hbody : Same (S := S) w extra read id body body') :
    Same (S := S) w extra read id (Effect.collecting v body) (Effect.collecting (shift w v) body') := by
  refine Mimics.within (fun _ h => h) (fun _ h => h) (fun u u' h => ?_) (fun u u' h => ?_) hbody
  · exact h.setStore (h.store.setCollecting (congrArg (shift w v :: ·) h.store.collecting))
  · refine h.setStore (h.store.setCollecting ?_)
    rw [h.store.collecting, List.map_tail]

theorem watch (root : MappingId) (expression : String) (label : K) :
    Same (S := S) w extra read (shift w) (Effect.watch root expression label)
      (Effect.watch root expression label) := by
  refine Mimics.bind (g := shift w) ?_ fun v => ?_
  · exact Mimics.onStore (fun _ h => h.setStore _) fun _ _ h =>
      ⟨(h.store.newWatcher root expression label).1,
        h.setStore (h.store.newWatcher root expression label).2⟩
  · exact (collecting v (evaluate v _)).bind fun x => (updated v _).bind fun _ => Mimics.pure _ v

section

variable {react : K → Value → Program.Run K S Unit}
  (hreact : ∀ label v, Same (S := S) w extra read id (react label v) (react label v))

include hreact

theorem updateWatcher (v : Nat) :
    Same w extra read id (Effect.updateWatcher react v)
      (Effect.updateWatcher react (shift w v)) := by
  refine ⟨(kept_notified read).toKept.updateWatcher (fun l x => (hreact l x).stays) v, fun u u' h => ?_⟩
  have hsame := h.store.watchers v
  cases hv : u.store.watchers[v]? with
  | none =>
    rw [Effect.updateWatcher_of_none react hv, Effect.updateWatcher_of_none react (hsame.trans hv)]
    exact .inr ⟨rfl, h⟩
  | some watcher =>
    rw [Effect.updateWatcher_of_some react hv, Effect.updateWatcher_of_some react (hsame.trans hv)]
    refine ((evaluate v watcher).bind fun x => ?_).follows u u' h
    dsimp only [id]
    split
    · exact Mimics.pure id ()
    · exact (hreact watcher.reaction x).bind fun _ => updated v _

/-- A pass over a dependency set that the additional watcher is not in. -/
theorem notify {i : SlotId} (hi : i ∉ read) :
    Same w extra read id (Effect.notify react i) (Effect.notify react i) := by
  refine ⟨(kept_notified read).toKept.notify (fun l x => (hreact l x).stays) i, fun u u' h => ?_⟩
  have hsubs := h.store.subscribers hi
  by_cases hnil : u.store.subscribers i = []
  · have hnil' : u'.store.subscribers i = [] := by rw [hsubs, hnil, List.map_nil]
    rw [Effect.notify_of_nil react hnil, Effect.notify_of_nil react hnil']
    exact .inr ⟨rfl, h⟩
  have hnil' : u'.store.subscribers i ≠ [] := by
    rw [hsubs]
    exact mt List.map_eq_nil_iff.1 hnil
  have hlimit := h.store.limit
  have hdepth := h.store.depth
  by_cases hle : u.store.depth + 1 ≤ u.store.limit
  · rw [Effect.notify_of_le react hnil hle, Effect.notify_of_le react hnil' (by omega), hsubs]
    refine (Mimics.within (fun _ hu => hu) (fun _ hu => hu) (fun _ _ hu => ?_) (fun _ _ hu => ?_)
      (Mimics.each (g := shift w) (updateWatcher hreact) _)).follows u u' h
    · rw [hu.store.depth]
      exact hu.setStore (hu.store.setDepth _)
    · rw [hu.store.depth]
      exact hu.setStore (hu.store.setDepth _)
  · rw [Effect.notify_of_lt react hnil (by omega), Effect.notify_of_lt react hnil' (by omega),
      hlimit]
    exact .inr ⟨rfl, h⟩

/-- A pass over the dependency set of a slot that is noted. -/
theorem noted {u u' : World K (Scene K S)} (h : Beside w extra read u u') (i : SlotId)
    (hlog : Entry.notified i ∈ u.stage.log) :
    Notified read (Effect.notify react i u).2 ∨
      (Effect.notify react i u').1 = (Effect.notify react i u).1.map id ∧
        Beside w extra read (Effect.notify react i u).2 (Effect.notify react i u').2 := by
  by_cases hi : i ∈ read
  · exact .inl ((kept_notified read).toKept.notify (fun l x => (hreact l x).stays) i u ⟨i, hi, hlog⟩)
  · exact (notify hreact hi).follows u u' h

theorem write (m : MappingId) (key : String) (v : Value) :
    Same w extra read id (Program.write react m key v) (Program.write react m key v) := by
  refine ⟨(kept_notified read).writing (fun l x => (hreact l x).stays) trivial, fun u u' h => ?_⟩
  have hslot' := h.store.slot? m key
  cases hslot : u.store.slot? m key with
  | none =>
    rw [Program.write_of_none react hslot, Program.write_of_none react (hslot'.trans hslot)]
    exact .inr ⟨rfl, h.setStore (h.store.install m key v)⟩
  | some i =>
    rw [Program.write_of_some react hslot, Program.write_of_some react (hslot'.trans hslot)]
    have hstore : ((if v.isMapping then u.store.install m key v else u.store).write i v).Shadowed
        w extra read ((if v.isMapping then u'.store.install m key v else u'.store).write i v) := by
      split
      · exact (h.store.install m key v).write i v
      · exact h.store.write i v
    rcases noted hreact ((h.setStore hstore).setLog (.notified i)) i List.mem_cons_self with
      hbad | ⟨hresult, hrel⟩
    · exact .inl ((kept_notified read).note _ _ hbad)
    · refine .inr ⟨hresult, { hrel with log := ?_ }⟩
      rw [Except.map_id] at hresult
      exact congrArg₂ (fun result log => Entry.ended i result :: log) hresult hrel.log

theorem writePath (root : MappingId) (expression : String) (v : Value) :
    Same w extra read id (Program.writePath react root expression v)
      (Program.writePath react root expression v) := by
  refine ⟨((kept_notified read).operable fun l x => (hreact l x).stays).writePath
    fun _ _ _ _ _ => trivial, fun u u' h => ?_⟩
  have htarget' := h.store.target root expression
  have htrack := h.setStore (Store.Shadowed.trackAll (u.store.target root expression).1 h.store)
  cases htarget : (u.store.target root expression).2 with
  | error e =>
    have he : (u'.store.target root expression).2 = .error e := by rw [htarget', htarget]
    rw [Program.writePath_of_error react htarget, Program.writePath_of_error react he, htarget']
    exact .inr ⟨rfl, htrack⟩
  | ok target =>
    have hok : (u'.store.target root expression).2 = .ok (target.1, target.2) := by
      rw [htarget', htarget]
    rw [Program.writePath_of_ok react htarget, Program.writePath_of_ok react hok, htarget']
    exact (write hreact target.1 target.2 v).follows _ _ htrack

theorem notifying (m : MappingId) (key : String) :
    Same w extra read id (Program.notifying react m key) (Program.notifying react m key) := by
  refine ⟨(kept_notified read).notifying (fun l x => (hreact l x).stays) m key, fun u u' h => ?_⟩
  have hslot' := h.store.slot? m key
  cases hslot : u.store.slot? m key with
  | none =>
    rw [Program.notifying_of_none react hslot, Program.notifying_of_none react (hslot'.trans hslot)]
    exact .inr ⟨rfl, h⟩
  | some i =>
    rw [Program.notifying_of_some react hslot, Program.notifying_of_some react (hslot'.trans hslot)]
    exact noted hreact (h.setLog (.notified i)) i List.mem_cons_self

end

theorem holder (name : String) :
    Same (S := S) w extra read (Option.map (shift w)) (Program.holder name)
      (Program.holder name) := by
  refine ⟨Preserves.stage.bind fun _ => Preserves.pure _, fun u u' h => .inr ⟨?_, h⟩⟩
  refine congrArg Except.ok ?_
  rw [h.held, Keyed.get?_map]

theorem withHeld (name : String) {body body' : WatcherId → Program.Run K S Unit}
    (hbody : ∀ v, Same w extra read id (body v) (body' (shift w v))) :
    Same w extra read id (Program.withHeld name body) (Program.withHeld name body') := by
  refine (holder name).bind fun v => ?_
  cases v with
  | none => exact Mimics.fail id _
  | some v => exact hbody v

theorem watching (root : MappingId) (expression : String) (label : K) (name : String) :
    Same (S := S) w extra read id (Program.watching root expression label name)
      (Program.watching root expression label name) := by
  refine (watch root expression label).bind fun v => ?_
  refine Mimics.modifyStage (fun _ h => h) fun u u' h => { h with held := ?_ }
  rw [h.held]
  exact Keyed.put_map (shift w) name v u.stage.held

theorem sight (name : String) :
    Same (S := S) w extra read id (Program.sight name) (Program.sight name) := by
  refine ⟨Program.preserves_sight name, fun u u' h => .inr ⟨?_, h⟩⟩
  refine congrArg Except.ok ?_
  rw [h.held, Keyed.get?_map, id]
  cases Keyed.get? u.stage.held name with
  | none => rfl
  | some v => exact congrArg (Option.map _) (h.store.watchers v)

section

variable {react : K → Value → Program.Run K S Unit}
  (hreact : ∀ label v, Same w extra read id (react label v) (react label v))

include hreact

/-- **A program does the same beside an additional watcher**, until a slot is
    notified that the watcher has read. -/
theorem run : ∀ p : Program K S, Same w extra read id (p.run react) (p.run react)
  | .done (.ok ()) => Mimics.pure id ()
  | .done (.error f) => Mimics.fail id f
  | .alter change next => by
    refine Mimics.bind (g := id) ?_ fun _ => ?_
    · exact Mimics.modifyStage (fun _ h => h) fun _ _ h =>
        { h with state := congrArg change h.state }
    · refine ⟨Preserves.stage.bind fun s => (run (next s.state)).stays, fun u u' h => ?_⟩
      have hrun := (run (next u.stage.state)).follows u u' h
      rw [Effect.bind_apply, Effect.bind_apply]
      dsimp only [Effect.stage]
      rwa [h.state]
  | .observe j next => by
    refine Mimics.bind (g := id) ?_ fun v => run (next v)
    exact Mimics.onStore (fun u hu => (kept_notified read).observe j u hu) fun _ _ h =>
      ⟨(h.store.observe j).1, h.setStore (h.store.observe j).2⟩
  | .get m key next => (get? m key).bind fun v => run (next v)
  | .getPath root expression next => (getPath root expression).attempt.bind fun v => run (next v)
  | .content root text next => (content root text).attempt.bind fun t => run (next t)
  | .set m key v next => (write hreact m key v).attempt.bind fun r => run (next r)
  | .setPath root expression v next =>
    (writePath hreact root expression v).attempt.bind fun r => run (next r)
  | .notify m key next => (notifying hreact m key).attempt.bind fun r => run (next r)
  | .watch root expression label name next =>
    (watching root expression label name).attempt.bind fun r => run (next r)
  | .update name next =>
    (withHeld name (updateWatcher hreact)).attempt.bind fun r => run (next r)
  | .collect name body next =>
    (withHeld name fun v => collecting v (run body)).attempt.bind fun r => run (next r)
  | .seen name next => (sight name).bind fun r => run (next r)

end

/-- Callbacks do the same, however deep they may be nested. -/
theorem reactions (callback : K → Value → Program K S) :
    ∀ depth label v, Same w extra read id (Program.reactions callback depth label v)
      (Program.reactions callback depth label v)
  | 0, _, _ => Mimics.exhausted id
  | depth + 1, label, v => by
    refine (note _).bind fun _ => (run (reactions callback depth) _).bind fun _ => ?_
    refine ⟨Preserves.store.bind fun _ => (kept_notified read).noteEntry _,
      fun u u' h => .inr ⟨rfl, ?_⟩⟩
    have hvalues : u'.store.valueAt = u.store.valueAt := funext h.store.values
    refine { h with log := ?_ }
    exact congrArg₂ (fun values log => Entry.returned label v values :: log) hvalues h.log

end Beside

/-! ## Refused watchers -/

/-- Only watchers that are there are subscribed, collect and are held. -/
structure World.Closed (u : World K (Scene K S)) : Prop where
  /-- Subscribers are there. -/
  subscribers : ∀ i, ∀ v ∈ u.store.subscribers i, v < u.store.watchers.size
  /-- The watchers that collect are there. -/
  collecting : ∀ v ∈ u.store.collecting, v < u.store.watchers.size
  /-- The watchers that are held are there. -/
  held : ∀ entry ∈ u.stage.held, entry.2 < u.store.watchers.size

/-- A watcher that was refused differs from nothing but by its subscriptions. -/
theorem Store.shadowed_watched {s : Store K} (root : MappingId) (expression : String) (label : K)
    (hclosed : ∀ i, ∀ v ∈ s.subscribers i, v < s.watchers.size)
    (hcollecting : ∀ v ∈ s.collecting, v < s.watchers.size) :
    s.Shadowed s.watchers.size ⟨root, expression, label, .null, 1⟩ (s.resolve root expression).1
      (s.watched root expression label .null) where
  mappings := mappings_watched s root expression label .null
  size := size_slots_watched s root expression label .null
  values := valueAt_watched s root expression label .null
  others i := by
    rw [map_shift_of_lt (hclosed i)]
    by_cases hi : i < s.slots.size
    · rw [subscribers_watched s root expression label .null hi, List.filter_append,
        List.filter_eq_self.2, List.filter_eq_nil_iff.2, List.append_nil]
      · intro v hv
        rw [List.eq_of_mem_replicate hv]
        simp
      · intro v hv
        exact decide_eq_true (Nat.ne_of_lt (hclosed i v hv))
    · have hsize := size_slots_watched s root expression label .null
      rw [subscribers_of_size_le s (Nat.not_lt.1 hi),
        subscribers_of_size_le _ (hsize ▸ Nat.not_lt.1 hi)]
      rfl
  unread i hi := by
    by_cases hsize : i < s.slots.size
    · rw [subscribers_watched s root expression label .null hsize, List.count_eq_zero.2 hi,
        List.replicate_zero, List.append_nil]
      exact fun hw => Nat.lt_irrefl _ (hclosed i _ hw)
    · have hsize' := size_slots_watched s root expression label .null
      rw [subscribers_of_size_le _ (hsize' ▸ Nat.not_lt.1 hsize)]
      exact List.not_mem_nil
  bound := Nat.le_refl _
  count := Array.size_push _
  watchers v := by
    show (s.watchers.push _)[shift s.watchers.size v]? = _
    rw [Array.getElem?_push]
    rcases Nat.lt_or_ge v s.watchers.size with hv | hv
    · rw [shift_of_lt hv, if_neg (Nat.ne_of_lt hv)]
    · rw [shift_of_le hv, if_neg (by omega), Array.getElem?_eq_none (by omega),
        Array.getElem?_eq_none hv]
  extra := by
    show (s.watchers.push _)[s.watchers.size]? = _
    rw [Array.getElem?_push, if_pos rfl]
  collecting := (map_shift_of_lt hcollecting).symm
  depth := depth_watched s root expression label .null
  limit := limit_watched s root expression label .null

/-- **A new watcher that is refused leaves its subscriptions and nothing else.**
    The data, the other watchers, and what collects and is open are as before;
    the refused watcher is at the end of the dependency set of each slot that was
    read before the failure, once for each time it was read.  Every later
    program, whatever callbacks it sets off, answers the same, notes the same
    calls and writes, and leaves the same data and watchers with the same
    evaluations as if the watcher had never been asked for, unless it notifies
    one of those slots. -/
theorem Effect.watch_refused (callback : K → Value → Program K S) {u u' : World K (Scene K S)}
    (hclosed : u.Closed) {root : MappingId} {expression : String} {label : K} {stop : Stop}
    (h : watch root expression label u = (.error stop, u')) :
    let read := (u.store.resolve root expression).1
    let w := u.store.watchers.size
    let refused : Watcher K := ⟨root, expression, label, .null, 1⟩
    u'.stage = u.stage ∧
      u'.store = { u.store with slots := u'.store.slots, watchers := u.store.watchers.push refused } ∧
      (∀ i, u'.store.valueAt i = u.store.valueAt i) ∧
      (∀ i < u.store.slots.size,
        u'.store.subscribers i = u.store.subscribers i ++ List.replicate (read.count i) w) ∧
      ∀ depth (p : Program K S),
        let after := p.run (Program.reactions callback depth) u
        let after' := p.run (Program.reactions callback depth) u'
        ¬ Notified read after.2 → after'.1 = after.1 ∧ Beside w refused read after.2 after'.2 := by
  cases hresolve : (u.store.resolve root expression).2 with
  | ok v =>
    rw [watch_of_ok hresolve] at h
    cases h
  | error e =>
    rw [watch_of_error hresolve] at h
    obtain ⟨-, rfl⟩ := Prod.mk.inj h
    refine ⟨rfl, ?_, Store.valueAt_watched _ _ _ _ _,
      fun i hi => Store.subscribers_watched _ _ _ _ _ hi, ?_⟩
    · dsimp only
      unfold Store.watched
      rw [Store.trackAll_eq]
      rfl
    · intro depth p after after' hquiet
      have hheld : u.stage.held =
          u.stage.held.map fun entry => (entry.1, shift u.store.watchers.size entry.2) := by
        refine ((List.map_congr_left fun entry hentry => ?_).trans (List.map_id' _)).symm
        rw [shift_of_lt (hclosed.held entry hentry)]
      have hbeside : Beside u.store.watchers.size ⟨root, expression, label, .null, 1⟩
          (u.store.resolve root expression).1 u
          { u with store := u.store.watched root expression label .null } :=
        ⟨Store.shadowed_watched root expression label hclosed.subscribers hclosed.collecting, rfl,
          hheld, rfl⟩
      rcases (Beside.run (Beside.reactions callback depth) p).follows _ _ hbeside with hbad | hsame
      · exact absurd hbad hquiet
      · exact ⟨hsame.1.trans (congrFun Except.map_id _), hsame.2⟩

/-- An empty mapping under the key `user`, which nothing watches. -/
def emptyUser : World Unit (Scene Unit Unit) :=
  ⟨(Store.empty.observeMapping (.object [("user", .object [])])).2, ⟨(), [], []⟩⟩

theorem closed_emptyUser : emptyUser.Closed := by
  refine ⟨fun i v hv => ?_, fun v hv => ?_, fun entry hentry => ?_⟩
  · have hi : i < 1 := Store.lt_size_of_mem_subscribers emptyUser.store hv
    obtain rfl : i = 0 := Nat.lt_one_iff.1 hi
    cases hv
  · cases hv
  · cases hentry

theorem watch_refused_of_emptyUser :
    emptyUser.Closed ∧
      let asked := Effect.watch 1 "user.missing.deep" () emptyUser
      asked.1 = .error (.fault (.path (.missingKey "user.missing.deep" "missing"))) ∧
        asked.2.store.subscribers 0 = [0] ∧
        ∀ (callback : Unit → Value → Program Unit Unit) (depth : Nat) (p : Program Unit Unit),
          ¬ Notified [0] (p.run (Program.reactions callback depth) emptyUser).2 →
          (p.run (Program.reactions callback depth) asked.2).1 =
            (p.run (Program.reactions callback depth) emptyUser).1 := by
  have hresolve : emptyUser.store.resolve 1 "user.missing.deep" =
      ([0], .error (.missingKey "user.missing.deep" "missing")) := by
    unfold Store.resolve
    rfl
  have hwatch : Effect.watch 1 "user.missing.deep" () emptyUser = _ :=
    Effect.watch_of_error (congrArg Prod.snd hresolve)
  refine ⟨closed_emptyUser, congrArg Prod.fst hwatch, ?_, fun callback depth p hquiet => ?_⟩
  · decide +kernel
  · obtain ⟨-, -, -, -, hrun⟩ := Effect.watch_refused callback closed_emptyUser hwatch
    rw [hresolve] at hrun
    rw [hwatch]
    exact (hrun depth p hquiet).1

/-- After a refused watcher of `user.missing.deep`, the slot of `user` has a
    subscriber, and writing null there is refused as well. -/
theorem refused_watch_is_notified :
    let asked := Effect.watch 1 "user.missing.deep" () emptyUser
    let write : Program.Run Unit Unit Unit := Effect.set (fun _ _ => pure ()) 1 "user" .null
    asked.1.isOk = false ∧ emptyUser.store.subscribers 0 = [] ∧ asked.2.store.subscribers 0 = [0] ∧
      (write emptyUser).1.isOk = true ∧ (write asked.2).1.isOk = false := by
  decide +kernel

end DataBinding
