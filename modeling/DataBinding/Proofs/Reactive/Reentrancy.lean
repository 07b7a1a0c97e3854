/-
  What a watcher has seen last when callbacks write in turn.

  A callback may write the very slot that its watcher is subscribed to.  The
  nested pass then updates the watcher before the outer update has remembered
  its own value, so the outer update, which ends last, remembers the older one.

  The call of a callback that returned last is *overtaken* if the slot of its
  watcher held another value by then.

  * `Tracked`: what is known of a watcher while programs run that write nothing
    but values other than mappings; `Tracked.update`, `Tracked.write` and
    `Tracked.reactions` are the step lemmas;
  * `Effect.upToDate_iff_not_overtaken`: after a write that succeeds, a watcher
    is up to date exactly if its last call was not overtaken, or its slot was
    set back.
-/
import DataBinding.Proofs.Reactive.Frame
import DataBinding.Proofs.Reactive.Invariants
import DataBinding.Proofs.Reactive.Watching

namespace DataBinding

open Effect (Preserves Ensures)

variable {K S : Type}

/-- The value that a watcher has seen last is the present value of its
    expression. -/
def Store.UpToDate (s : Store K) (w : WatcherId) : Prop :=
  ∃ watcher v, s.watchers[w]? = some watcher ∧
    (s.resolve watcher.root watcher.expression).2 = .ok v ∧ v.equal watcher.value = true

/-! ## The log -/

/-- Of the calls of a label that returned, the last was given `v`, and returned
    when the slots held `values`. -/
inductive LastReturned (label : K) : List (Entry K) → Value → (SlotId → Value) → Prop
  /-- The latest entry is such a return. -/
  | here {log v values} : LastReturned label (.returned label v values :: log) v values
  /-- The latest entry is something else. -/
  | later {e log v values} (he : ∀ v' values', e ≠ .returned label v' values')
      (h : LastReturned label log v values) : LastReturned label (e :: log) v values

/-- No call of a label returned. -/
def NeverReturned (label : K) (log : List (Entry K)) : Prop :=
  ∀ v values, Entry.returned label v values ∉ log

/-- A write to a slot was refused or stopped. -/
def Refused (slot : SlotId) (log : List (Entry K)) : Prop :=
  ∃ stop, Entry.ended slot (.error stop) ∈ log

theorem LastReturned.unique {label : K} {log : List (Entry K)} {v v' : Value}
    {values values' : SlotId → Value} (h : LastReturned label log v values)
    (h' : LastReturned label log v' values') : v = v' ∧ values = values' := by
  induction h with
  | here =>
    cases h' with
    | here => exact ⟨rfl, rfl⟩
    | later he _ => exact absurd rfl (he _ _)
  | later he _ ih =>
    cases h' with
    | here => exact absurd rfl (he _ _)
    | later _ h' => exact ih h'

theorem LastReturned.mem {label : K} {log : List (Entry K)} {v : Value}
    {values : SlotId → Value} (h : LastReturned label log v values) :
    .returned label v values ∈ log := by
  induction h with
  | here => exact List.mem_cons_self
  | later _ _ ih => exact List.mem_cons_of_mem _ ih

/-! ## One watcher -/

/-- A watcher, the slot that its expression ends at, and the value that it has
    seen at the start. -/
structure Observer (K : Type) where
  /-- The number of the watcher. -/
  number : Nat
  /-- Where its expression starts. -/
  root : MappingId
  /-- Its expression. -/
  expression : String
  /-- Its label. -/
  label : K
  /-- The slot that its expression ends at. -/
  slot : SlotId
  /-- The value that it has seen at the start. -/
  value : Value

/-- The value seen last is that of the call that returned last, and, unless the
    watcher may be stale or a write to its slot was refused, it is the present
    value or that call was overtaken. -/
structure Fits (t : Observer K) (stale : Prop) (log : List (Entry K)) (now seen : Value) : Prop where
  /-- The value is that of the last return. -/
  last : (NeverReturned t.label log ∧ seen = t.value) ∨
    ∃ values, LastReturned t.label log seen values
  /-- The value is the present one, or was overtaken. -/
  fresh : stale ∨ Refused t.slot log ∨ now.equal seen = true ∨
    ∃ values, LastReturned t.label log seen values ∧ (values t.slot).equal seen = false

namespace Fits

variable {t : Observer K} {stale : Prop} {log : List (Entry K)} {now seen : Value}

theorem note (h : Fits t stale log now seen) {e : Entry K}
    (he : ∀ v values, e ≠ .returned t.label v values) : Fits t stale (e :: log) now seen where
  last := by
    rcases h.last with ⟨hnever, hseen⟩ | ⟨values, hlast⟩
    · refine .inl ⟨fun v values hmem => ?_, hseen⟩
      rcases List.mem_cons.1 hmem with heq | hmem
      · exact he v values heq.symm
      · exact hnever v values hmem
    · exact .inr ⟨values, hlast.later he⟩
  fresh := by
    rcases h.fresh with hstale | ⟨stop, hrefused⟩ | hnow | ⟨values, hlast, hover⟩
    · exact .inl hstale
    · exact .inr (.inl ⟨stop, List.mem_cons_of_mem e hrefused⟩)
    · exact .inr (.inr (.inl hnow))
    · exact .inr (.inr (.inr ⟨values, hlast.later he, hover⟩))

/-- A call that returns is overtaken, or its value is the present one. -/
theorem returned (t : Observer K) (log : List (Entry K)) (v : Value) (values : SlotId → Value) :
    Fits t False (.returned t.label v values :: log) (values t.slot) v where
  last := .inr ⟨values, .here⟩
  fresh := by
    cases hnow : (values t.slot).equal v with
    | true => exact .inr (.inr (.inl rfl))
    | false => exact .inr (.inr (.inr ⟨values, .here, hnow⟩))

theorem mono {stale' : Prop} (h : Fits t stale log now seen) (hs : stale → stale') :
    Fits t stale' log now seen :=
  { h with fresh := h.fresh.imp_left hs }

theorem settle (h : Fits t stale log now seen) (hnow : now.equal seen = true) :
    Fits t False log now seen :=
  { h with fresh := .inr (.inr (.inl hnow)) }

end Fits

/-- What is known of a watcher while programs run that write nothing but values
    other than mappings to slots that held none at the start, `s₀`. -/
structure Tracked (s₀ : Store K) (t : Observer K) (stale : Prop) (u : World K (Scene K S)) :
    Prop where
  /-- The mappings of the start are in their places. -/
  framed : s₀.Framed u.store
  /-- No other watcher has the label. -/
  own : ∀ w watcher, u.store.watchers[w]? = some watcher → watcher.reaction = t.label →
    w = t.number
  /-- The watcher is subscribed to the slot of its expression. -/
  subscribed : t.number ∈ u.store.subscribers t.slot
  /-- The watcher has seen what its last call was given. -/
  seen : ∃ v n, u.store.watchers[t.number]? = some ⟨t.root, t.expression, t.label, v, n⟩ ∧
    Fits t stale u.stage.log (u.store.valueAt t.slot) v

namespace Tracked

variable {s₀ : Store K} {t : Observer K} {stale : Prop} {u : World K (Scene K S)}

theorem mono {stale' : Prop} (h : Tracked s₀ t stale u) (hs : stale → stale') :
    Tracked s₀ t stale' u := by
  obtain ⟨v, n, hv, hfits⟩ := h.seen
  exact { h with seen := ⟨v, n, hv, hfits.mono hs⟩ }

/-- What does not touch watchers, values and subscribers keeps track. -/
theorem of_eq {u' : World K (Scene K S)} (h : Tracked s₀ t stale u)
    (hmappings : u'.store.mappings = u.store.mappings)
    (hvalues : ∀ i, u'.store.valueAt i = u.store.valueAt i)
    (hwatchers : u'.store.watchers = u.store.watchers)
    (hsubscribed : t.number ∈ u'.store.subscribers t.slot)
    (hlog : u'.stage.log = u.stage.log) : Tracked s₀ t stale u' where
  framed := h.framed.of_eq hmappings hvalues
  own := by
    rw [hwatchers]
    exact h.own
  subscribed := hsubscribed
  seen := by
    rw [hwatchers, hlog, hvalues]
    exact h.seen

theorem lt_size (h : Tracked s₀ t stale u) : t.slot < u.store.slots.size :=
  Store.lt_size_of_mem_subscribers u.store h.subscribed

theorem note (h : Tracked s₀ t stale u) {e : Entry K}
    (he : ∀ v values, e ≠ .returned t.label v values) :
    Tracked s₀ t stale { u with stage.log := e :: u.stage.log } := by
  obtain ⟨v, n, hv, hfits⟩ := h.seen
  exact { h with seen := ⟨v, n, hv, hfits.note he⟩ }

/-- A change of a watcher that leaves alone what is tracked. -/
theorem updateWatcher (h : Tracked s₀ t stale u) (w : Nat) (f : Watcher K → Watcher K)
    (hlabel : ∀ watcher, (f watcher).reaction = watcher.reaction)
    (hf : w = t.number → ∀ v n, ∃ n', f ⟨t.root, t.expression, t.label, v, n⟩ =
      ⟨t.root, t.expression, t.label, v, n'⟩) :
    Tracked s₀ t stale { u with store := u.store.updateWatcher w f } where
  framed := h.framed.of_eq rfl fun _ => rfl
  own v watcher hwatcher hreaction := by
    rw [Store.watchers_updateWatcher] at hwatcher
    split at hwatcher
    · obtain ⟨watcher, hv, rfl⟩ := Option.map_eq_some_iff.1 hwatcher
      exact h.own v watcher hv ((hlabel watcher).symm.trans hreaction)
    · exact h.own v watcher hwatcher hreaction
  subscribed := h.subscribed
  seen := by
    obtain ⟨v, n, hv, hfits⟩ := h.seen
    by_cases hw : w = t.number
    · obtain ⟨n', hn'⟩ := hf hw v n
      refine ⟨v, n', ?_, hfits⟩
      rw [hw, Store.watchers_updateWatcher_self hv, hn']
    · refine ⟨v, n, ?_, hfits⟩
      rw [Store.watchers_updateWatcher, if_neg hw, hv]

theorem count (h : Tracked s₀ t stale u) (w : WatcherId) :
    Tracked s₀ t stale { u with store := u.store.counted w } :=
  h.updateWatcher w _ (fun _ => rfl) fun _ _ n => ⟨n + 1, rfl⟩

/-- Observing, tracking and counting leave alone what is tracked. -/
theorem indifferent (s₀ : Store K) (t : Observer K) (stale : Prop) :
    Program.Indifferent (Tracked (S := S) s₀ t stale) where
  subscribe u i w h := by
    refine h.of_eq rfl (Store.valueAt_subscribe u.store i w) rfl ?_ rfl
    rw [Store.subscribers_subscribe]
    split
    · exact List.mem_append_left _ h.subscribed
    · exact h.subscribed
  count u w h := h.count w
  collecting u ws h := h.of_eq rfl (fun _ => rfl) rfl h.subscribed rfl
  depth u n h := h.of_eq rfl (fun _ => rfl) rfl h.subscribed rfl
  newSlot u v h := by
    obtain ⟨seen, n, hseen, hfits⟩ := h.seen
    refine ⟨h.framed.newSlot v, h.own, ?_, seen, n, hseen, ?_⟩
    · rw [Store.subscribers_newSlot]
      exact h.subscribed
    · rwa [Store.valueAt_newSlot, if_neg (Nat.ne_of_lt h.lt_size)]
  newMapping u members h := ⟨h.framed.newMapping members, h.own, h.subscribed, h.seen⟩
  scene u state held h := ⟨h.framed, h.own, h.subscribed, h.seen⟩

/-- A new watcher of another label. -/
theorem watched (h : Tracked s₀ t stale u) (root : MappingId) (expression : String) {label : K}
    (hlabel : label ≠ t.label) (v : Value) :
    Tracked s₀ t stale { u with store := u.store.watched root expression label v } where
  framed := h.framed.of_eq (Store.mappings_watched _ _ _ _ _) (Store.valueAt_watched _ _ _ _ _)
  own w watcher hwatcher hreaction := by
    have hpush : (u.store.watchers.push ⟨root, expression, label, v, 1⟩)[w]? = some watcher :=
      hwatcher
    rw [Array.getElem?_push] at hpush
    split at hpush
    · obtain rfl := Option.some.inj hpush
      exact absurd hreaction hlabel
    · exact h.own w watcher hpush hreaction
  subscribed := by
    rw [Store.subscribers_watched _ _ _ _ _ h.lt_size]
    exact List.mem_append_left _ h.subscribed
  seen := by
    obtain ⟨seen, n, hseen, hfits⟩ := h.seen
    have hlt : t.number < u.store.watchers.size := by
      by_contra hle
      rw [Array.getElem?_eq_none (Nat.le_of_not_lt hle)] at hseen
      cases hseen
    refine ⟨seen, n, ?_, ?_⟩
    · show (u.store.watchers.push _)[t.number]? = _
      rw [Array.getElem?_push, if_neg (Nat.ne_of_lt hlt), hseen]
    · rwa [Store.valueAt_watched]

/-- The evaluation of the watcher comes to the value of its slot. -/
theorem evaluate (h : Tracked s₀ t stale u) (hnames : s₀.Names t.root t.expression t.slot)
    {v : Value} {n : Nat}
    (hv : u.store.watchers[t.number]? = some ⟨t.root, t.expression, t.label, v, n⟩) :
    ∃ u₁, Effect.evaluate t.number ⟨t.root, t.expression, t.label, v, n⟩ u =
        (.ok (u.store.valueAt t.slot), u₁) ∧ Tracked s₀ t stale u₁ ∧
      u₁.store.valueAt t.slot = u.store.valueAt t.slot ∧
      u₁.store.watchers[t.number]? = some ⟨t.root, t.expression, t.label, v, n + 1⟩ := by
  have hkept := (indifferent s₀ t stale).evaluate t.number ⟨t.root, t.expression, t.label, v, n⟩ u h
  obtain ⟨front, hresolve⟩ := h.framed.names hnames
  rw [Effect.evaluate_apply, hresolve] at hkept ⊢
  refine ⟨_, rfl, hkept, ?_, ?_⟩
  · rw [Store.valueAt_trackAll]
    rfl
  · rw [Store.watchers_trackAll]
    exact Store.watchers_counted hv

/-- A watcher that saw the present value, as it is up to date. -/
theorem settle (h : Tracked s₀ t stale u) {v : Value} {n : Nat}
    (hv : u.store.watchers[t.number]? = some ⟨t.root, t.expression, t.label, v, n⟩)
    (hnow : (u.store.valueAt t.slot).equal v = true) : Tracked s₀ t False u := by
  obtain ⟨v', n', hv', hfits⟩ := h.seen
  obtain ⟨rfl, rfl⟩ : v' = v ∧ n' = n := by
    rw [hv] at hv'
    cases hv'
    exact ⟨rfl, rfl⟩
  exact { h with seen := ⟨v', n', hv, hfits.settle hnow⟩ }

/-- A watcher that remembers what its last call was given. -/
theorem remember {log : List (Entry K)} {v : Value}
    (h : Tracked s₀ t stale { u with stage.log := log })
    (hlog : u.stage.log = .returned t.label v u.store.valueAt :: log) :
    Tracked s₀ t False { u with store := u.store.updateWatcher t.number fun watcher =>
      { watcher with value := v } } := by
  obtain ⟨seen, n, hseen, -⟩ := h.seen
  refine ⟨h.framed.of_eq rfl fun _ => rfl, fun w watcher hwatcher hreaction => ?_, h.subscribed,
    v, n, ?_, ?_⟩
  · rw [Store.watchers_updateWatcher] at hwatcher
    split at hwatcher
    next hw => exact hw.symm
    next => exact h.own w watcher hwatcher hreaction
  · have hseen : u.store.watchers[t.number]? = _ := hseen
    exact Store.watchers_updateWatcher_self hseen _
  · rw [hlog]
    exact Fits.returned t log v u.store.valueAt

/-- A write to the slot of the watcher, which may be stale then. -/
theorem write_slot (h : Tracked s₀ t stale u) (hi : (s₀.valueAt t.slot).isMapping = false)
    (v : Value) : Tracked s₀ t True { u with store := u.store.write t.slot v } := by
  obtain ⟨seen, n, hseen, hfits⟩ := h.seen
  refine ⟨h.framed.write hi v, h.own, ?_, seen, n, hseen, hfits.last, .inl trivial⟩
  rw [Store.subscribers_write]
  exact h.subscribed

/-- A write to another slot. -/
theorem write_other (h : Tracked s₀ t stale u) {i : SlotId} (hne : i ≠ t.slot)
    (hi : (s₀.valueAt i).isMapping = false) (v : Value) :
    Tracked s₀ t stale { u with store := u.store.write i v } := by
  obtain ⟨seen, n, hseen, hfits⟩ := h.seen
  refine ⟨h.framed.write hi v, h.own, ?_, seen, n, hseen, ?_⟩
  · rw [Store.subscribers_write]
    exact h.subscribed
  · rwa [Store.valueAt_write, if_neg fun hw => hne hw.1]

end Tracked

/-! ## Updates and writes -/

/-- What reactions must do for a watcher to be tracked: keep track, and note the
    return of its own calls last. -/
structure Reacts (react : K → Value → Program.Run K S Unit) (s₀ : Store K) (t : Observer K) :
    Prop where
  /-- The calls of others keep track. -/
  others : ∀ stale label v, label ≠ t.label → Preserves (Tracked s₀ t stale) (react label v)
  /-- Its own call keeps track up to the note of its return. -/
  ok : ∀ stale v u u', Tracked s₀ t stale u → react t.label v u = (.ok (), u') →
    ∃ log, u'.stage.log = .returned t.label v u'.store.valueAt :: log ∧
      Tracked s₀ t stale { u' with stage.log := log }
  /-- Its own call keeps track if it stops. -/
  error : ∀ stale v u u' stop, Tracked s₀ t stale u → react t.label v u = (.error stop, u') →
    Tracked s₀ t stale u'

namespace Reacts

variable {react : K → Value → Program.Run K S Unit} {s₀ : Store K} {t : Observer K}
  (hreact : Reacts react s₀ t) (hnames : s₀.Names t.root t.expression t.slot)

include hreact hnames

/-- An update of the watcher keeps track, and if it succeeds, the watcher is
    stale no longer. -/
theorem update_self {stale : Prop} {u u' : World K (Scene K S)} {result : Except Stop Unit}
    (h : Tracked s₀ t stale u)
    (hupdate : Effect.updateWatcher react t.number u = (result, u')) :
    Tracked s₀ t stale u' ∧ (result = .ok () → Tracked s₀ t False u') := by
  obtain ⟨v, n, hv, -⟩ := h.seen
  obtain ⟨u₁, hevaluate, h₁, hnow, hv₁⟩ := h.evaluate hnames hv
  rw [Effect.updateWatcher_of_some react hv, Effect.bind_apply, hevaluate] at hupdate
  dsimp only at hupdate
  split at hupdate
  next hequal =>
    obtain ⟨-, rfl⟩ := Prod.mk.inj hupdate
    exact ⟨h₁, fun _ => h₁.settle hv₁ (hnow ▸ hequal)⟩
  next =>
    rw [Effect.bind_apply] at hupdate
    cases hcall : react t.label (u.store.valueAt t.slot) u₁ with
    | mk called u₂ =>
      rw [hcall] at hupdate
      cases called with
      | ok =>
        obtain ⟨rfl, rfl⟩ := Prod.mk.inj hupdate
        obtain ⟨log, hlog, h₂⟩ := hreact.ok stale _ u₁ u₂ h₁ hcall
        have h₃ := h₂.remember hlog
        exact ⟨h₃.mono False.elim, fun _ => h₃⟩
      | error stop =>
        obtain ⟨rfl, rfl⟩ := Prod.mk.inj hupdate
        exact ⟨hreact.error stale _ u₁ u₂ stop h₁ hcall, fun hok => by cases hok⟩

theorem update (stale : Prop) (w : WatcherId) :
    Preserves (Tracked s₀ t stale) (Effect.updateWatcher react w) := by
  intro u h
  by_cases hw : w = t.number
  · rw [hw]
    exact (update_self hreact hnames h (Prod.eta _).symm).1
  cases hwatcher : u.store.watchers[w]? with
  | none =>
    rw [Effect.updateWatcher_of_none react hwatcher]
    exact h
  | some watcher =>
    have hlabel : watcher.reaction ≠ t.label := fun hr => hw (h.own w watcher hwatcher hr)
    rw [Effect.updateWatcher_of_some react hwatcher]
    refine (((Tracked.indifferent s₀ t stale).evaluate w watcher).bind fun v => ?_) u h
    split
    · exact Preserves.pure ()
    · refine (hreact.others stale _ v hlabel).bind fun _ => Preserves.modifyStore fun u hu => ?_
      exact hu.updateWatcher w _ (fun _ => rfl) fun heq => absurd heq hw

/-- After a pass that the watcher is in, and that succeeds, it is not stale. -/
theorem each (stale : Prop) : ∀ watchers : List WatcherId, t.number ∈ watchers →
    Ensures (Tracked s₀ t stale) (Effect.each (Effect.updateWatcher react) watchers)
      fun _ => Tracked s₀ t False
  | [], hmem => by cases hmem
  | w :: rest, hmem => by
    by_cases hw : w = t.number
    · refine Ensures.bind (Q := fun _ => Tracked s₀ t False) ?_ fun _ => ?_
      · intro u hu x u' hupdate
        rw [hw] at hupdate
        exact (update_self hreact hnames hu hupdate).2 rfl
      · exact (Preserves.each rest fun w _ => update hreact hnames False w).ensures
    · refine (update hreact hnames stale w).ensures.bind fun _ => each stale rest ?_
      exact (List.mem_cons.1 hmem).resolve_left (Ne.symm hw)

/-- After a notification of its slot that succeeds, the watcher is not stale. -/
theorem notify_slot (stale : Prop) :
    Ensures (Tracked s₀ t stale) (Effect.notify react t.slot) fun _ => Tracked s₀ t False := by
  intro u h x u' hnotify
  have hne : u.store.subscribers t.slot ≠ [] := List.ne_nil_of_mem h.subscribed
  by_cases hle : u.store.depth + 1 ≤ u.store.limit
  · rw [Effect.notify_of_le react hne hle] at hnotify
    refine Ensures.within (fun u hu => (Tracked.indifferent s₀ t stale).depth u _ hu)
      (each hreact hnames stale _ h.subscribed)
      (fun _ u hu => (Tracked.indifferent s₀ t False).depth u _ hu) u h x u' hnotify
  · rw [Effect.notify_of_lt react hne (Nat.lt_of_not_le hle)] at hnotify
    cases hnotify

theorem notify (stale : Prop) (slot : SlotId) :
    Preserves (Tracked s₀ t stale) (Effect.notify react slot) :=
  (Tracked.indifferent s₀ t stale).toSteady.notify (update hreact hnames stale) slot

/-- A write keeps track: if it is to the slot of the watcher, either its pass
    updates the watcher, or it is noted that the write was refused. -/
theorem write (stale : Prop) {m : MappingId} {key : String} {v : Value}
    (hwrite : s₀.ScalarWrite m key v) :
    Preserves (Tracked s₀ t stale) (Program.write react m key v) := by
  intro u h
  obtain ⟨hscalar, i, hslot₀, hi⟩ := hwrite
  rw [Program.write_of_some react (h.framed.slots m key i hslot₀), hscalar,
    if_neg Bool.false_ne_true]
  have hnoted := h.note (e := .notified i) fun _ _ hne => by cases hne
  by_cases heq : i = t.slot
  · subst heq
    have hstale := hnoted.write_slot hi v
    have hkept := notify hreact hnames True t.slot _ hstale
    have hfresh := notify_slot hreact hnames True _ hstale
    unfold Program.noting
    cases hnotify : Effect.notify react t.slot
        ⟨u.store.write t.slot v, { u.stage with log := .notified t.slot :: u.stage.log }⟩ with
    | mk result u' =>
      rw [hnotify] at hkept
      cases result with
      | ok x => exact ((hfresh x u' hnotify).mono False.elim).note fun _ _ hne => by cases hne
      | error stop =>
        have hended := hkept.note (e := .ended t.slot (.error stop)) fun _ _ hne => by cases hne
        obtain ⟨seen, n, hseen, hfits⟩ := hended.seen
        exact { hended with
          seen := ⟨seen, n, hseen, hfits.last, .inr (.inl ⟨stop, List.mem_cons_self⟩)⟩ }
  · exact (notify hreact hnames stale i _ (hnoted.write_other heq hi v)).note
      fun _ _ hne => by cases hne

/-- A write that succeeds keeps track. -/
theorem set (stale : Prop) {m : MappingId} {key : String} {v : Value}
    (hwrite : s₀.ScalarWrite m key v) :
    Ensures (Tracked s₀ t stale) (Effect.set react m key v) fun _ => Tracked s₀ t stale := by
  intro u h x u' hset
  obtain ⟨hscalar, i, hslot₀, hi⟩ := hwrite
  rw [Effect.set_of_some react (h.framed.slots m key i hslot₀), hscalar,
    if_neg Bool.false_ne_true] at hset
  by_cases heq : i = t.slot
  · subst heq
    exact (notify_slot hreact hnames True _ (h.write_slot hi v) x u' hset).mono False.elim
  · exact (notify hreact hnames stale i).ensures _ (h.write_other heq hi v) x u' hset

/-- Programs keep track that write values other than mappings only, and that
    make no watcher of this label. -/
theorem operable (stale : Prop) :
    Program.Operable react (Tracked s₀ t stale) s₀.ScalarWrite (· ≠ t.label) :=
  { Tracked.indifferent s₀ t stale with
    update := update hreact hnames stale
    write := fun _ _ _ hwrite => write hreact hnames stale hwrite
    notify := by
      intro m key u h
      cases hslot : u.store.slot? m key with
      | none =>
        rw [Program.notifying_of_none react hslot]
        exact h
      | some i =>
        rw [Program.notifying_of_some react hslot]
        exact notify hreact hnames stale i _ (h.note fun _ _ hne => by cases hne)
    watch := by
      intro root expression label name hlabel
      refine Preserves.bind ?_ fun w => Preserves.modifyStage fun u hu =>
        (Tracked.indifferent s₀ t stale).scene u _ _ hu
      intro u h
      cases hresolve : (u.store.resolve root expression).2 with
      | ok v =>
        rw [Effect.watch_of_ok hresolve]
        exact h.watched root expression hlabel v
      | error e =>
        rw [Effect.watch_of_error hresolve]
        exact h.watched root expression hlabel .null }

end Reacts

/-- Callbacks keep track, however deep they may be nested. -/
theorem Tracked.reactions {callback : K → Value → Program K S} {s₀ : Store K} {t : Observer K}
    (hnames : s₀.Names t.root t.expression t.slot)
    (hallowed : ∀ label v, (callback label v).Allowed (fun u => s₀.Framed u.store) s₀.ScalarWrite
      (· ≠ t.label)) : ∀ depth, Reacts (Program.reactions callback depth) s₀ t
  | 0 => by
    refine ⟨fun _ _ _ _ => Preserves.exhausted, fun _ _ u u' _ h => ?_, fun _ _ u u' _ hu h => ?_⟩
    · cases h
    · cases h
      exact hu
  | depth + 1 => by
    have hrun : ∀ stale label v, Preserves (Tracked s₀ t stale)
        ((callback label v).run (Program.reactions callback depth)) := fun stale label v =>
      ((reactions hnames hallowed depth).operable hnames stale).run _
        ((hallowed label v).mono fun u hu => hu.framed)
    refine ⟨fun stale label v hlabel => ?_, fun stale v u u' hu h => ?_,
      fun stale v u u' stop hu h => ?_⟩
    · refine Preserves.bind (Preserves.modifyStage fun u hu => hu.note fun _ _ hne => by cases hne)
        fun _ => (hrun stale label v).bind fun _ => Preserves.store.bind fun s => ?_
      refine Preserves.modifyStage fun u hu => hu.note fun v' values' hne => ?_
      cases hne
      exact hlabel rfl
    · have hcalled := hu.note (e := .called t.label v) fun _ _ hne => by cases hne
      have hkept := hrun stale t.label v _ hcalled
      rw [Program.reactions, Program.call_apply] at h
      split at h
      next u₁ hu₁ =>
        rw [hu₁] at hkept
        obtain ⟨-, rfl⟩ := Prod.mk.inj h
        exact ⟨u₁.stage.log, rfl, hkept⟩
      next => cases h
    · have hcalled := hu.note (e := .called t.label v) fun _ _ hne => by cases hne
      have hkept := hrun stale t.label v _ hcalled
      rw [Program.reactions, Program.call_apply] at h
      split at h
      next => cases h
      next stop' u₁ hu₁ =>
        rw [hu₁] at hkept
        obtain ⟨-, rfl⟩ := Prod.mk.inj h
        exact hkept

/-- **A watcher is up to date after a write that succeeds exactly if its last
    call was not overtaken, or its slot was set back.**  The watcher's expression
    ends at a slot that it is subscribed to, it is up to date before, and it
    alone has its callback; callbacks may write, through keys and paths, values
    other than mappings to keys that hold none, and may read, observe, notify,
    update, collect and make watchers as they like.  In any case the watcher has
    seen what its last call that returned was given; if no write of a callback
    to its slot was refused, that is the present value unless, when that call
    returned, the slot held another value and holds another one still. -/
theorem Effect.upToDate_iff_not_overtaken {callback : K → Value → Program K S} {depth : Nat}
    {u u' : World K (Scene K S)} {w : WatcherId} {watcher : Watcher K} {i : SlotId}
    {m : MappingId} {key : String} {v : Value}
    (hlog : u.stage.log = []) (hwatcher : u.store.watchers[w]? = some watcher)
    (hnames : u.store.Names watcher.root watcher.expression i)
    (hsubscribed : w ∈ u.store.subscribers i)
    (hown : ∀ w' watcher', u.store.watchers[w']? = some watcher' →
      watcher'.reaction = watcher.reaction → w' = w)
    (hallowed : ∀ label v, (callback label v).Allowed (fun u' => u.store.Framed u'.store)
      u.store.ScalarWrite (· ≠ watcher.reaction))
    (huptodate : (u.store.valueAt i).equal watcher.value = true)
    (hwrite : u.store.ScalarWrite m key v)
    (hset : set (Program.reactions callback depth) m key v u = (.ok (), u')) :
    (∃ watcher', u'.store.watchers[w]? = some watcher' ∧
      ((NeverReturned watcher.reaction u'.stage.log ∧ watcher'.value = watcher.value) ∨
        ∃ values, LastReturned watcher.reaction u'.stage.log watcher'.value values)) ∧
    (¬ Refused i u'.stage.log →
      (u'.store.UpToDate w ↔ ∀ seen values,
        LastReturned watcher.reaction u'.stage.log seen values →
          (values i).equal seen = true ∨ (u'.store.valueAt i).equal seen = true)) := by
  obtain ⟨root, expression, label, value, n⟩ := watcher
  let t : Observer K := ⟨w, root, expression, label, i, value⟩
  have hreact := Tracked.reactions (t := t) hnames hallowed depth
  have htracked : Tracked u.store t False u := by
    refine ⟨Store.Framed.refl u.store, hown, hsubscribed, value, n, hwatcher, ?_, ?_⟩
    · rw [hlog]
      exact .inl ⟨fun _ _ => List.not_mem_nil, rfl⟩
    · exact .inr (.inr (.inl huptodate))
  have hafter : Tracked u.store t False u' := hreact.set hnames False hwrite u htracked () u' hset
  obtain ⟨seen, n', hseen, hlast, hfresh⟩ := hafter.seen
  refine ⟨⟨_, hseen, hlast⟩, fun hrefused => ?_⟩
  obtain ⟨front, hresolve⟩ := hafter.framed.names hnames
  have huptodate' : u'.store.UpToDate w ↔ (u'.store.valueAt i).equal seen = true := by
    constructor
    · rintro ⟨watcher', v', hwatcher', hv', hequal⟩
      obtain rfl := Option.some.inj (hseen.symm.trans hwatcher')
      rw [hresolve] at hv'
      obtain rfl := Except.ok.inj hv'
      exact hequal
    · intro hequal
      exact ⟨_, _, hseen, congrArg Prod.snd hresolve, hequal⟩
  rw [huptodate']
  constructor
  · intro hequal seen' values hreturned
    rcases hlast with ⟨hnever, -⟩ | ⟨values', hlast⟩
    · exact absurd hreturned.mem (hnever seen' values)
    · obtain ⟨rfl, -⟩ := hlast.unique hreturned
      exact .inr hequal
  · intro hcalls
    rcases hfresh with hstale | hbad | hequal | ⟨values, hreturned, hover⟩
    · exact hstale.elim
    · exact absurd hbad hrefused
    · exact hequal
    · refine (hcalls seen values hreturned).resolve_left fun hequal => ?_
      rw [hover] at hequal
      cases hequal

/-- The text `x` under the key `a`, and a watcher of it. -/
def watchedX : World Unit (Scene Unit Unit) where
  store := {
    mappings := #[[("a", 0)]]
    slots := #[⟨.string "x", [0]⟩]
    watchers := #[⟨0, "a", (), .string "x", 1⟩]
    collecting := []
    depth := 0
    limit := 100 }
  stage := ⟨(), [], []⟩

/-- Write `z` under the key `a` when given `y`. -/
def zForY (_ : Unit) (v : Value) : Program Unit Unit :=
  if v.equal (.string "y") then .set 0 "a" (.string "z") .done else .done (.ok ())

/-- Write a text under the key `a`. -/
def writeA (t : String) : Program.Run Unit Unit Unit :=
  Effect.set (Program.reactions zForY 2) 0 "a" (.string t)

/-- The return that is the latest entry of a log, if one is. -/
def latestReturn? {K : Type} : List (Entry K) → Option (Value × (SlotId → Value))
  | .returned _ v values :: _ => some (v, values)
  | _ => none

theorem LastReturned.of_latest {log : List (Entry Unit)} {v : Value} {values : SlotId → Value}
    (h : latestReturn? log = some (v, values)) : LastReturned () log v values := by
  unfold latestReturn? at h
  split at h
  · cases h
    exact .here
  · cases h

/-- Whether an entry is something else than a write that was refused or
    stopped. -/
def Entry.accepted {K : Type} : Entry K → Bool
  | .ended _ result => result.isOk
  | _ => true

/-- The watcher is overtaken when `y` is written, and so not up to date. -/
theorem not_upToDate_of_zForY :
    (writeA "y" watchedX).1.isOk = true ∧ ¬ (writeA "y" watchedX).2.store.UpToDate 0 := by
  have hok : (writeA "y" watchedX).1.isOk = true := by decide +kernel
  have hset : writeA "y" watchedX = (.ok (), (writeA "y" watchedX).2) := by
    generalize writeA "y" watchedX = found at hok
    obtain ⟨_ | _, after⟩ := found
    · cases hok
    · rfl
  have hwrite : watchedX.store.ScalarWrite 0 "a" (.string "y") := ⟨rfl, 0, rfl, rfl⟩
  have hnames : watchedX.store.Names 0 "a" 0 := by
    refine ⟨[], ?_⟩
    unfold Store.resolve
    rfl
  have hown : ∀ w' watcher', watchedX.store.watchers[w']? = some watcher' →
      watcher'.reaction = () → w' = 0 := by
    intro w' watcher' h _
    obtain ⟨hlt, -⟩ := Array.getElem?_eq_some_iff.1 h
    exact Nat.lt_one_iff.1 hlt
  have hallowed : ∀ label v, (zForY label v).Allowed (fun u => watchedX.store.Framed u.store)
      watchedX.store.ScalarWrite (· ≠ ()) := by
    intro label v
    unfold zForY
    split
    · exact ⟨⟨rfl, 0, rfl, rfl⟩, fun _ => trivial⟩
    · trivial
  have hquiet : ¬ Refused 0 (writeA "y" watchedX).2.stage.log := by
    have hall : (writeA "y" watchedX).2.stage.log.all Entry.accepted = true := by decide +kernel
    rintro ⟨stop, hstop⟩
    cases List.all_eq_true.1 hall _ hstop
  have hlatest : (latestReturn? (writeA "y" watchedX).2.stage.log).any (fun r =>
      !((r.2 0).equal r.1 || ((writeA "y" watchedX).2.store.valueAt 0).equal r.1)) = true := by
    decide +kernel
  obtain ⟨⟨seen, values⟩, hlast, hover⟩ := (Option.any_eq_true _ _).1 hlatest
  refine ⟨hok, fun huptodate => ?_⟩
  have hcalls := ((Effect.upToDate_iff_not_overtaken rfl rfl hnames (List.mem_singleton.2 rfl) hown
    hallowed rfl hwrite hset).2 hquiet).1 huptodate
  have hequal := hcalls seen values (.of_latest hlast)
  rw [← Bool.or_eq_true] at hequal
  rw [hequal] at hover
  cases hover

/-- After `y` is written, and `z` in turn, the watcher has seen `y` last: so it
    misses it when `y` is written again. -/
theorem overtaken_watcher_misses_write :
    let once := writeA "y" watchedX
    let again := writeA "y" once.2
    once.1.isOk = true ∧ (once.2.store.valueAt 0).equal (.string "z") = true ∧
      (once.2.store.watchers[0]?.any fun watcher => watcher.value.equal (.string "y")) = true ∧
      again.1.isOk = true ∧ again.2.stage.log.length = once.2.stage.log.length := by
  decide +kernel

end DataBinding
