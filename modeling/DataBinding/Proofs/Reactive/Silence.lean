/-
  Callbacks that only read, and notifications among them.

  A `Silent` program reads reactive data and makes some, and does nothing else:
  where nobody collects, it leaves the data that was there, every dependency set
  and every watcher as they were.  Then a notification is no more than the
  evaluations that it is made for.

  * `Store.After`: a store in which watchers have been evaluated, and nothing else
    has happened;
  * `Store.Evaluated`: one update of a watcher;
  * `Store.Passed`: a pass over watchers, up to the first that fails;
  * `Effect.notify_passed`: what a notification comes to.
-/
import DataBinding.Proofs.Reactive.Grounded
import DataBinding.Proofs.Reactive.Program
import DataBinding.Proofs.Reactive.Record
import DataBinding.Proofs.Reactive.Snapshot
import DataBinding.Proofs.Reactive.Watching

namespace DataBinding

variable {R σ α β : Type}

/-! ## Evaluations -/

namespace Store

/-- How often a watcher has been evaluated. -/
def evaluations (s : Store R) (w : WatcherId) : Nat :=
  (s.watchers[w]?).elim 0 Watcher.evaluations

/-- In a store the watchers have been evaluated since, each as often as it is
    listed; new data may have been made, and nothing else has happened. -/
structure After (s : Store R) (done : List WatcherId) (s' : Store R) : Prop where
  /-- The data is in its place. -/
  data : s.Extends s'
  /-- The dependency sets are the same. -/
  subscribers : ∀ i, s'.subscribers i = s.subscribers i
  /-- What goes on is the same. -/
  activity : s'.activity = s.activity
  /-- There are no new watchers. -/
  size : s'.watchers.size = s.watchers.size
  /-- The watchers have been evaluated. -/
  evaluations : ∀ w < s.watchers.size, s'.evaluations w = s.evaluations w + done.count w
  /-- References lead somewhere. -/
  grounded : s.Grounded → s'.Grounded

namespace After

variable {s s' s'' : Store R} {done done' : List WatcherId}

theorem refl (s : Store R) : s.After [] s :=
  ⟨.refl s, fun _ => rfl, rfl, rfl, fun _ _ => rfl, id⟩

theorem trans (h : s.After done s') (h' : s'.After done' s'') : s.After (done ++ done') s'' where
  data := h.data.trans h'.data
  subscribers i := (h'.subscribers i).trans (h.subscribers i)
  activity := h'.activity.trans h.activity
  size := h'.size.trans h.size
  evaluations w hw := by
    rw [h'.evaluations w (h.size ▸ hw), h.evaluations w hw, List.count_append, Nat.add_assoc]
  grounded hs := h'.grounded (h.grounded hs)

theorem collecting (h : s.After done s') (hs : s.collecting = []) : s'.collecting = [] :=
  (congrArg Activity.collecting h.activity).trans hs

/-- Watchers have changed, and nothing else. -/
theorem of_watchers (hmappings : s'.mappings = s.mappings) (hslots : s'.slots = s.slots)
    (hactivity : s'.activity = s.activity) (hsize : s'.watchers.size = s.watchers.size)
    (hevaluations : ∀ w < s.watchers.size, s'.evaluations w = s.evaluations w + done.count w) :
    s.After done s' where
  data := .of_parts hmappings hslots
  subscribers i := by rw [subscribers_eq, subscribers_eq, hslots]
  activity := hactivity
  size := hsize
  evaluations := hevaluations
  grounded hs := by
    refine hs.of_le (fun m key i hi => .inl ?_) (Nat.le_of_eq (congrArg Array.size hslots).symm)
      (fun i w hw => .inl ?_) (Nat.le_of_eq hsize.symm)
    · rw [slot?, members, hmappings] at hi
      exact hi
    · rw [subscribers_eq, hslots] at hw
      exact hw

/-- New data. -/
theorem observe (s : Store R) (j : Json) : s.After [] (s.observe j).2 := by
  have hwatchers : (s.observe j).2.watchers = s.watchers :=
    observe_keeps (P := fun s' => s'.watchers = s.watchers) (fun _ _ h => h) (fun _ _ h => h) j rfl
  refine ⟨.observe s j, fun i => ?_, ?_, congrArg Array.size hwatchers, fun w _ => ?_,
    fun hs => hs.observe j⟩
  · exact observe_keeps (P := fun s' => s'.subscribers i = s.subscribers i)
      (fun s' v h => (subscribers_newSlot s' v i).trans h) (fun _ _ h => h) j rfl
  · exact observe_keeps (P := fun s' => s'.activity = s.activity) (fun _ _ h => h)
      (fun _ _ h => h) j rfl
  · rw [Store.evaluations, hwatchers]
    rfl

/-- The evaluation of a watcher is counted. -/
theorem counted (s : Store R) (w : WatcherId) : s.After [w] (s.counted w) := by
  refine of_watchers rfl rfl rfl Array.size_modify fun w' hw' => ?_
  unfold Store.evaluations Store.counted updateWatcher
  rw [Array.getElem?_modify, Array.getElem?_eq_getElem hw']
  by_cases h : w = w'
  · simp [h]
  · simp [h]

/-- What happens while a notification is open. -/
theorem of_entered (h : ({ s with depth := s.depth + 1 } : Store R).After done s') :
    s.After done { s' with depth := s'.depth - 1 } where
  data := (Extends.of_parts rfl rfl).trans (h.data.trans (.of_parts rfl rfl))
  subscribers := h.subscribers
  activity := congrArg (fun a => { a with depth := a.depth - 1 }) h.activity
  size := h.size
  evaluations := h.evaluations
  grounded hs :=
    let h' := h.grounded ⟨hs.slots, hs.watchers⟩
    ⟨h'.slots, h'.watchers⟩

/-- A value is remembered. -/
theorem remember (s : Store R) (w : WatcherId) (v : Value) :
    s.After [] (s.updateWatcher w fun watcher => { watcher with value := v }) := by
  refine of_watchers rfl rfl rfl Array.size_modify fun w' _ => ?_
  unfold Store.evaluations updateWatcher
  rw [Array.getElem?_modify]
  split <;> cases s.watchers[w']? <;> rfl

end After

/-- A watcher has been updated, with a result: it has been evaluated once, and
    has seen the value that its expression had, if the update did not fail. -/
structure Evaluated (s : Store R) (w : WatcherId) (r : Except Stop Unit) (s' : Store R) : Prop where
  /-- It has been evaluated once, and nothing else has happened. -/
  after : s.After [w] s'
  /-- It has seen the value of its expression. -/
  seen : r = .ok () → ∀ watcher, s.watchers[w]? = some watcher → ∃ v watcher',
    (s.resolve watcher.root watcher.expression).2 = .ok v ∧ s'.watchers[w]? = some watcher' ∧
      (watcher'.value = v ∨ v.equal watcher'.value = true)

/-- Watchers have been updated in order, up to the first that failed, each in a
    store that has the data of `s₀`. -/
inductive Passed (s₀ : Store R) : List WatcherId → Store R → Except Stop Unit → Store R → Prop
  /-- No watcher is left. -/
  | nil (s) : Passed s₀ [] s (.ok ()) s
  /-- The update of a watcher, and the others. -/
  | next {w ws s s₁ r s'} (hdata : s₀.Extends s) (h : s.Evaluated w (.ok ()) s₁)
    (hrest : Passed s₀ ws s₁ r s') : Passed s₀ (w :: ws) s r s'
  /-- The update of a watcher that fails. -/
  | failed {w ws s s' e} (hdata : s₀.Extends s) (h : s.Evaluated w (.error e) s') :
    Passed s₀ (w :: ws) s (.error e) s'

/-- A pass evaluates the first of the watchers, and all of them if it does not
    fail. -/
theorem Passed.after {s₀ s s' : Store R} {ws : List WatcherId} {r : Except Stop Unit}
    (h : Passed s₀ ws s r s') :
    ∃ done, done <+: ws ∧ (r = .ok () → done = ws) ∧ s.After done s' := by
  induction h with
  | nil s => exact ⟨[], List.nil_prefix, fun _ => rfl, .refl s⟩
  | @next w ws s s₁ r s' _ h _ ih =>
    obtain ⟨done, hprefix, hok, hafter⟩ := ih
    exact ⟨w :: done, List.cons_prefix_cons.2 ⟨rfl, hprefix⟩, fun hr => by rw [hok hr],
      h.after.trans hafter⟩
  | @failed w ws s s' e _ h =>
    exact ⟨[w], List.cons_prefix_cons.2 ⟨rfl, List.nil_prefix⟩, nofun, h.after⟩

/-- The first of the watchers is evaluated at any rate. -/
theorem Passed.after_head {s₀ s s' : Store R} {w : WatcherId} {ws : List WatcherId}
    {r : Except Stop Unit} (h : Passed s₀ (w :: ws) s r s') :
    ∃ done, w ∈ done ∧ s.After done s' := by
  cases h with
  | next _ h hrest =>
    obtain ⟨done, -, -, hafter⟩ := hrest.after
    exact ⟨w :: done, List.mem_cons_self, h.after.trans hafter⟩
  | failed _ h => exact ⟨[w], List.mem_cons_self, h.after⟩

end Store

/-! ## Silent effects -/

/-- Where nobody collects, an effect comes to an end, and no more than new data is
    made. -/
def Effect.Silent (a : Effect R σ α) : Prop :=
  ∀ u, u.store.collecting = [] → (a u).1 ≠ .error .exhausted ∧ u.store.After [] (a u).2.store

namespace Effect

namespace Silent

theorem same {a : Effect R σ α} (hends : Ends a)
    (h : ∀ u, u.store.collecting = [] → (a u).2.store = u.store) : Silent a := by
  intro u hu
  rw [h u hu]
  exact ⟨hends u, .refl _⟩

theorem pure (x : α) : Silent (Pure.pure x : Effect R σ α) :=
  same (.pure x) fun _ _ => rfl

theorem fail (f : Fault) : Silent (fail f : Effect R σ α) :=
  same (.fail f) fun _ _ => rfl

theorem stage : Silent (stage : Effect R σ σ) :=
  same .stage fun _ _ => rfl

theorem store : Silent (store : Effect R σ (Store R)) :=
  same (fun _ => by rintro ⟨⟩) fun _ _ => rfl

theorem modifyStage (f : σ → σ) : Silent (modifyStage f : Effect R σ Unit) :=
  same (.modifyStage f) fun _ _ => rfl

theorem bind {a : Effect R σ α} {f : α → Effect R σ β} (ha : Silent a) (hf : ∀ x, Silent (f x)) :
    Silent (a >>= f) := by
  intro u hu
  obtain ⟨hends, hafter⟩ := ha u hu
  rw [bind_apply]
  rcases h : a u with ⟨e | x, u₁⟩
  · rw [h] at hends hafter
    exact ⟨fun he => hends (congrArg Except.error (Except.error.inj he)), hafter⟩
  · rw [h] at hafter
    obtain ⟨hends', hafter'⟩ := hf x u₁ (hafter.collecting hu)
    exact ⟨hends', hafter.trans hafter'⟩

theorem attempt {a : Effect R σ α} (h : Silent a) : Silent (attempt a) := by
  intro u hu
  obtain ⟨hends, hafter⟩ := h u hu
  unfold Effect.attempt
  rcases hau : a u with ⟨(f | _) | x, u₁⟩
  · rw [hau] at hafter
    exact ⟨by rintro ⟨⟩, hafter⟩
  · exact absurd (congrArg Prod.fst hau) hends
  · rw [hau] at hafter
    exact ⟨by rintro ⟨⟩, hafter⟩

theorem observe (j : Json) : Silent (onStore fun s => s.observe j : Effect R σ Value) :=
  fun u _ => ⟨by rintro ⟨⟩, .observe u.store j⟩

theorem get? (m : MappingId) (key : String) :
    Silent (get? m key : Effect R σ (Option Value)) := by
  refine same (.onStore _) fun u hu => ?_
  unfold Effect.get? Effect.onStore
  dsimp only
  split
  · rfl
  · exact u.store.trackAll_of_not_collecting hu [_]

theorem getPath (root : MappingId) (expression : String) :
    Silent (getPath root expression : Effect R σ Value) := by
  refine same (.reading _) fun u hu => ?_
  rw [getPath_apply]
  exact u.store.trackAll_of_not_collecting hu _

theorem content (root : MappingId) (text : String) :
    Silent (content root text : Effect R σ String) := by
  refine same (.reading _) fun u hu => ?_
  obtain ⟨slots, hcontent⟩ := content_tracks root text u
  rw [hcontent]
  exact u.store.trackAll_of_not_collecting hu slots

end Silent

/-! ## Updates and notifications -/

section

variable {react : R → Value → Effect R σ Unit} (hreact : ∀ label v, (react label v).Silent)
  {u : World R σ}

include hreact

/-- An update is the evaluation of its watcher. -/
theorem updateWatcher_evaluated (hu : u.store.collecting = []) (w : WatcherId) :
    (updateWatcher react w u).1 ≠ .error .exhausted ∧
      u.store.Evaluated w (updateWatcher react w u).1 (updateWatcher react w u).2.store := by
  cases hwatcher : u.store.watchers[w]? with
  | none =>
    rw [updateWatcher_of_none react hwatcher]
    refine ⟨by rintro ⟨⟩, .of_watchers rfl rfl rfl rfl fun w' hw' => ?_, fun _ watcher h => ?_⟩
    · have hne : w ≠ w' := by
        rintro rfl
        rw [Array.getElem?_eq_getElem hw'] at hwatcher
        cases hwatcher
      rw [List.count_cons_of_ne hne, List.count_nil, Nat.add_zero]
    · rw [hwatcher] at h
      cases h
  | some watcher =>
    have hcounted := Store.After.counted u.store w
    have hlt : w < u.store.watchers.size := (Array.getElem?_eq_some_iff.1 hwatcher).1
    cases hresolve : (u.store.resolve watcher.root watcher.expression).2 with
    | error e =>
      rw [updateWatcher_of_error react hwatcher hresolve, Store.trackAll_counted hu]
      exact ⟨by rintro ⟨⟩, hcounted, nofun⟩
    | ok v =>
      by_cases hequal : v.equal watcher.value = true
      · rw [updateWatcher_of_equal react hwatcher hresolve hequal, Store.trackAll_counted hu]
        refine ⟨by rintro ⟨⟩, hcounted, fun _ watcher' h => ?_⟩
        obtain rfl := Option.some.inj (hwatcher.symm.trans h)
        exact ⟨v, _, hresolve, Store.watchers_counted hwatcher, .inr hequal⟩
      · obtain ⟨hends, hreacted⟩ :=
          hreact watcher.reaction v { u with store := u.store.counted w } hu
        rw [updateWatcher_of_changed react hwatcher hresolve hequal, Store.trackAll_counted hu,
          bind_apply]
        rcases hr : react watcher.reaction v { u with store := u.store.counted w } with ⟨e | ⟨⟩, u₁⟩
        · rw [hr] at hends hreacted
          exact ⟨fun he => hends he, hcounted.trans hreacted, nofun⟩
        · rw [hr] at hreacted
          refine ⟨by rintro ⟨⟩, (hcounted.trans hreacted).trans (.remember u₁.store w v),
            fun _ watcher' h => ?_⟩
          obtain rfl := Option.some.inj (hwatcher.symm.trans h)
          have hlt₁ : w < u₁.store.watchers.size :=
            hreacted.size.trans hcounted.size ▸ hlt
          exact ⟨v, { u₁.store.watchers[w] with value := v }, hresolve,
            Store.watchers_updateWatcher_self (Array.getElem?_eq_getElem hlt₁) _, .inl rfl⟩

/-- Updates are a pass over their watchers. -/
theorem each_passed {s₀ : Store R} : ∀ (ws : List WatcherId) {u : World R σ},
    u.store.collecting = [] → s₀.Extends u.store →
    (each (updateWatcher react) ws u).1 ≠ .error .exhausted ∧
      s₀.Passed ws u.store (each (updateWatcher react) ws u).1
        (each (updateWatcher react) ws u).2.store
  | [], u, _, _ => ⟨by rintro ⟨⟩, .nil _⟩
  | w :: ws, u, hu, hdata => by
    obtain ⟨hends, hevaluated⟩ := updateWatcher_evaluated hreact hu w
    rw [each, bind_apply]
    rcases h : updateWatcher react w u with ⟨e | ⟨⟩, u₁⟩
    · rw [h] at hends hevaluated
      exact ⟨fun he => hends he, .failed hdata hevaluated⟩
    · rw [h] at hevaluated
      obtain ⟨hends', hpassed⟩ := each_passed ws (hevaluated.after.collecting hu)
        (hdata.trans hevaluated.after.data)
      exact ⟨hends', .next hdata hevaluated hpassed⟩

/-- A notification is a pass over the subscribers, if there is room for it. -/
theorem notify_passed (hu : u.store.collecting = []) (hroom : u.store.depth < u.store.limit)
    (t : SlotId) : ∃ s', (notify react t u).1 ≠ .error .exhausted ∧
      u.store.Passed (u.store.subscribers t) { u.store with depth := u.store.depth + 1 }
        (notify react t u).1 s' ∧
      (notify react t u).2.store = { s' with depth := s'.depth - 1 } := by
  by_cases hsubscribers : u.store.subscribers t = []
  · rw [notify_of_nil react hsubscribers, hsubscribers]
    exact ⟨_, by rintro ⟨⟩, .nil _, rfl⟩
  · rw [notify_of_le react hsubscribers hroom]
    have hdata : u.store.Extends { u.store with depth := u.store.depth + 1 } := .of_parts rfl rfl
    obtain ⟨hends, hpassed⟩ := each_passed hreact (u.store.subscribers t)
      (show ({ u with store.depth := u.store.depth + 1 } : World R σ).store.collecting = [] from hu)
      hdata
    exact ⟨_, hends, hpassed, rfl⟩

/-- A notification evaluates subscribers, the first ones first, and does nothing
    else. -/
theorem notify_after (hu : u.store.collecting = []) (t : SlotId) : ∃ done,
    done <+: u.store.subscribers t ∧ u.store.After done (notify react t u).2.store := by
  by_cases hroom : u.store.depth < u.store.limit
  · obtain ⟨s', -, hpassed, hstore⟩ := notify_passed hreact hu hroom t
    obtain ⟨done, hprefix, -, hafter⟩ := hpassed.after
    refine ⟨done, hprefix, ?_⟩
    rw [hstore]
    exact .of_entered hafter
  · by_cases hsubscribers : u.store.subscribers t = []
    · rw [notify_of_nil react hsubscribers]
      exact ⟨[], List.nil_prefix, .refl _⟩
    · rw [notify_of_lt react hsubscribers (by omega)]
      exact ⟨[], List.nil_prefix, .refl _⟩

/-- A subscriber is evaluated, if those before it do not fail. -/
theorem evaluations_lt_of_notify (hu : u.store.collecting = [])
    (hroom : u.store.depth < u.store.limit) {t : SlotId} {front rest : List WatcherId}
    {w : WatcherId} (hsubscribers : u.store.subscribers t = front ++ w :: rest)
    (hw : w < u.store.watchers.size)
    (hfront : (notifying (each (updateWatcher react) front) u).1 = .ok ()) :
    u.store.evaluations w < (notify react t u).2.store.evaluations w := by
  let entered : World R σ := { u with store.depth := u.store.depth + 1 }
  have hdata : u.store.Extends entered.store := .of_parts rfl rfl
  obtain ⟨-, hpassed⟩ := each_passed hreact front (show entered.store.collecting = [] from hu) hdata
  obtain ⟨before, -, -, hafter⟩ := hpassed.after
  -- the updates before it, and from it on
  rcases hstep : each (updateWatcher react) front entered with ⟨e | ⟨⟩, u₁⟩
  · unfold notifying within at hfront
    dsimp only at hfront
    rw [hstep] at hfront
    cases hfront
  rw [hstep] at hafter
  obtain ⟨-, hpassed'⟩ := each_passed hreact (w :: rest) (hafter.collecting hu)
    (hdata.trans hafter.data)
  obtain ⟨done, hmem, hafter'⟩ := hpassed'.after_head
  have hnotify : (notify react t u).2.store.evaluations w =
      (each (updateWatcher react) (w :: rest) u₁).2.store.evaluations w := by
    have hne : u.store.subscribers t ≠ [] := by
      rw [hsubscribers]
      exact List.append_ne_nil_of_right_ne_nil front (List.cons_ne_nil w rest)
    rw [notify_of_le react hne hroom, hsubscribers]
    unfold notifying within
    dsimp only
    rw [each_append, bind_apply, hstep]
    rfl
  rw [hnotify, (hafter.trans hafter').evaluations w hw, List.count_append]
  have := List.count_pos_iff.2 hmem
  exact Nat.lt_add_of_pos_right (by omega)

end

end Effect

/-! ## Silent programs -/

namespace Program

open Effect (Silent)

variable {K S : Type}

/-- A program only reads, and makes data, whatever happens to it. -/
def OnlyReads : Program K S → Prop
  | done _ => True
  | alter _ next => ∀ s, (next s).OnlyReads
  | observe _ next => ∀ v, (next v).OnlyReads
  | get _ _ next => ∀ v, (next v).OnlyReads
  | getPath _ _ next => ∀ r, (next r).OnlyReads
  | content _ _ next => ∀ r, (next r).OnlyReads
  | seen _ next => ∀ r, (next r).OnlyReads
  | set _ _ _ _ | setPath _ _ _ _ | notify _ _ _ | watch _ _ _ _ _ => False
  | update _ _ | collect _ _ _ => False

theorem silent_run (react : K → Value → Run K S Unit) : ∀ p : Program K S, p.OnlyReads →
    Silent (p.run react)
  | done (.ok ()), _ => .pure ()
  | done (.error f), _ => .fail f
  | alter _ next, h => (Silent.modifyStage _).bind fun _ => Silent.stage.bind fun s =>
    silent_run react (next s.state) (h s.state)
  | observe j next, h => (Silent.observe j).bind fun v => silent_run react (next v) (h v)
  | get m key next, h => (Silent.get? m key).bind fun v => silent_run react (next v) (h v)
  | getPath root expression next, h =>
    (Silent.getPath root expression).attempt.bind fun r => silent_run react (next r) (h r)
  | content root text next, h =>
    (Silent.content root text).attempt.bind fun r => silent_run react (next r) (h r)
  | seen name next, h =>
    have hholder : Silent (holder name : Run K S _) := Silent.stage.bind fun _ => .pure _
    (hholder.bind fun _ => Silent.store.bind fun _ => .pure _).bind fun r =>
      silent_run react (next r) (h r)
  | set _ _ _ _, h | setPath _ _ _ _, h | notify _ _ _, h | watch _ _ _ _ _, h | update _ _, h
  | collect _ _ _, h => h.elim

/-- Callbacks that only read are silent. -/
theorem silent_reactions {callback : K → Value → Program K S}
    (h : ∀ label v, (callback label v).OnlyReads) (depth : Nat) (label : K) (v : Value) :
    Silent (reactions callback (depth + 1) label v) :=
  (Silent.modifyStage _).bind fun _ => (silent_run _ _ (h label v)).bind fun _ =>
    Silent.store.bind fun _ => .modifyStage _

end Program

end DataBinding
