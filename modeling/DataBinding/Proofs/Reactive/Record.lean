/-
  Effects that keep a record of what goes on.

  An `Activity` is what goes on at a moment of a run: the watchers that collect,
  how many notifications are open, and how many may be.  A `Recorded` effect is
  an effect together with the `Span`s of each of its runs: its operations, its
  collections, its open notifications and those that were refused, each with the
  activity at its ends and the spans in it.

  * `Recorded.effect`: the effect, without the record; the recorded operations
    are those of `Effect` (`effect_notify`, `effect_set` and their like);
  * `Span.Sound`: the activities of a span are what its place among the other
    spans says, so that the counter of the open notifications is their number;
  * `Recorded.Balanced`: an effect leaves the activity as it found it, and its
    record is sound; one rule for every way of putting effects together.
-/
import DataBinding.Proofs.Reactive.Data
import DataBinding.Proofs.Reactive.Effects

namespace DataBinding

open Effect (Preserves)

variable {R σ α β : Type}

/-! ## Activities and spans -/

/-- What goes on at a moment of a run. -/
structure Activity where
  /-- The watchers that collect, innermost first. -/
  collecting : List WatcherId
  /-- The number of open notifications. -/
  depth : Nat
  /-- The greatest number of open notifications. -/
  limit : Nat

namespace Activity

/-- One more watcher collects. -/
def collect (a : Activity) (w : WatcherId) : Activity :=
  { a with collecting := w :: a.collecting }

/-- One more notification is open. -/
def deepen (a : Activity) : Activity :=
  { a with depth := a.depth + 1 }

end Activity

/-- What goes on in a store. -/
def Store.activity (s : Store R) : Activity :=
  ⟨s.collecting, s.depth, s.limit⟩

/-- A part of a run, with the activity at its ends and the parts in it. -/
inductive Span where
  /-- An operation, or the call of a callback, from its beginning to its end. -/
  | operation (before : Activity) (inner : List Span) (after : Activity)
  /-- What is done while a watcher collects, once it does and as long as it does. -/
  | collection (w : WatcherId) (first : Activity) (inner : List Span) (last : Activity)
  /-- The notification of a slot that has these subscribers. -/
  | notification (slot : SlotId) (subscribers : List WatcherId) (before : Activity)
      (inner : List Span) (after : Activity)
  /-- What is done while a notification of a slot is open, once it is and as long
      as it is. -/
  | pass (slot : SlotId) (first : Activity) (inner : List Span) (last : Activity)
  /-- The fault with which a notification of a slot is refused. -/
  | refusal (slot : SlotId) (there : Activity) (fault : Fault)

mutual

/-- The activities at the ends of a span, and of those in it. -/
def Span.activities : Span → List Activity
  | operation before inner after => before :: after :: activitiesAll inner
  | collection _ first inner last => first :: last :: activitiesAll inner
  | notification _ _ before inner after => before :: after :: activitiesAll inner
  | pass _ first inner last => first :: last :: activitiesAll inner
  | refusal _ there _ => [there]

/-- The activities at the ends of spans, and of those in them. -/
def Span.activitiesAll : List Span → List Activity
  | [] => []
  | span :: rest => activities span ++ activitiesAll rest

end

/-- The activities of a span are those of its place, at which `a` goes on: an
    operation ends as it began; a collection, or an open notification, adds one
    of its kind to what goes on around it.  The notification of subscribers is
    opened if there is room for it, and refused if there is none. -/
inductive Span.Sound : Activity → Span → Prop
  /-- An operation leaves what it found. -/
  | operation {a inner} (h : ∀ span ∈ inner, Sound a span) : Sound a (.operation a inner a)
  /-- A collection adds its watcher, until it ends. -/
  | collection {a w inner} (h : ∀ span ∈ inner, Sound (a.collect w) span) :
    Sound a (.collection w (a.collect w) inner (a.collect w))
  /-- There is nothing to do without subscribers, and else one of two things. -/
  | notification {a slot subscribers inner} (h : ∀ span ∈ inner, Sound a span)
    (hnone : subscribers = [] → inner = [])
    (hroom : subscribers ≠ [] → a.depth < a.limit →
      ∃ passes, inner = [.pass slot a.deepen passes a.deepen])
    (hfull : subscribers ≠ [] → a.depth = a.limit →
      inner = [.refusal slot a (.depthExceeded a.limit)]) :
    Sound a (.notification slot subscribers a inner a)
  /-- A notification is opened where there is room, and is counted until it ends. -/
  | pass {a slot inner} (hroom : a.depth < a.limit) (h : ∀ span ∈ inner, Sound a.deepen span) :
    Sound a (.pass slot a.deepen inner a.deepen)
  /-- A notification is refused where there is no room. -/
  | refusal {a slot} (hfull : a.depth = a.limit) :
    Sound a (.refusal slot a (.depthExceeded a.limit))

theorem Span.mem_activitiesAll {a : Activity} : ∀ {spans : List Span},
    a ∈ activitiesAll spans ↔ ∃ span ∈ spans, a ∈ span.activities
  | [] => by simp [activitiesAll]
  | span :: rest => by simp [activitiesAll, @mem_activitiesAll a rest]

/-- In a sound span there are at no moment more open notifications than may be. -/
theorem Span.Sound.depth_le {a : Activity} {span : Span} (h : span.Sound a)
    (ha : a.depth ≤ a.limit) : ∀ b ∈ span.activities, b.depth ≤ a.limit := by
  -- a span of the four kinds begins and ends with the same activity
  have hall : ∀ {a : Activity} {inner : List Span}, a.depth ≤ a.limit →
      (∀ span ∈ inner, ∀ b ∈ span.activities, b.depth ≤ a.limit) →
      ∀ b ∈ a :: a :: activitiesAll inner, b.depth ≤ a.limit := by
    intro a inner ha hinner b hb
    simp only [List.mem_cons, mem_activitiesAll] at hb
    obtain rfl | rfl | ⟨span, hspan, hb⟩ := hb
    · exact ha
    · exact ha
    · exact hinner span hspan b hb
  induction h with
  | operation _ ih => exact hall ha fun span hspan => ih span hspan ha
  | collection _ ih => exact hall ha fun span hspan => ih span hspan ha
  | notification _ _ _ _ ih => exact hall ha fun span hspan => ih span hspan ha
  | pass hroom _ ih => exact hall hroom fun span hspan => ih span hspan hroom
  | refusal hfull =>
    intro b hb
    obtain rfl := List.mem_singleton.1 hb
    exact Nat.le_of_eq hfull

/-! ## Recorded effects -/

/-- An effect with a record of its run. -/
def Recorded (R σ α : Type) := World R σ → (Except Stop α × World R σ) × List Span

namespace Recorded

/-- The effect, without the record. -/
def effect (a : Recorded R σ α) : Effect R σ α := fun u => (a u).1

/-- An effect of which nothing is recorded. -/
def plain (a : Effect R σ α) : Recorded R σ α := fun u => (a u, [])

/-- Run an effect and then another one on its value; the records follow each other. -/
def andThen (a : Recorded R σ α) (f : α → Recorded R σ β) : Recorded R σ β := fun u =>
  match a u with
  | ((.ok x, u), spans) => ((f x u).1, spans ++ (f x u).2)
  | ((.error e, u), spans) => ((.error e, u), spans)

instance : Monad (Recorded R σ) where
  pure x := plain (pure x)
  bind := andThen

/-- Change what an effect answers; the record is the same. -/
def through (f : Effect R σ α → Effect R σ β) (body : Recorded R σ α) : Recorded R σ β := fun u =>
  (f body.effect u, (body u).2)

/-- Run an effect on every item, in order, up to the first that stops. -/
def each (f : α → Recorded R σ Unit) : List α → Recorded R σ Unit
  | [] => pure ()
  | x :: rest => do f x; each f rest

/-- Record an operation. -/
def operation (body : Recorded R σ α) : Recorded R σ α := fun u =>
  (body.effect u, [.operation u.store.activity (body u).2 (body.effect u).2.store.activity])

/-- Let a watcher collect for the time of an effect, and record it. -/
def whileCollecting (w : WatcherId) (body : Recorded R σ α) : Recorded R σ α := fun u =>
  let entered := { u with store.collecting := w :: u.store.collecting }
  (Effect.collecting w body.effect u,
    [.collection w entered.store.activity (body entered).2
      (body.effect entered).2.store.activity])

/-- Record the notification of a slot that has these subscribers. -/
def notification (slot : SlotId) (subscribers : List WatcherId) (body : Recorded R σ α) :
    Recorded R σ α := fun u =>
  (body.effect u, [.notification slot subscribers u.store.activity (body u).2
    (body.effect u).2.store.activity])

/-- Run an effect as one more open notification of a slot, and record it. -/
def passing (slot : SlotId) (body : Recorded R σ α) : Recorded R σ α := fun u =>
  let entered := { u with store.depth := u.store.depth + 1 }
  (Effect.notifying body.effect u,
    [.pass slot entered.store.activity (body entered).2 (body.effect entered).2.store.activity])

/-- Refuse the notification of a slot, and record it. -/
def refuse (slot : SlotId) (f : Fault) : Recorded R σ α := fun u =>
  (Effect.fail f u, [.refusal slot u.store.activity f])

/-! ## The operations, recorded -/

/-- A new watcher. -/
def watch (root : MappingId) (expression : String) (reaction : R) : Recorded R σ WatcherId :=
  operation do
    let w ← plain (Effect.onStore fun s => s.newWatcher root expression reaction)
    let v ← whileCollecting w (plain (Effect.evaluate w ⟨root, expression, reaction, .null, 0⟩))
    plain (Effect.remember w v)
    pure w

/-- Let a watcher collect for the time of an effect. -/
def collecting (w : WatcherId) (body : Recorded R σ α) : Recorded R σ α :=
  operation (whileCollecting w body)

section

variable (react : R → Value → Recorded R σ Unit)

/-- Update a watcher. -/
def updateWatcher (w : WatcherId) : Recorded R σ Unit :=
  operation do
    match (← plain Effect.store).watchers[w]? with
    | none => pure ()
    | some watcher =>
      let v ← plain (Effect.evaluate w watcher)
      if v.equal watcher.value then pure ()
      else
        react watcher.reaction v
        plain (Effect.remember w v)

/-- Update the watchers that are subscribed to a slot. -/
def notify (slot : SlotId) : Recorded R σ Unit := do
  let s ← plain Effect.store
  notification slot (s.subscribers slot) (
    match s.subscribers slot with
    | [] => pure ()
    | subscribers =>
      if s.limit < s.depth + 1 then refuse slot (.depthExceeded s.limit)
      else passing slot (each (updateWatcher react) subscribers))

/-- Write a value under a key of a mapping. -/
def set (m : MappingId) (key : String) (v : Value) : Recorded R σ Unit :=
  operation do
    match (← plain Effect.store).slot? m key with
    | none => plain (Effect.modifyStore fun s => s.install m key v)
    | some slot =>
      plain (Effect.modifyStore fun s =>
        (if v.isMapping then s.install m key v else s).write slot v)
      notify react slot

/-- Write a value through an expression. -/
def setPath (root : MappingId) (expression : String) (v : Value) : Recorded R σ Unit :=
  operation do
    let (m, key) ← plain (Effect.reading fun s =>
      let (visited, result) := s.target root expression
      (result, s.trackAll visited))
    set react m key v

end

/-! ## The effects are the same -/

@[simp]
theorem effect_plain (a : Effect R σ α) : (plain a).effect = a := rfl

@[simp]
theorem effect_pure (x : α) : (pure x : Recorded R σ α).effect = pure x := rfl

@[simp]
theorem effect_bind (a : Recorded R σ α) (f : α → Recorded R σ β) :
    (a >>= f).effect = a.effect >>= fun x => (f x).effect := by
  funext u
  change (andThen a f u).1 = Effect.andThen a.effect (fun x => (f x).effect) u
  unfold andThen Effect.andThen effect
  rcases a u with ⟨⟨_ | _, _⟩, _⟩ <;> rfl

@[simp]
theorem effect_through (f : Effect R σ α → Effect R σ β) (body : Recorded R σ α) :
    (through f body).effect = f body.effect := rfl

@[simp]
theorem effect_operation (body : Recorded R σ α) : (operation body).effect = body.effect := rfl

@[simp]
theorem effect_whileCollecting (w : WatcherId) (body : Recorded R σ α) :
    (whileCollecting w body).effect = Effect.collecting w body.effect := rfl

@[simp]
theorem effect_notification (slot : SlotId) (subscribers : List WatcherId)
    (body : Recorded R σ α) : (notification slot subscribers body).effect = body.effect := rfl

@[simp]
theorem effect_passing (slot : SlotId) (body : Recorded R σ α) :
    (passing slot body).effect = Effect.notifying body.effect := rfl

@[simp]
theorem effect_refuse (slot : SlotId) (f : Fault) :
    (refuse slot f : Recorded R σ α).effect = Effect.fail f := rfl

@[simp]
theorem effect_each (f : α → Recorded R σ Unit) : ∀ items,
    (each f items).effect = Effect.each (fun x => (f x).effect) items
  | [] => rfl
  | x :: rest => by rw [each, effect_bind, Effect.each, effect_each f rest]

theorem effect_ite {p : Prop} [Decidable p] (a b : Recorded R σ α) :
    (if p then a else b).effect = if p then a.effect else b.effect := by
  split <;> rfl

@[simp]
theorem effect_watch (root : MappingId) (expression : String) (reaction : R) :
    (watch root expression reaction : Recorded R σ WatcherId).effect =
      Effect.watch root expression reaction := by
  simp only [watch, Effect.watch, effect_operation, effect_bind, effect_plain,
    effect_whileCollecting, effect_pure]

@[simp]
theorem effect_collecting (w : WatcherId) (body : Recorded R σ α) :
    (collecting w body).effect = Effect.collecting w body.effect := rfl

section

variable (react : R → Value → Recorded R σ Unit)

@[simp]
theorem effect_updateWatcher (w : WatcherId) :
    (updateWatcher react w).effect =
      Effect.updateWatcher (fun label v => (react label v).effect) w := by
  unfold updateWatcher Effect.updateWatcher
  rw [effect_operation, effect_bind, effect_plain]
  refine congrArg _ (funext fun s => ?_)
  cases s.watchers[w]? with
  | none => rfl
  | some watcher => simp only [effect_bind, effect_plain, effect_ite, effect_pure]

@[simp]
theorem effect_notify (slot : SlotId) :
    (notify react slot).effect = Effect.notify (fun label v => (react label v).effect) slot := by
  unfold notify Effect.notify
  rw [effect_bind, effect_plain]
  refine congrArg _ (funext fun s => ?_)
  rw [effect_notification]
  cases s.subscribers slot with
  | nil => rfl
  | cons w ws =>
    simp only [effect_ite, effect_refuse, effect_passing, effect_each, effect_updateWatcher]

@[simp]
theorem effect_set (m : MappingId) (key : String) (v : Value) :
    (set react m key v).effect =
      Effect.set (fun label v => (react label v).effect) m key v := by
  unfold set Effect.set
  rw [effect_operation, effect_bind, effect_plain]
  refine congrArg _ (funext fun s => ?_)
  cases s.slot? m key with
  | none => rfl
  | some slot => simp only [effect_bind, effect_plain, effect_notify]

@[simp]
theorem effect_setPath (root : MappingId) (expression : String) (v : Value) :
    (setPath react root expression v).effect =
      Effect.setPath (fun label v => (react label v).effect) root expression v := by
  unfold setPath Effect.setPath
  rw [effect_operation, effect_bind, effect_plain]
  refine congrArg _ (funext fun target => ?_)
  rw [effect_set]

end

end Recorded

/-! ## Effects that leave the activity alone -/

/-- Whatever goes on before an effect goes on after it. -/
abbrev Effect.Idle (a : Effect R σ α) : Prop :=
  ∀ activity, Preserves (fun u => u.store.activity = activity) a

namespace Effect.Idle

theorem modifyStore {f : Store R → Store R} (h : ∀ s, (f s).activity = s.activity) :
    Idle (modifyStore f : Effect R σ Unit) :=
  fun _ => Preserves.modifyStore fun u hu => (h u.store).trans hu

theorem onStore {f : Store R → α × Store R} (h : ∀ s, (f s).2.activity = s.activity) :
    Idle (onStore f : Effect R σ α) :=
  fun _ => Preserves.onStore fun u hu => (h u.store).trans hu

theorem reading {f : Store R → Except PathError α × Store R}
    (h : ∀ s, (f s).2.activity = s.activity) : Idle (reading f : Effect R σ α) :=
  fun _ => Preserves.reading fun u hu => (h u.store).trans hu

end Effect.Idle

namespace Store

@[simp]
theorem activity_trackAll (s : Store R) (slots : List SlotId) :
    (s.trackAll slots).activity = s.activity := by
  rw [trackAll_eq]
  rfl

@[simp]
theorem activity_track (s : Store R) (slot : SlotId) : (s.track slot).activity = s.activity :=
  activity_trackAll s [slot]

end Store

namespace Effect

theorem idle_get? (m : MappingId) (key : String) :
    Idle (get? m key : Effect R σ (Option Value)) := by
  refine .onStore fun s => ?_
  split
  · rfl
  · exact s.activity_track _

theorem idle_getPath (root : MappingId) (expression : String) :
    Idle (getPath root expression : Effect R σ Value) := by
  refine .reading fun s => ?_
  rw [Store.evaluate_snd, Store.activity_trackAll]

theorem idle_content (root : MappingId) (text : String) :
    Idle (content root text : Effect R σ String) := by
  refine .reading fun s => ?_
  obtain ⟨slots, h⟩ := Store.exists_trackAll_fillPieces root (Template.pieces text) s
  rw [show (s.fill root text).2 = s.trackAll slots from h, Store.activity_trackAll]

theorem idle_evaluate (w : WatcherId) (watcher : Watcher R) :
    Idle (evaluate w watcher : Effect R σ Value) := by
  intro activity
  refine Preserves.bind ?_ fun _ => idle_getPath _ _ activity
  exact Idle.modifyStore (fun _ => rfl) activity

end Effect

/-! ## Balanced effects -/

/-- In a world, an effect leaves what goes on as it found it, and its record is
    sound. -/
def Recorded.BalancedAt (a : Recorded R σ α) (u : World R σ) : Prop :=
  (a.effect u).2.store.activity = u.store.activity ∧ ∀ span ∈ (a u).2, span.Sound u.store.activity

/-- An effect is balanced in every world with no more open notifications than may
    be. -/
def Recorded.Balanced (a : Recorded R σ α) : Prop :=
  ∀ u : World R σ, u.store.depth ≤ u.store.limit → a.BalancedAt u

namespace Recorded.Balanced

theorem plain {a : Effect R σ α} (h : a.Idle) : Balanced (plain a) :=
  fun u _ => ⟨h _ u rfl, fun _ hspan => absurd hspan List.not_mem_nil⟩

theorem pure (x : α) : Balanced (pure x : Recorded R σ α) :=
  plain fun _ => Preserves.pure x

/-- What is done next depends on the present store. -/
theorem ofStore {f : Store R → Recorded R σ α}
    (h : ∀ u : World R σ, u.store.depth ≤ u.store.limit → (f u.store).BalancedAt u) :
    Balanced (Recorded.plain Effect.store >>= f) := h

theorem bind {a : Recorded R σ α} {f : α → Recorded R σ β} (ha : Balanced a)
    (hf : ∀ x, Balanced (f x)) : Balanced (a >>= f) := by
  intro u hu
  obtain ⟨hactivity, hsound⟩ := ha u hu
  change (andThen a f u).1.2.store.activity = _ ∧ ∀ span ∈ (andThen a f u).2, _
  unfold andThen
  unfold effect at hactivity
  rcases hau : a u with ⟨⟨e | x, u₁⟩, spans⟩
  · rw [hau] at hactivity hsound
    exact ⟨hactivity, hsound⟩
  · rw [hau] at hactivity hsound
    have hu₁ : u₁.store.activity = u.store.activity := hactivity
    have hle : u₁.store.activity.depth ≤ u₁.store.activity.limit := by
      rw [hu₁]
      exact hu
    obtain ⟨hactivity₁, hsound₁⟩ := hf x u₁ hle
    rw [hu₁] at hactivity₁ hsound₁
    refine ⟨hactivity₁, fun span hspan => ?_⟩
    exact (List.mem_append.1 hspan).elim (hsound span) (hsound₁ span)

theorem through {f : Effect R σ α → Effect R σ β} {body : Recorded R σ α} (h : Balanced body)
    (hf : ∀ u, (f body.effect u).2 = (body.effect u).2) : Balanced (through f body) := by
  intro u hu
  obtain ⟨hactivity, hsound⟩ := h u hu
  exact ⟨(congrArg (fun v => v.store.activity) (hf u)).trans hactivity, hsound⟩

theorem each {f : α → Recorded R σ Unit} (h : ∀ x, Balanced (f x)) :
    ∀ items, Balanced (each f items)
  | [] => pure ()
  | x :: rest => (h x).bind fun _ => each h rest

theorem operation {body : Recorded R σ α} (h : Balanced body) : Balanced (operation body) := by
  intro u hu
  obtain ⟨hactivity, hsound⟩ := h u hu
  refine ⟨hactivity, fun span hspan => ?_⟩
  obtain rfl := List.mem_singleton.1 hspan
  rw [hactivity]
  exact .operation hsound

theorem whileCollecting (w : WatcherId) {body : Recorded R σ α} (h : Balanced body) :
    Balanced (whileCollecting w body) := by
  intro u hu
  obtain ⟨hactivity, hsound⟩ := h { u with store.collecting := w :: u.store.collecting } hu
  constructor
  · -- the watcher that is taken off again is the one that was put on
    exact congrArg (fun a => { a with collecting := a.collecting.tail }) hactivity
  · intro span hspan
    obtain rfl := List.mem_singleton.1 hspan
    rw [hactivity]
    exact .collection hsound

/-- A notification without subscribers comes to nothing; one with subscribers is
    opened, or else refused. -/
theorem notification {slot : SlotId} {subscribers : List WatcherId} {body : Recorded R σ α}
    {u : World R σ} (h : body.BalancedAt u) (hnone : subscribers = [] → (body u).2 = [])
    (hroom : subscribers ≠ [] → u.store.depth < u.store.limit →
      ∃ passes, (body u).2 = [.pass slot u.store.activity.deepen passes u.store.activity.deepen])
    (hfull : subscribers ≠ [] → u.store.depth = u.store.limit →
      (body u).2 = [.refusal slot u.store.activity (.depthExceeded u.store.limit)]) :
    (notification slot subscribers body).BalancedAt u := by
  obtain ⟨hactivity, hsound⟩ := h
  refine ⟨hactivity, fun span hspan => ?_⟩
  obtain rfl := List.mem_singleton.1 hspan
  rw [hactivity]
  exact .notification hsound hnone hroom hfull

theorem passing_spans (slot : SlotId) {body : Recorded R σ α} (h : Balanced body) {u : World R σ}
    (hroom : u.store.depth < u.store.limit) : ∃ passes,
    (Recorded.passing slot body u).2 =
      [.pass slot u.store.activity.deepen passes u.store.activity.deepen] := by
  obtain ⟨hactivity, -⟩ := h { u with store.depth := u.store.depth + 1 } hroom
  refine ⟨(body { u with store.depth := u.store.depth + 1 }).2, ?_⟩
  exact congrArg (fun a => [Span.pass slot u.store.activity.deepen _ a]) hactivity

/-- Where there is room for it, a notification is counted and counted off again. -/
theorem passing (slot : SlotId) {body : Recorded R σ α} (h : Balanced body) {u : World R σ}
    (hroom : u.store.depth < u.store.limit) : (passing slot body).BalancedAt u := by
  obtain ⟨hactivity, hsound⟩ := h { u with store.depth := u.store.depth + 1 } hroom
  constructor
  · -- the counter is not zero when one is taken off
    exact congrArg (fun a => { a with depth := a.depth - 1 }) hactivity
  · intro span hspan
    obtain rfl := List.mem_singleton.1 hspan
    rw [hactivity]
    exact .pass hroom hsound

theorem watch (root : MappingId) (expression : String) (reaction : R) :
    Balanced (watch root expression reaction : Recorded R σ WatcherId) := by
  refine operation ((plain (.onStore fun _ => rfl)).bind fun w => ?_)
  refine (whileCollecting w (plain (Effect.idle_evaluate w _))).bind fun v => ?_
  exact (plain (.modifyStore fun _ => rfl)).bind fun _ => pure w

theorem collecting (w : WatcherId) {body : Recorded R σ α} (h : Balanced body) :
    Balanced (collecting w body) :=
  operation (whileCollecting w h)

variable {react : R → Value → Recorded R σ Unit} (hreact : ∀ label v, Balanced (react label v))

include hreact

theorem updateWatcher (w : WatcherId) : Balanced (updateWatcher react w) := by
  refine operation ((plain fun _ => Preserves.store).bind fun s => ?_)
  split
  · exact pure ()
  next watcher _ =>
    refine (plain (Effect.idle_evaluate w watcher)).bind fun v => ?_
    split
    · exact pure ()
    · exact (hreact _ v).bind fun _ => plain (.modifyStore fun _ => rfl)

/-- A notification is opened if there is room for it, and else refused. -/
theorem notify (slot : SlotId) : Balanced (notify react slot) := by
  refine ofStore fun u hu => ?_
  cases hsubscribers : u.store.subscribers slot with
  | nil =>
    refine notification (pure () u hu) (fun _ => rfl) ?_ ?_
    · exact fun h => absurd rfl h
    · exact fun h => absurd rfl h
  | cons w ws =>
    dsimp only
    split
    next hfull =>
      have hle : u.store.limit ≤ u.store.depth := Nat.lt_succ_iff.1 hfull
      refine notification ⟨rfl, fun span hspan => ?_⟩ (fun h => nomatch h) ?_ fun _ _ => rfl
      · obtain rfl := List.mem_singleton.1 hspan
        exact .refusal (Nat.le_antisymm hu hle)
      · exact fun _ hroom => absurd hroom (Nat.not_lt.2 hle)
    next hroom =>
      have hlt : u.store.depth < u.store.limit := Nat.lt_of_succ_le (Nat.not_lt.1 hroom)
      have hpassing := passing slot (each (updateWatcher hreact) (w :: ws)) hlt
      refine notification hpassing (fun h => nomatch h) ?_ ?_
      · exact fun _ _ => passing_spans slot (each (updateWatcher hreact) (w :: ws)) hlt
      · exact fun _ hfull => absurd hfull (Nat.ne_of_lt hlt)

theorem set (m : MappingId) (key : String) (v : Value) : Balanced (set react m key v) := by
  refine operation ((plain fun _ => Preserves.store).bind fun s => ?_)
  split
  · exact plain (.modifyStore fun _ => rfl)
  · refine (plain (.modifyStore fun s => ?_)).bind fun _ => notify hreact _
    split <;> rfl

theorem setPath (root : MappingId) (expression : String) (v : Value) :
    Balanced (setPath react root expression v) := by
  refine operation ((plain (.reading fun s => ?_)).bind fun target => set hreact _ _ v)
  exact s.activity_trackAll _

end Recorded.Balanced

end DataBinding
