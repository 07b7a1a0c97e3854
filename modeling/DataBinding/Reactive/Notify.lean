/-
  Writing reactive data, and the updates that follow.

  A write to a slot notifies its dependency set: the watchers subscribed before
  the write are updated in order, up to the first that stops.  A watcher that is
  updated evaluates its expression once more and, if the value is another one
  than it saw last, reacts to it; it has seen the value only once its reaction
  ended without a fault.  Reactions may write in turn; the number of open
  notifications is bounded.

  * `Effect.set` writes under a key of a mapping, `Effect.setPath` through an
    expression;
  * `Effect.notify` and `Effect.updateWatcher` are one pass and one update;
  * `Effect.watch` makes a watcher, which collects while it evaluates its
    expression for the first time; `Effect.collecting` collects for any effect.

  All are over what reactions do, `react`.
-/
import DataBinding.Reactive.Effect
import DataBinding.Reactive.Template

namespace DataBinding.Effect

variable {R σ α : Type}

/-! ## Reading -/

/-- The value under a key of a mapping, if the key is there; the watcher that
    collects subscribes to its slot. -/
def get? (m : MappingId) (key : String) : Effect R σ (Option Value) :=
  onStore fun s =>
    match s.slot? m key with
    | none => (none, s)
    | some slot => (some (s.valueAt slot), s.track slot)

/-- The value of an expression. -/
def getPath (root : MappingId) (expression : String) : Effect R σ Value :=
  reading fun s => s.evaluate root expression

/-- A text with the displays of the values in the place of its placeholders. -/
def content (root : MappingId) (text : String) : Effect R σ String :=
  reading fun s => s.fill root text

/-! ## Collecting -/

/-- Let a watcher collect for the time of an effect. -/
def collecting (w : WatcherId) (body : Effect R σ α) : Effect R σ α :=
  within (fun s => { s with collecting := w :: s.collecting })
    (fun s => { s with collecting := s.collecting.tail }) body

/-- Evaluate the expression of a watcher, and count it. -/
def evaluate (w : WatcherId) (watcher : Watcher R) : Effect R σ Value := do
  modifyStore fun s =>
    s.updateWatcher w fun watcher => { watcher with evaluations := watcher.evaluations + 1 }
  getPath watcher.root watcher.expression

/-- The value that a watcher has seen last. -/
def remember (w : WatcherId) (v : Value) : Effect R σ Unit :=
  modifyStore fun s => s.updateWatcher w fun watcher => { watcher with value := v }

/-- A new watcher, subscribed to every slot on the way of its expression. -/
def watch (root : MappingId) (expression : String) (reaction : R) : Effect R σ WatcherId := do
  let w ← onStore fun s => s.newWatcher root expression reaction
  let v ← collecting w (evaluate w ⟨root, expression, reaction, .null, 0⟩)
  remember w v
  pure w

/-! ## Notifying -/

variable (react : R → Value → Effect R σ Unit)

/-- Evaluate the expression of a watcher once more, and let it react if the value
    is another one than it saw last. -/
def updateWatcher (w : WatcherId) : Effect R σ Unit := do
  match (← store).watchers[w]? with
  | none => pure ()
  | some watcher =>
    let v ← evaluate w watcher
    if v.equal watcher.value then pure ()
    else
      react watcher.reaction v
      remember w v

/-- Run an effect as one more open notification. -/
def notifying (body : Effect R σ α) : Effect R σ α :=
  within (fun s => { s with depth := s.depth + 1 }) (fun s => { s with depth := s.depth - 1 }) body

/-- Update the watchers that are subscribed to a slot. -/
def notify (slot : SlotId) : Effect R σ Unit := do
  let s ← store
  match s.subscribers slot with
  | [] => pure ()
  | subscribers =>
    if s.limit < s.depth + 1 then fail (.depthExceeded s.limit)
    else notifying (each (updateWatcher react) subscribers)

/-! ## Writing -/

/-- Write a value under a key of a mapping, and notify the slot that was there.
    A mapping as value gets a new slot in the place of the old one; both hold
    it. -/
def set (m : MappingId) (key : String) (v : Value) : Effect R σ Unit := do
  match (← store).slot? m key with
  | none => modifyStore fun s => s.install m key v
  | some slot =>
    modifyStore fun s => (if v.isMapping then s.install m key v else s).write slot v
    notify react slot

/-- Write a value through an expression. -/
def setPath (root : MappingId) (expression : String) (v : Value) : Effect R σ Unit := do
  let (m, key) ← reading fun s =>
    let (visited, result) := s.target root expression
    (result, s.trackAll visited)
  set react m key v

end DataBinding.Effect
