/-
  Courses: what is done with data and view models, moment by moment.

  A `Course` runs the operations on reactive data and on view models; what it does next
  may depend on everything there is, faults included.  Operations are `Quiet`, which
  call no callback, or `Lively`.  A table gives a course for every callback of the user;
  the others, which render and assign, do what they always do.

  * `Course.run` runs a course on an engine, `Course.engine` is the engine for a table
    in which callbacks can be nested so deep;
  * `Course.tell` also keeps a `Timeline`: the worlds that the course comes to, those
    within its callbacks included, in the order in which it does;
  * `Course.tell_projects`, `Course.calls_projects`: a run with its timeline is the run.
-/
import DataBinding.Proofs.Reactive.Equality
import DataBinding.Proofs.Reactive.Projection
import DataBinding.Proofs.View.Routine

namespace DataBinding

open Effect (mapFault attempt fail each Projects)

/-! ## Operations -/

/-- An operation that calls no callback, and what it answers. -/
inductive Quiet : Type → Type where
  /-- Read the value under a key. -/
  | get (m : MappingId) (key : String) : Quiet (Option Value)
  /-- Read the value of an expression. -/
  | getPath (root : MappingId) (expression : String) : Quiet Value
  /-- Fill in the placeholders of a text. -/
  | content (root : MappingId) (text : String) : Quiet String
  /-- Turn plain data into a reactive value. -/
  | observe (j : Json) (proper : j.Proper) : Quiet Value
  /-- Make a watcher. -/
  | watch (root : MappingId) (expression : String) (reaction : Reaction) : Quiet WatcherId
  /-- Make a dependency set that belongs to no key. -/
  | newSet : Quiet SlotId
  /-- Subscribe a watcher to a slot. -/
  | subscribe (slot : SlotId) (w : WatcherId) : Quiet Unit
  /-- Subscribe the watcher that collects to a slot. -/
  | track (slot : SlotId) : Quiet Unit
  /-- Say how many notifications may be open. -/
  | limit (n : Nat) : Quiet Unit
  /-- Make a view model, and mount it. -/
  | mount (options : Options Script) (proper : options.data.Proper) : Quiet ViewModelId
  /-- Bind everything below a node. -/
  | compile (id : ViewModelId) (vm : ViewModel) (node : NodeId) : Quiet Unit
  /-- Bind a node by a directive. -/
  | bind (id : ViewModelId) (vm : ViewModel) (node : NodeId) (expression : String)
      (directive : Directive) : Quiet Unit
  /-- Read a property. -/
  | property (vm : ViewModel) (key : String) : Quiet Value
  /-- Read the value of an expression on the data of a view model. -/
  | value (vm : ViewModel) (expression : String) : Quiet Value
  /-- Change documents and what is kept; view models stay what they were made. -/
  | arrange (change : Stage → Stage)
      (keeps : ∀ s, (change s).viewModels = s.viewModels) : Quiet Unit

/-- Do what calls no callback, `depth` being how deep nodes may be nested. -/
def Quiet.perform (depth : Nat) {α : Type} : Quiet α → Play α
  | get m key => Effect.get? m key
  | getPath root expression => Effect.getPath root expression
  | content root text => Effect.content root text
  | observe j _ => Effect.onStore fun s => s.observe j
  | watch root expression reaction => Effect.watch root expression reaction
  | newSet => Effect.onStore fun s => s.newSlot .undefined
  | subscribe slot w => Effect.modifyStore fun s => s.subscribe slot w
  | track slot => Effect.modifyStore fun s => s.track slot
  | limit n => Effect.modifyStore fun s => { s with limit := n }
  | mount options _ => Play.mount depth options
  | compile id vm node => Play.compile id vm depth node
  | bind id vm node expression directive => Play.bindDirective id vm node expression directive
  | property vm key => Play.property vm key
  | value vm expression => Play.getPath vm expression
  | arrange change _ => Effect.modifyStage change

/-- An operation that may call callbacks. -/
inductive Lively where
  /-- Write under a key. -/
  | set (m : MappingId) (key : String) (v : Value)
  /-- Write through an expression. -/
  | setPath (root : MappingId) (expression : String) (v : Value)
  /-- Notify a slot. -/
  | notify (slot : SlotId)
  /-- Update a watcher. -/
  | update (w : WatcherId)
  /-- Write a property. -/
  | setProperty (vm : ViewModel) (key : String) (v : Value)
  /-- Write through an expression on the data of a view model. -/
  | assign (vm : ViewModel) (expression : String) (v : Value)
  /-- Call a method. -/
  | callMethod (id : ViewModelId) (vm : ViewModel) (name : String) (event : Event)
  /-- Let an event happen on a node. -/
  | dispatch (document : DocumentId) (node : NodeId) (event : Event)
  /-- Set the current value of an element as a user does. -/
  | input (document : DocumentId) (node : NodeId) (text : String)

/-- Do what may call callbacks, on an engine. -/
def Lively.perform (engine : Engine) : Lively → Play Unit
  | set m key v => Effect.set engine.react m key v
  | setPath root expression v => Effect.setPath engine.react root expression v
  | notify slot => Effect.notify engine.react slot
  | update w => Effect.updateWatcher engine.react w
  | setProperty vm key v => Play.setProperty engine vm key v
  | assign vm expression v => Play.setPath engine vm expression v
  | callMethod id vm name event => Play.callMethod engine id vm name event
  | dispatch document node event => Play.dispatch engine document node event
  | input document node text => Play.input engine document node text

/-! ## Courses -/

/-- What is done, by a callback or from outside. -/
inductive Course : Type 1 where
  /-- End, with a fault or without. -/
  | done (result : Except Fault Unit)
  /-- Go on with what there is. -/
  | look (next : World Reaction Stage → Course)
  /-- Do what calls no callback. -/
  | quiet {α : Type} (o : Quiet α) (next : Except Fault α → Course)
  /-- Do what may call callbacks. -/
  | lively (o : Lively) (next : Except Fault Unit → Course)
  /-- Let a watcher collect for the time of a course. -/
  | collect (w : WatcherId) (body : Course) (next : Except Fault Unit → Course)

namespace Course

/-- Run a course on an engine. -/
def run (engine : Engine) : Course → Play Unit
  | done result => Routine.finish result
  | look next => fun u => run engine (next u) u
  | quiet o next => do run engine (next (← attempt (o.perform engine.depth)))
  | lively o next => do run engine (next (← attempt (o.perform engine)))
  | collect w body next => do
    run engine (next (← attempt (Effect.collecting w (run engine body))))

/-- The engine for a table of the user's callbacks, in which callbacks can be nested so
    deep. -/
def engine (user : Callback → Course) : Nat → Engine
  | 0 => ⟨fun _ => .exhausted, 0⟩
  | depth + 1 =>
    ⟨fun callback =>
      if callback.ofUser then run (engine user depth) (user callback)
      else Play.runCallback (engine user depth) callback,
    depth + 1⟩

@[simp]
theorem depth_engine (user : Callback → Course) (depth : Nat) :
    (engine user depth).depth = depth := by
  cases depth <;> rfl

end Course

/-! ## Timelines -/

/-- A stage with the worlds that a run has come to, the first one first. -/
structure Timeline where
  /-- The stage. -/
  stage : Stage
  /-- The worlds. -/
  moments : List (World Reaction Stage)

/-- An effect on a stage with a timeline. -/
abbrev Timed (α : Type) := Effect Reaction Timeline α

namespace World

/-- A world as it is now. -/
def now (u : World Reaction Timeline) : World Reaction Stage :=
  u.map Timeline.stage

/-- A world at the beginning of a timeline. -/
def untimed (u : World Reaction Stage) : World Reaction Timeline :=
  ⟨u.store, ⟨u.stage, []⟩⟩

end World

namespace Timed

/-- An effect within which there are no moments. -/
def plain {α : Type} (a : Play α) : Timed α := fun u =>
  let (result, v) := a u.now
  (result, ⟨v.store, ⟨v.stage, u.stage.moments⟩⟩)

/-- This is a moment. -/
def mark : Timed Unit := fun u =>
  (.ok (), { u with stage.moments := u.stage.moments ++ [u.now] })

section

variable (call : Callback → Timed Unit)

/-- What watchers do. -/
def react (reaction : Reaction) (v : Value) : Timed Unit :=
  call (.reaction reaction v)

/-- Let an event happen on a node. -/
def dispatch (document : DocumentId) (node : NodeId) (event : Event) : Timed Unit := do
  let d ← plain (Play.documentAt document)
  match d.node? node with
  | none => fail (.node (.notFound node))
  | some _ =>
    let event := { event with value := event.value.or (d.value? node) }
    mapFault (.listener event.type)
      (each (fun listener => call (.listener listener event)) (d.listeners node event.type))

/-- A callback that is not the user's. -/
def runCallback : Callback → Timed Unit
  | .reaction (.render document node facet) v => plain (Play.rerender document node facet v)
  | .reaction (.fill document node root template) _ => do
    let text ← Effect.content root template
    plain (Play.rerender document node .text (.string text))
  | .listener (.assign root expression) event =>
    Effect.setPath (react call) root expression (.string (event.value.getD ""))
  | .listener (.method id body) event => call (.method id body event)
  | .reaction (.script _) _ | .listener (.script _) _ | .method .. => pure ()

end

end Timed

open Timed (plain mark react)

/-- Do what may call callbacks, which are given. -/
def Lively.tell (call : Callback → Timed Unit) : Lively → Timed Unit
  | set m key v => Effect.set (react call) m key v
  | setPath root expression v => Effect.setPath (react call) root expression v
  | notify slot => Effect.notify (react call) slot
  | update w => Effect.updateWatcher (react call) w
  | setProperty vm key v =>
    if vm.properties.contains key then mapFault .binding (Effect.set (react call) vm.data key v)
    else fail (.unknownProperty key)
  | assign vm expression v => mapFault .binding (Effect.setPath (react call) vm.data expression v)
  | callMethod id vm name event =>
    match Keyed.get? vm.methods name with
    | none => fail (.unknownMethod name)
    | some body => call (.method id body event)
  | dispatch document node event => Timed.dispatch call document node event
  | input document node text => do
    plain (Play.edit document fun d => d.setValue node text)
    Timed.dispatch call document node ⟨"input", some text⟩

namespace Course

/-- Run a course with its timeline, `depth` being how deep nodes may be nested and
    `call` what callbacks do.  Whatever it does next, it has come to a moment. -/
def tell (depth : Nat) (call : Callback → Timed Unit) : Course → Timed Unit
  | done result => do
    mark
    plain (Routine.finish result)
  | look next => do
    mark
    fun u => tell depth call (next u.now) u
  | quiet o next => do
    mark
    tell depth call (next (← attempt (plain (o.perform depth))))
  | lively o next => do
    mark
    tell depth call (next (← attempt (o.tell call)))
  | collect w body next => do
    mark
    tell depth call (next (← attempt (Effect.collecting w (tell depth call body))))

/-- The callbacks of an engine; each is called at a moment. -/
def calls (user : Callback → Course) : Nat → Callback → Timed Unit
  | 0, _ => do
    mark
    .exhausted
  | depth + 1, callback => do
    mark
    if callback.ofUser then tell depth (calls user depth) (user callback)
    else Timed.runCallback (calls user depth) callback

end Course

/-! ## Runs with their timelines are the runs -/

/-- An effect does as a play does, beside the timeline. -/
abbrev Timed.Plays {α : Type} (a' : Timed α) (a : Play α) : Prop :=
  Projects Timeline.stage a' a

namespace Timed

theorem plain_plays {α : Type} (a : Play α) : Plays (plain a) a := fun _ => rfl

theorem marked {α : Type} {a' : Timed α} {a : Play α} (h : Plays a' a) :
    Plays (mark >>= fun _ => a') a :=
  fun u => h { u with stage.moments := u.stage.moments ++ [u.now] }

variable {call : Callback → Timed Unit} {engine : Engine}
  (h : ∀ callback, Plays (call callback) (engine.call callback))

include h

theorem dispatch_plays (document : DocumentId) (node : NodeId) (event : Event) :
    Plays (dispatch call document node event) (Play.dispatch engine document node event) := by
  refine (plain_plays (Play.documentAt document)).bind fun d => ?_
  cases d.node? node with
  | none => exact .fail _
  | some _ => exact (Projects.each (fun listener => h _) _).mapFault _

theorem runCallback_plays {callback : Callback} (huser : callback.ofUser = false) :
    Plays (runCallback call callback) (Play.runCallback engine callback) := by
  match callback with
  | .reaction (.render document node facet) v => exact plain_plays _
  | .reaction (.fill document node root template) _ =>
    exact (Projects.reading _).bind fun text => plain_plays _
  | .listener (.assign root expression) event => exact .setPath (fun _ _ => h _) root expression _
  | .listener (.method id body) event => exact h (.method id body event)
  | .reaction (.script _) _ | .listener (.script _) _ | .method _ _ _ => cases huser

theorem lively_plays : ∀ o : Lively, Plays (o.tell call) (o.perform engine)
  | .set m key v => .set (fun _ _ => h _) m key v
  | .setPath root expression v => .setPath (fun _ _ => h _) root expression v
  | .notify slot => .notify (fun _ _ => h _) slot
  | .update w => .updateWatcher (fun _ _ => h _) w
  | .setProperty vm key v => by
    rw [Lively.tell, Lively.perform, Play.setProperty]
    split
    · exact (Projects.set (fun _ _ => h _) vm.data key v).mapFault _
    · exact .fail _
  | .assign vm expression v => (Projects.setPath (fun _ _ => h _) vm.data expression v).mapFault _
  | .callMethod id vm name event => by
    rw [Lively.tell, Lively.perform, Play.callMethod]
    cases Keyed.get? vm.methods name with
    | none => exact .fail _
    | some body => exact h (.method id body event)
  | .dispatch document node event => dispatch_plays h document node event
  | .input document _ _ => (plain_plays (Play.edit document _)).bind fun _ =>
    dispatch_plays h document _ _

end Timed

namespace Course

open Timed (Plays plain_plays marked)

/-- A course that is run with its timeline does what it does. -/
theorem tell_projects {call : Callback → Timed Unit} {engine : Engine}
    (h : ∀ callback, Plays (call callback) (engine.call callback)) :
    ∀ p : Course, Plays (p.tell engine.depth call) (p.run engine)
  | done result => marked (plain_plays (Routine.finish result))
  | look next => marked fun u => tell_projects h (next u.now) u
  | quiet _ next => marked ((plain_plays _).attempt.bind fun r => tell_projects h (next r))
  | lively o next => marked ((Timed.lively_plays h o).attempt.bind fun r =>
    tell_projects h (next r))
  | collect _ body next => marked ((tell_projects h body).within.attempt.bind fun r =>
    tell_projects h (next r))

/-- Callbacks that are run with the timeline are those of the engine. -/
theorem calls_projects (user : Callback → Course) : ∀ depth callback,
    Plays (calls user depth callback) ((engine user depth).call callback)
  | 0, _ => marked .exhausted
  | depth + 1, callback => by
    refine marked ?_
    rw [engine]
    dsimp only
    cases huser : callback.ofUser with
    | true =>
      have hrun := tell_projects (calls_projects user depth) (user callback)
      rwa [depth_engine] at hrun
    | false => exact Timed.runCallback_plays (calls_projects user depth) huser

end Course

end DataBinding
