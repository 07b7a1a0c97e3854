/-
  Routines: what callbacks, listeners and methods do with documents and data.

  A `Routine` runs the operations on reactive data, makes view models and lets
  events happen, looks at everything and changes the stage as it likes; what it
  does next may depend on what came out before, faults included.  A table gives
  a routine for every callback of the user; the others, which render and assign,
  do what they always do.  `Routine.run` runs a routine on an engine, and
  `Routine.engine` is the engine for a table in which callbacks can be nested so
  deep.  There is no routine that changes how many notifications may be open.

  * `Routine.record` is a run with its record (`Routine.effect_record`);
  * `Routine.run_balanced`: every run leaves what goes on as it found it, as does
    every operation and callback in it; no more notifications are open than may
    be, and one is refused exactly where as many are.
-/
import DataBinding.Proofs.Reactive.Observed
import DataBinding.Proofs.Reactive.Record
import DataBinding.Session.Engine

namespace DataBinding

open Effect (Preserves mapFault attempt fail)

/-- What a callback, a listener or a method does. -/
inductive Routine where
  /-- End, with a fault or without. -/
  | done (result : Except Fault Unit)
  /-- Go on with what there is. -/
  | look (next : World Reaction Stage → Routine)
  /-- Change documents, view models and what is kept beside them. -/
  | arrange (change : Stage → Stage) (next : Routine)
  /-- Turn plain data into a reactive value. -/
  | observe (j : Json) (next : Value → Routine)
  /-- Read the value under a key. -/
  | get (m : MappingId) (key : String) (next : Option Value → Routine)
  /-- Read the value of an expression. -/
  | getPath (root : MappingId) (expression : String) (next : Except Fault Value → Routine)
  /-- Fill in the placeholders of a text. -/
  | content (root : MappingId) (text : String) (next : Except Fault String → Routine)
  /-- Write under a key. -/
  | set (m : MappingId) (key : String) (v : Value) (next : Except Fault Unit → Routine)
  /-- Write through an expression. -/
  | setPath (root : MappingId) (expression : String) (v : Value)
      (next : Except Fault Unit → Routine)
  /-- Notify a slot. -/
  | notify (slot : SlotId) (next : Except Fault Unit → Routine)
  /-- Update a watcher. -/
  | update (w : WatcherId) (next : Except Fault Unit → Routine)
  /-- Make a watcher. -/
  | watch (root : MappingId) (expression : String) (reaction : Reaction)
      (next : Except Fault WatcherId → Routine)
  /-- Let a watcher collect for the time of a routine. -/
  | collect (w : WatcherId) (body : Routine) (next : Except Fault Unit → Routine)
  /-- Make a view model, and mount it. -/
  | mount (options : Options Script) (next : Except Fault ViewModelId → Routine)
  /-- Let an event happen on a node. -/
  | dispatch (document : DocumentId) (node : NodeId) (event : Event)
      (next : Except Fault Unit → Routine)

/-- Whether a callback is the user's own. -/
def Callback.ofUser : Callback → Bool
  | .reaction (.script _) _ | .listener (.script _) _ | .method _ _ _ => true
  | .reaction (.render ..) _ | .reaction (.fill ..) _ => false
  | .listener (.assign ..) _ | .listener (.method ..) _ => false

namespace Routine

/-- End as the result says. -/
def finish : Except Fault Unit → Play Unit
  | .ok () => pure ()
  | .error f => fail f

/-- Run a routine on an engine. -/
def run (engine : Engine) : Routine → Play Unit
  | done result => finish result
  | look next => fun u => run engine (next u) u
  | arrange change next => do
    Effect.modifyStage change
    run engine next
  | observe j next => do run engine (next (← Effect.onStore fun s => s.observe j))
  | get m key next => do run engine (next (← Effect.get? m key))
  | getPath root expression next => do
    run engine (next (← attempt (Effect.getPath root expression)))
  | content root text next => do run engine (next (← attempt (Effect.content root text)))
  | set m key v next => do run engine (next (← attempt (Effect.set engine.react m key v)))
  | setPath root expression v next => do
    run engine (next (← attempt (Effect.setPath engine.react root expression v)))
  | notify slot next => do run engine (next (← attempt (Effect.notify engine.react slot)))
  | update w next => do run engine (next (← attempt (Effect.updateWatcher engine.react w)))
  | watch root expression reaction next => do
    run engine (next (← attempt (Effect.watch root expression reaction)))
  | collect w body next => do
    run engine (next (← attempt (Effect.collecting w (run engine body))))
  | mount options next => do run engine (next (← attempt (Play.mount engine.depth options)))
  | dispatch document node event next => do
    run engine (next (← attempt (Play.dispatch engine document node event)))

/-- The engine for a table of the user's callbacks, in which callbacks can be
    nested so deep. -/
def engine (user : Callback → Routine) : Nat → Engine
  | 0 => ⟨fun _ => .exhausted, 0⟩
  | depth + 1 =>
    ⟨fun callback =>
      if callback.ofUser then run (engine user depth) (user callback)
      else Play.runCallback (engine user depth) callback,
    depth + 1⟩

end Routine

/-! ## View models and events, recorded -/

namespace Recorded

variable (vm : ViewModel) (node : NodeId)

/-- Read the value of an expression. -/
def getPath {σ : Type} (root : MappingId) (expression : String) : Recorded Reaction σ Value :=
  operation (plain (Effect.getPath root expression))

/-- Fill in the placeholders of a text. -/
def content {σ : Type} (root : MappingId) (text : String) : Recorded Reaction σ String :=
  operation (plain (Effect.content root text))

/-- Render the value of an expression to a node, now and whenever it changes. -/
def bindValue (expression : String) (facet : Facet) : Recorded Reaction Stage Unit :=
  through (mapFault .binding) do
    let _ ← watch vm.data expression (.render vm.document node facet)
    let v ← getPath vm.data expression
    plain (Play.edit vm.document fun d => d.render node facet v)

/-- Render a text with placeholders to a node, now and whenever the value of one
    of them changes. -/
def bindTemplate (template : String) (expressions : List String) : Recorded Reaction Stage Unit :=
  through (mapFault .binding) do
    each (fun expression => do
        let _ ← watch vm.data expression (.fill vm.document node vm.data template))
      expressions
    let text ← content vm.data template
    plain (Play.edit vm.document fun d => d.render node .text (.string text))

/-- Bind the text of a node. -/
def bindText (expression : String) : Recorded Reaction Stage Unit :=
  match Template.placeholders expression with
  | [] => bindValue vm node expression .text
  | expressions => bindTemplate vm node expression expressions

/-- Bind an element to an expression by a directive. -/
def bindDirective (id : ViewModelId) (expression : String) :
    Directive → Recorded Reaction Stage Unit
  | .text => bindText vm node expression
  | .html => bindValue vm node expression .html
  | .model => do
    bindValue vm node expression .model
    plain (mapFault .binding (Play.listen vm.document node "input" (.assign vm.data expression)))
  | .bind target => bindValue vm node expression (.attribute target)
  | .on eventType => plain (Play.bindDirective id vm node expression (.on eventType))

/-- Bind an attribute if it is a directive, and drop it then. -/
def compileAttribute (id : ViewModelId) (entry : String × String) :
    Recorded Reaction Stage Unit := do
  match ← plain (Play.directiveOf entry.1) with
  | none => pure ()
  | some directive =>
    bindDirective vm node id entry.2 directive
    plain (mapFault .binding (Play.edit vm.document fun d => d.removeAttribute node entry.1))

/-- Bind a node by itself. -/
def compileNode (id : ViewModelId) : Recorded Reaction Stage Unit := do
  let d ← plain (Play.documentAt vm.document)
  match d.kind? node with
  | some .element => each (compileAttribute vm node id) (d.attributes node)
  | some .text =>
    if Template.hasPlaceholder (d.textContent node) then bindText vm node (d.textContent node)
    else pure ()
  | _ => pure ()

/-- Bind everything below a node, at most so deep. -/
def compile (id : ViewModelId) : Nat → NodeId → Recorded Reaction Stage Unit
  | 0, _ => plain .exhausted
  | depth + 1, node => do
    let d ← plain (Play.documentAt vm.document)
    each (fun child => do
        compileNode vm child id
        compile id depth child)
      (d.children node)

/-- Make a view model on the document in use, and mount it. -/
def mount (depth : Nat) (options : Options Script) : Recorded Reaction Stage ViewModelId :=
  operation do
    let document ← plain Play.current
    let d ← plain (Play.documentAt document)
    let el := d.querySelector? options.el
    let data ← plain (Play.reactiveData options.data el.isSome)
    let store ← plain Effect.store
    let properties := if el.isSome then store.keys data else []
    let vm : ViewModel := ⟨document, el, data, options.el, options.methods, properties⟩
    let id ← plain (Play.addViewModel vm)
    match el with
    | none => pure id
    | some node =>
      compile vm id depth node
      pure id

variable (call : Callback → Recorded Reaction Stage Unit)

/-- Let an event happen on a node. -/
def dispatch (id : DocumentId) (event : Event) : Recorded Reaction Stage Unit :=
  operation do
    let d ← plain (Play.documentAt id)
    match d.node? node with
    | none => plain (fail (.node (.notFound node)))
    | some _ =>
      let event := { event with value := event.value.or (d.value? node) }
      through (mapFault (.listener event.type))
        (each (fun listener => call (.listener listener event)) (d.listeners node event.type))

/-- A callback that is not the user's. -/
def runCallback : Callback → Recorded Reaction Stage Unit
  | .reaction (.fill document node root template) _ => do
    let text ← content root template
    plain (Play.rerender document node .text (.string text))
  | .reaction (.render document node facet) v => plain (Play.rerender document node facet v)
  | .listener (.assign root expression) event =>
    setPath (fun reaction v => call (.reaction reaction v)) root expression
      (.string (event.value.getD ""))
  | .listener (.method id body) event => call (.method id body event)
  | .reaction (.script _) _ | .listener (.script _) _ | .method .. => pure ()

end Recorded

namespace Routine

open Recorded (plain through)

/-- A run of a routine with its record, `depth` being how deep nodes may be nested
    and `call` what callbacks do. -/
def record (depth : Nat) (call : Callback → Recorded Reaction Stage Unit) :
    Routine → Recorded Reaction Stage Unit
  | done result => plain (finish result)
  | look next => fun u => record depth call (next u) u
  | arrange change next => do
    plain (Effect.modifyStage change)
    record depth call next
  | observe j next => do
    record depth call (next (← plain (Effect.onStore fun s => s.observe j)))
  | get m key next => do record depth call (next (← plain (Effect.get? m key)))
  | getPath root expression next => do
    record depth call (next (← through attempt (Recorded.getPath root expression)))
  | content root text next => do
    record depth call (next (← through attempt (Recorded.content root text)))
  | set m key v next => do
    record depth call
      (next (← through attempt
        (Recorded.set (fun reaction v => call (.reaction reaction v)) m key v)))
  | setPath root expression v next => do
    record depth call (next (← through attempt
      (Recorded.setPath (fun reaction v => call (.reaction reaction v)) root expression v)))
  | notify slot next => do
    record depth call
      (next (← through attempt
        (Recorded.notify (fun reaction v => call (.reaction reaction v)) slot)))
  | update w next => do
    record depth call (next (← through attempt
      (Recorded.updateWatcher (fun reaction v => call (.reaction reaction v)) w)))
  | watch root expression reaction next => do
    record depth call (next (← through attempt (Recorded.watch root expression reaction)))
  | collect w body next => do
    record depth call (next (← through attempt (Recorded.collecting w (record depth call body))))
  | mount options next => do
    record depth call (next (← through attempt (Recorded.mount depth options)))
  | dispatch document node event next => do
    record depth call (next (← through attempt (Recorded.dispatch node call document event)))

/-- The callbacks of an engine, recorded. -/
def calls (user : Callback → Routine) : Nat → Callback → Recorded Reaction Stage Unit
  | 0, _ => plain .exhausted
  | depth + 1, callback => Recorded.operation
    (if callback.ofUser then record depth (calls user depth) (user callback)
      else Recorded.runCallback (calls user depth) callback)

end Routine

/-! ## The effects are the same -/

namespace Recorded

variable (vm : ViewModel) (node : NodeId)

@[simp]
theorem effect_getPath {σ : Type} (root : MappingId) (expression : String) :
    (getPath root expression : Recorded Reaction σ Value).effect =
      Effect.getPath root expression := rfl

@[simp]
theorem effect_content {σ : Type} (root : MappingId) (text : String) :
    (content root text : Recorded Reaction σ String).effect = Effect.content root text := rfl

@[simp]
theorem effect_bindValue (expression : String) (facet : Facet) :
    (bindValue vm node expression facet).effect = Play.bindValue vm node expression facet := by
  simp only [bindValue, Play.bindValue, effect_through, effect_bind, effect_watch,
    effect_getPath, effect_plain]

@[simp]
theorem effect_bindTemplate (template : String) (expressions : List String) :
    (bindTemplate vm node template expressions).effect =
      Play.bindTemplate vm node template expressions := by
  simp only [bindTemplate, Play.bindTemplate, effect_through, effect_bind, effect_each,
    effect_watch, effect_content, effect_plain, effect_pure]

@[simp]
theorem effect_bindText (expression : String) :
    (bindText vm node expression).effect = Play.bindText vm node expression := by
  unfold bindText Play.bindText
  cases Template.placeholders expression with
  | nil => exact effect_bindValue vm node expression .text
  | cons e es => exact effect_bindTemplate vm node expression (e :: es)

@[simp]
theorem effect_bindDirective (id : ViewModelId) (expression : String) (directive : Directive) :
    (bindDirective vm node id expression directive).effect =
      Play.bindDirective id vm node expression directive := by
  cases directive with
  | text => exact effect_bindText vm node expression
  | html => exact effect_bindValue vm node expression .html
  | model =>
    simp only [bindDirective, Play.bindDirective, effect_bind, effect_bindValue, effect_plain]
  | bind target => exact effect_bindValue vm node expression (.attribute target)
  | on eventType => rfl

@[simp]
theorem effect_compileAttribute (id : ViewModelId) (entry : String × String) :
    (compileAttribute vm node id entry).effect = Play.compileAttribute id vm node entry := by
  unfold compileAttribute Play.compileAttribute
  rw [effect_bind, effect_plain]
  refine congrArg _ (funext fun directive => ?_)
  cases directive with
  | none => rfl
  | some directive => simp only [effect_bind, effect_bindDirective, effect_plain]

@[simp]
theorem effect_compileNode (id : ViewModelId) :
    (compileNode vm node id).effect = Play.compileNode id vm node := by
  unfold compileNode Play.compileNode
  rw [effect_bind, effect_plain]
  refine congrArg _ (funext fun d => ?_)
  cases d.kind? node with
  | none => rfl
  | some kind =>
    cases kind with
    | element => simp only [effect_each, effect_compileAttribute]
    | text => simp only [effect_ite, effect_bindText, effect_pure]
    | document => rfl
    | comment => rfl

@[simp]
theorem effect_compile (id : ViewModelId) : ∀ depth node,
    (compile vm id depth node).effect = Play.compile id vm depth node
  | 0, _ => rfl
  | depth + 1, node => by
    simp only [compile, Play.compile, effect_bind, effect_plain, effect_each, effect_compileNode,
      effect_compile id depth]

@[simp]
theorem effect_mount (depth : Nat) (options : Options Script) :
    (mount depth options).effect = Play.mount depth options := by
  unfold mount Play.mount
  simp only [effect_operation, effect_bind, effect_plain]
  refine congrArg _ (funext fun document => congrArg _ (funext fun d => ?_))
  cases d.querySelector? options.el with
  | none => rfl
  | some node => simp only [effect_bind, effect_compile, effect_pure]

variable {call : Callback → Recorded Reaction Stage Unit} {engine : Engine}
  (hcall : ∀ callback, (call callback).effect = engine.call callback)

include hcall

theorem effect_dispatch (id : DocumentId) (event : Event) :
    (dispatch node call id event).effect = Play.dispatch engine id node event := by
  unfold dispatch Play.dispatch
  rw [effect_operation, effect_bind, effect_plain]
  refine congrArg _ (funext fun d => ?_)
  cases d.node? node with
  | none => rfl
  | some _ => simp only [effect_through, effect_each, hcall]

theorem effect_react :
    (fun reaction v => (call (.reaction reaction v)).effect) = engine.react :=
  funext fun reaction => funext fun v => hcall (.reaction reaction v)

theorem effect_runCallback {callback : Callback} (huser : callback.ofUser = false) :
    (runCallback call callback).effect = Play.runCallback engine callback := by
  match callback with
  | .reaction (.fill _ _ _ _) _ =>
    simp only [runCallback, Play.runCallback, effect_bind, effect_content, effect_plain]
  | .reaction (.render _ _ _) _ => rfl
  | .listener (.assign _ _) _ =>
    simp only [runCallback, Play.runCallback, effect_setPath, effect_react hcall]
  | .listener (.method id body) event => exact hcall (.method id body event)
  | .reaction (.script _) _ | .listener (.script _) _ | .method _ _ _ => cases huser

end Recorded

namespace Routine

/-- The record of a routine is one of its run. -/
theorem effect_record {call : Callback → Recorded Reaction Stage Unit} {engine : Engine}
    (hcall : ∀ callback, (call callback).effect = engine.call callback) :
    ∀ p : Routine, (p.record engine.depth call).effect = p.run engine
  | done _ => rfl
  | look next => by
    funext u
    exact congrFun (effect_record hcall (next u)) u
  | arrange _ next => by
    simp only [record, run, Recorded.effect_bind, Recorded.effect_plain, effect_record hcall]
  | observe _ next | get _ _ next | getPath _ _ next | content _ _ next => by
    simp only [record, run, Recorded.effect_bind, Recorded.effect_plain, Recorded.effect_through,
      Recorded.effect_getPath, Recorded.effect_content, effect_record hcall]
  | set _ _ _ next | setPath _ _ _ next | notify _ next | update _ next => by
    simp only [record, run, Recorded.effect_bind, Recorded.effect_through, Recorded.effect_set,
      Recorded.effect_setPath, Recorded.effect_notify, Recorded.effect_updateWatcher,
      Recorded.effect_react hcall, effect_record hcall]
  | watch _ _ _ next | mount _ next => by
    simp only [record, run, Recorded.effect_bind, Recorded.effect_through, Recorded.effect_watch,
      Recorded.effect_mount, effect_record hcall]
  | collect w body next => by
    simp only [record, run, Recorded.effect_bind, Recorded.effect_through,
      Recorded.effect_collecting, effect_record hcall]
  | dispatch document node event next => by
    simp only [record, run, Recorded.effect_bind, Recorded.effect_through,
      Recorded.effect_dispatch node hcall, effect_record hcall]

/-- The recorded callbacks are those of the engine. -/
theorem effect_calls (user : Callback → Routine) : ∀ depth callback,
    (calls user depth callback).effect = (engine user depth).call callback
  | 0, _ => rfl
  | depth + 1, callback => by
    have hcall := effect_calls user depth
    have hdepth : (engine user depth).depth = depth := by cases depth <;> rfl
    have hrecord := effect_record hcall (user callback)
    rw [hdepth] at hrecord
    rw [calls, Recorded.effect_operation, Recorded.effect_ite, engine]
    dsimp only
    cases huser : callback.ofUser with
    | true => rw [if_pos rfl, if_pos rfl, hrecord]
    | false =>
      rw [if_neg Bool.false_ne_true, if_neg Bool.false_ne_true,
        Recorded.effect_runCallback hcall huser]

end Routine

/-! ## What leaves the activity alone -/

namespace Effect

theorem snd_mapFault {R σ α : Type} (f : Fault → Fault) (a : Effect R σ α) (u : World R σ) :
    (mapFault f a u).2 = (a u).2 := by
  unfold mapFault
  rcases a u with ⟨(_ | _) | _, _⟩ <;> rfl

theorem snd_attempt {R σ α : Type} (a : Effect R σ α) (u : World R σ) :
    (attempt a u).2 = (a u).2 := by
  unfold attempt
  rcases a u with ⟨(_ | _) | _, _⟩ <;> rfl

theorem Idle.mapFault {R σ α : Type} {a : Effect R σ α} (h : Idle a) (f : Fault → Fault) :
    Idle (mapFault f a) := by
  intro activity u hu
  rw [snd_mapFault]
  exact h activity u hu

theorem idle_observe {R σ : Type} (j : Json) :
    Idle (onStore fun s => s.observe j : Effect R σ Value) :=
  .onStore fun s => Store.observe_keeps (P := fun s' => s'.activity = s.activity)
    (fun _ _ h => h) (fun _ _ h => h) j rfl

end Effect

namespace Play

theorem idle_edit (id : DocumentId) (change : Document Listener → Document.Edited Listener) :
    Effect.Idle (edit id change) := fun _ =>
  (Preserves.stage.bind fun _ => Preserves.pure _).bind fun d =>
    (Preserves.modifyStage fun _ hu => hu).bind fun _ => by
      split
      · exact Preserves.pure ()
      · exact Preserves.fail _

theorem idle_documentAt (id : DocumentId) : Effect.Idle (documentAt id) := fun _ =>
  Preserves.stage.bind fun _ => Preserves.pure _

theorem idle_rerender (id : DocumentId) (node : NodeId) (facet : Facet) (v : Value) :
    Effect.Idle (rerender id node facet v) := by
  refine fun activity => (idle_documentAt id activity).bind fun d => ?_
  split
  · exact Preserves.pure ()
  · exact (idle_edit id _).mapFault _ activity

theorem idle_directiveOf (attributeName : String) : Effect.Idle (directiveOf attributeName) := by
  intro activity
  unfold directiveOf
  split
  · exact Preserves.pure _
  · exact Preserves.fail _

theorem idle_bindDirective_on (id : ViewModelId) (vm : ViewModel) (node : NodeId)
    (expression eventType : String) :
    Effect.Idle (bindDirective id vm node expression (.on eventType)) := by
  intro activity
  rw [bindDirective]
  split
  · exact Preserves.pure _
  · exact Effect.Idle.mapFault (idle_edit vm.document _) _ activity

theorem idle_reactiveData (data : Json) (mounted : Bool) :
    Effect.Idle (reactiveData data mounted) := by
  intro activity
  unfold reactiveData
  split
  · refine Effect.Idle.onStore (fun s => ?_) activity
    exact Store.observeMembers_keeps (P := fun s' => s'.activity = s.activity)
      (fun _ _ h => h) (fun _ _ h => h) _ rfl
  · exact Effect.Idle.onStore (fun _ => rfl) activity
  · exact Preserves.fail _
  · exact Effect.Idle.onStore (fun _ => rfl) activity

theorem idle_addViewModel (vm : ViewModel) : Effect.Idle (addViewModel vm) := fun _ =>
  Preserves.stage.bind fun _ => (Preserves.modifyStage fun _ hu => hu).bind fun _ =>
    Preserves.pure _

end Play

/-! ## Balance -/

namespace Recorded.Balanced

theorem mapFault {α : Type} {body : Recorded Reaction Stage α} (h : Balanced body)
    (f : Fault → Fault) : Balanced (Recorded.through (Effect.mapFault f) body) :=
  h.through fun u => Effect.snd_mapFault f body.effect u

theorem attempt {α : Type} {body : Recorded Reaction Stage α} (h : Balanced body) :
    Balanced (Recorded.through Effect.attempt body) :=
  h.through fun u => Effect.snd_attempt body.effect u

theorem getPath {σ : Type} (root : MappingId) (expression : String) :
    Balanced (getPath root expression : Recorded Reaction σ Value) :=
  operation (plain (Effect.idle_getPath root expression))

theorem content {σ : Type} (root : MappingId) (text : String) :
    Balanced (content root text : Recorded Reaction σ String) :=
  operation (plain (Effect.idle_content root text))

section

variable (vm : ViewModel) (node : NodeId)

theorem bindValue (expression : String) (facet : Facet) :
    Balanced (bindValue vm node expression facet) := by
  refine mapFault ((watch vm.data expression _).bind fun _ => ?_) _
  exact (getPath vm.data expression).bind fun _ => plain (Play.idle_edit vm.document _)

theorem bindTemplate (template : String) (expressions : List String) :
    Balanced (bindTemplate vm node template expressions) := by
  refine mapFault (bind ?_ fun _ => ?_) _
  · exact each (fun expression => (watch vm.data expression _).bind fun _ => pure ()) expressions
  · exact (content vm.data template).bind fun _ => plain (Play.idle_edit vm.document _)

theorem bindText (expression : String) : Balanced (bindText vm node expression) := by
  unfold Recorded.bindText
  split
  · exact bindValue vm node expression .text
  · exact bindTemplate vm node expression _

theorem bindDirective (id : ViewModelId) (expression : String) :
    ∀ directive, Balanced (bindDirective vm node id expression directive)
  | .text => bindText vm node expression
  | .html => bindValue vm node expression .html
  | .model => (bindValue vm node expression .model).bind fun _ =>
    plain ((Play.idle_edit vm.document _).mapFault _)
  | .bind target => bindValue vm node expression (.attribute target)
  | .on eventType => plain (Play.idle_bindDirective_on id vm node expression eventType)

theorem compileAttribute (id : ViewModelId) (entry : String × String) :
    Balanced (compileAttribute vm node id entry) := by
  refine (plain (Play.idle_directiveOf entry.1)).bind fun directive => ?_
  split
  · exact pure ()
  · exact (bindDirective vm node id entry.2 _).bind fun _ =>
      plain ((Play.idle_edit vm.document _).mapFault _)

theorem compileNode (id : ViewModelId) : Balanced (compileNode vm node id) := by
  refine (plain (Play.idle_documentAt vm.document)).bind fun d => ?_
  split
  · exact each (fun entry => compileAttribute vm node id entry) _
  · split
    · exact bindText vm node _
    · exact pure ()
  · exact pure ()

theorem compile (id : ViewModelId) : ∀ depth node, Balanced (compile vm id depth node)
  | 0, _ => plain fun _ => Preserves.exhausted
  | depth + 1, _ => (plain (Play.idle_documentAt vm.document)).bind fun _ =>
    each (fun child => (compileNode vm child id).bind fun _ => compile id depth child) _

/-- Making a view model opens no notification, and each of its watchers collects
    for itself only. -/
theorem mount (depth : Nat) (options : Options Script) : Balanced (mount depth options) := by
  refine operation ((plain fun _ => Preserves.stage.bind fun _ => Preserves.pure _).bind
    fun document => ?_)
  refine (plain (Play.idle_documentAt document)).bind fun d => ?_
  refine (plain (Play.idle_reactiveData _ _)).bind fun data => ?_
  refine (plain fun _ => Preserves.store).bind fun store => ?_
  refine (plain (Play.idle_addViewModel _)).bind fun id => ?_
  split
  · exact pure id
  · exact (compile _ id depth _).bind fun _ => pure id

end

variable {call : Callback → Recorded Reaction Stage Unit}
  (hcall : ∀ callback, Balanced (call callback))

include hcall

theorem dispatch (node : NodeId) (id : DocumentId) (event : Event) :
    Balanced (dispatch node call id event) := by
  refine operation ((plain (Play.idle_documentAt id)).bind fun d => ?_)
  split
  · exact plain fun _ => Preserves.fail _
  · exact mapFault (each (fun listener => hcall _) _) _

theorem runCallback : ∀ callback, Balanced (runCallback call callback)
  | .reaction (.fill document node root template) _ =>
    (content root template).bind fun _ => plain (Play.idle_rerender document node .text _)
  | .reaction (.render document node facet) v => plain (Play.idle_rerender document node facet v)
  | .listener (.assign root expression) _ =>
    setPath (fun reaction v => hcall (.reaction reaction v)) root expression _
  | .listener (.method id body) event => hcall (.method id body event)
  | .reaction (.script _) _ | .listener (.script _) _ | .method _ _ _ => pure ()

end Recorded.Balanced

namespace Routine

open Recorded (Balanced)

/-- A routine is balanced if the callbacks are. -/
theorem balanced_record {call : Callback → Recorded Reaction Stage Unit} (depth : Nat)
    (hcall : ∀ callback, (call callback).Balanced) : ∀ p : Routine, (p.record depth call).Balanced
  | done (.ok ()) => Balanced.pure ()
  | done (.error f) => Balanced.plain fun _ => Preserves.fail f
  | look next => fun u hu => balanced_record depth hcall (next u) u hu
  | arrange _ next => (Balanced.plain fun _ => Preserves.modifyStage fun _ hu => hu).bind fun _ =>
    balanced_record depth hcall next
  | observe j next => (Balanced.plain (Effect.idle_observe j)).bind fun v =>
    balanced_record depth hcall (next v)
  | get m key next => (Balanced.plain (Effect.idle_get? m key)).bind fun v =>
    balanced_record depth hcall (next v)
  | getPath root expression next => (Balanced.attempt (.getPath root expression)).bind fun r =>
    balanced_record depth hcall (next r)
  | content root text next => (Balanced.attempt (.content root text)).bind fun r =>
    balanced_record depth hcall (next r)
  | set m key v next => (Balanced.attempt (.set (fun _ _ => hcall _) m key v)).bind fun r =>
    balanced_record depth hcall (next r)
  | setPath root expression v next =>
    (Balanced.attempt (.setPath (fun _ _ => hcall _) root expression v)).bind fun r =>
      balanced_record depth hcall (next r)
  | notify slot next => (Balanced.attempt (.notify (fun _ _ => hcall _) slot)).bind fun r =>
    balanced_record depth hcall (next r)
  | update w next => (Balanced.attempt (.updateWatcher (fun _ _ => hcall _) w)).bind fun r =>
    balanced_record depth hcall (next r)
  | watch root expression reaction next =>
    (Balanced.attempt (.watch root expression reaction)).bind fun r =>
      balanced_record depth hcall (next r)
  | collect w body next =>
    (Balanced.attempt (.collecting w (balanced_record depth hcall body))).bind fun r =>
      balanced_record depth hcall (next r)
  | mount options next => (Balanced.attempt (.mount depth options)).bind fun r =>
    balanced_record depth hcall (next r)
  | dispatch document node event next =>
    (Balanced.attempt (.dispatch hcall node document event)).bind fun r =>
      balanced_record depth hcall (next r)

/-- Callbacks are balanced, however deep they may be nested. -/
theorem balanced_calls (user : Callback → Routine) : ∀ depth callback,
    (calls user depth callback).Balanced
  | 0, _ => Balanced.plain fun _ => Preserves.exhausted
  | depth + 1, callback => by
    refine Balanced.operation ?_
    split
    · exact balanced_record depth (balanced_calls user depth) (user callback)
    · exact Balanced.runCallback (balanced_calls user depth) callback

/-- Every run of a routine leaves what goes on as it found it, ended or stopped,
    and so does every operation and every callback in it, at its place; a
    notification is counted as long as it is open, and one with subscribers is
    refused exactly where as many are open as may be. -/
theorem run_balanced (user : Callback → Routine) (depth : Nat) (p : Routine)
    (u : World Reaction Stage) (h : u.store.depth ≤ u.store.limit) :
    let recorded := p.record depth (calls user depth) u
    recorded.1 = p.run (engine user depth) u ∧
      recorded.1.2.store.activity = u.store.activity ∧
      ∀ span ∈ recorded.2, span.Sound u.store.activity ∧
        ∀ a ∈ span.activities, a.depth ≤ u.store.limit := by
  have heffect : (p.record depth (calls user depth)).effect = p.run (engine user depth) := by
    have hdepth : (engine user depth).depth = depth := by cases depth <;> rfl
    have hrecord := effect_record (effect_calls user depth) p
    rwa [hdepth] at hrecord
  obtain ⟨hactivity, hsound⟩ := balanced_record depth (balanced_calls user depth) p u h
  refine ⟨congrFun heffect u, hactivity, fun span hspan => ?_⟩
  exact ⟨hsound span hspan, (hsound span hspan).depth_le h⟩

/-- A text under the key `a`, with a watcher of it, in a store in which only one
    notification may be open. -/
def narrow : World Reaction Stage where
  store := {
    mappings := #[[("a", 0)]]
    slots := #[⟨.string "x", [0]⟩]
    watchers := #[⟨0, "a", .script [], .string "x", 1⟩]
    collecting := []
    depth := 0
    limit := 1 }
  stage := ⟨#[], 0, #[], ⟨0, [], [], [], [], [], "", [], false⟩⟩

/-- A callback that writes a text under the key `a`, whatever it is given. -/
def overwriting (_ : Callback) : Routine :=
  .set 0 "a" (.string "z") .done

/-- The second of two nested notifications is refused, and the first one fails
    with it. -/
theorem run_balanced_of_narrow :
    let p := Routine.set 0 "a" (.string "y") .done
    let recorded := p.record 2 (calls overwriting 2) narrow
    recorded.1 = p.run (engine overwriting 2) narrow ∧
      (recorded.1.1 matches .error (.fault (.depthExceeded 1))) = true ∧
      recorded.1.2.store.activity = ⟨[], 0, 1⟩ ∧
      ∀ span ∈ recorded.2, span.Sound ⟨[], 0, 1⟩ ∧ ∀ a ∈ span.activities, a.depth ≤ 1 := by
  intro p recorded
  have hroom : narrow.store.depth ≤ narrow.store.limit := by decide
  obtain ⟨heffect, hactivity, hsound⟩ := run_balanced overwriting 2 p narrow hroom
  exact ⟨heffect, by decide +kernel, hactivity, hsound⟩

end Routine

end DataBinding
