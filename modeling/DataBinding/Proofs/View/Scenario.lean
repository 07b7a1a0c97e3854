/-
  Scenarios: what is done with data and documents, and what happens then.

  A `Scenario` changes documents, makes view models, writes data, notifies slots,
  updates watchers and lets events happen; what it does next may depend on everything
  there is, faults included.  Beside that it does what leaves the documents alone and makes no watcher
  that renders (`Effect.Aside`).  A table gives a scenario for every callback of the
  user; the others, which render and assign, do what they always do.

  `Scenario.run` runs a scenario on an engine, and `Scenario.tell` also notes in a
  `Journal` what happens: the changes of documents and the calls of callbacks, in
  order.  An `Account` is an effect on a stage with a journal.

  * `Account.Tells`: an account does as a play does, but for what it notes; one rule for
    every way of putting accounts together;
  * `Account.Tells.run`, `Account.Tells.calls`: runs that are told are the runs.
-/
import DataBinding.Proofs.Document.History
import DataBinding.Proofs.Reactive.Invariants
import DataBinding.Proofs.Reactive.Projection
import DataBinding.Proofs.View.Routine

namespace DataBinding

open Effect (Preserves Projects mapFault attempt fail each)

theorem Effect.Preserves.mapFault {R σ α : Type} {P : World R σ → Prop} {a : Effect R σ α}
    (h : Preserves P a) (f : Fault → Fault) : Preserves P (mapFault f a) := by
  intro u hu
  rw [snd_mapFault]
  exact h u hu

/-- A new watcher keeps what its making keeps. -/
theorem Kept.watch {R σ : Type} {P : World R σ → Prop} (hP : Kept P) {root : MappingId}
    {expression : String} {reaction : R}
    (hnew : ∀ u, P u → P { u with store := (u.store.newWatcher root expression reaction).2 }) :
    Preserves P (Effect.watch root expression reaction) :=
  (Preserves.onStore hnew).bind fun w => (hP.whileCollecting w (hP.evaluate w _)).bind fun v =>
    (Preserves.modifyStore fun u hu => hP.remember u w v hu).bind fun _ => Preserves.pure w

/-! ## Effects that leave documents alone -/

/-- The document and the node that a watcher renders to. -/
def Reaction.place? : Reaction → Option (DocumentId × NodeId)
  | render document node _ | fill document node _ _ => some (document, node)
  | script _ => none

/-- The document and the node that a callback renders to. -/
def Callback.place? : Callback → Option (DocumentId × NodeId)
  | reaction r _ => r.place?
  | listener .. | method .. => none

/-- Watchers render to some places only. -/
def Store.Renders (s : Store Reaction) (places : DocumentId × NodeId → Prop) : Prop :=
  ∀ (w : WatcherId) (watcher : Watcher Reaction), s.watchers[w]? = some watcher →
    ∀ p, watcher.reaction.place? = some p → places p

/-- The documents are these, and watchers render to some places only. -/
def World.Still (documents : Array (Document Listener)) (places : DocumentId × NodeId → Prop)
    (u : World Reaction Stage) : Prop :=
  u.stage.documents = documents ∧ u.store.Renders places

/-- An effect leaves the documents alone and makes no watcher that renders. -/
def Effect.Aside {α : Type} (a : Play α) : Prop :=
  ∀ documents places, Preserves (World.Still documents places) a

namespace Store.Renders

variable {s : Store Reaction} {places places' : DocumentId × NodeId → Prop}

theorem mono (h : s.Renders places) (hplaces : ∀ p, places p → places' p) : s.Renders places' :=
  fun w watcher hw p hp => hplaces p (h w watcher hw p hp)

theorem updateWatcher (h : s.Renders places) (w : WatcherId) {f : Watcher Reaction → Watcher Reaction}
    (hf : ∀ watcher, (f watcher).reaction = watcher.reaction) :
    (s.updateWatcher w f).Renders places := by
  intro x watcher hx p hp
  rw [Store.updateWatcher, Array.getElem?_modify] at hx
  split at hx
  · obtain ⟨watcher', hx', rfl⟩ := Option.map_eq_some_iff.1 hx
    rw [hf] at hp
    exact h x watcher' hx' p hp
  · exact h x watcher hx p hp

theorem newWatcher (h : s.Renders places) (root : MappingId) (expression : String)
    {reaction : Reaction} (hreaction : ∀ p, reaction.place? = some p → places p) :
    (s.newWatcher root expression reaction).2.Renders places := by
  intro x watcher hx p hp
  rw [Store.newWatcher, Array.getElem?_push] at hx
  split at hx
  · obtain rfl := Option.some.inj hx
    exact hreaction p hp
  · exact h x watcher hx p hp

end Store.Renders

theorem World.kept_still (documents : Array (Document Listener))
    (places : DocumentId × NodeId → Prop) : Kept (World.Still documents places) where
  subscribe _ _ _ hu := hu
  count _ w hu := ⟨hu.1, hu.2.updateWatcher w fun _ => rfl⟩
  collecting _ _ hu := hu
  depth _ _ hu := hu
  remember _ w _ hu := ⟨hu.1, hu.2.updateWatcher w fun _ => rfl⟩

namespace Effect.Aside

open World (kept_still)

/-- Looking at things changes nothing. -/
theorem look {α : Type} (f : World Reaction Stage → α) : Aside fun u => (.ok (f u), u) :=
  fun _ _ _ hu => hu

/-- What is kept beside the documents may be changed. -/
theorem arrange {f : Stage → Stage} (h : ∀ s, (f s).documents = s.documents) :
    Aside (modifyStage f) :=
  fun _ _ => Preserves.modifyStage fun u hu => ⟨(h u.stage).trans hu.1, hu.2⟩

theorem observe (j : Json) : Aside (onStore fun s => s.observe j) :=
  fun _ places => Preserves.onStore fun _ hu => ⟨hu.1, Store.observe_keeps
    (P := fun s : Store Reaction => s.Renders places) (fun _ _ h => h) (fun _ _ h => h) j hu.2⟩

theorem get? (m : MappingId) (key : String) : Aside (Effect.get? m key) :=
  fun documents places => (kept_still documents places).toSteady.get? m key

theorem getPath (root : MappingId) (expression : String) : Aside (Effect.getPath root expression) :=
  fun documents places => (kept_still documents places).toSteady.getPath root expression

theorem content (root : MappingId) (text : String) : Aside (Effect.content root text) :=
  fun documents places => (kept_still documents places).toSteady.content root text

/-- A watcher that runs a script renders to nothing. -/
theorem watch (root : MappingId) (expression : String) (body : Script) :
    Aside (Effect.watch root expression (.script body)) :=
  fun documents places => (kept_still documents places).watch fun _ hu =>
    ⟨hu.1, hu.2.newWatcher root expression nofun⟩

end Effect.Aside

/-! ## Scenarios -/

/-- What is done with data and documents. -/
inductive Scenario where
  /-- End, with a fault or without. -/
  | done (result : Except Fault Unit)
  /-- Do what leaves the documents alone. -/
  | aside {α : Type} (a : Play α) (h : a.Aside) (next : Except Fault α → Scenario)
  /-- Change a document. -/
  | edit (document : DocumentId) (change : Document.Edit Listener)
      (next : Except Fault Unit → Scenario)
  /-- Write under a key. -/
  | set (m : MappingId) (key : String) (v : Value) (next : Except Fault Unit → Scenario)
  /-- Write through an expression. -/
  | setPath (root : MappingId) (expression : String) (v : Value)
      (next : Except Fault Unit → Scenario)
  /-- Notify a slot. -/
  | notify (slot : SlotId) (next : Except Fault Unit → Scenario)
  /-- Update a watcher. -/
  | update (w : WatcherId) (next : Except Fault Unit → Scenario)
  /-- Let a watcher collect for the time of a scenario. -/
  | collect (w : WatcherId) (body : Scenario) (next : Except Fault Unit → Scenario)
  /-- Make a view model, and mount it. -/
  | mount (options : Options Script) (next : Except Fault ViewModelId → Scenario)
  /-- Let an event happen on a node. -/
  | dispatch (document : DocumentId) (node : NodeId) (event : Event)
      (next : Except Fault Unit → Scenario)

namespace Scenario

/-- Run a scenario on an engine. -/
def run (engine : Engine) : Scenario → Play Unit
  | done result => Routine.finish result
  | aside a _ next => do run engine (next (← attempt a))
  | edit document change next => do
    run engine (next (← attempt (Play.edit document fun d => change.apply d)))
  | set m key v next => do run engine (next (← attempt (Effect.set engine.react m key v)))
  | setPath root expression v next => do
    run engine (next (← attempt (Effect.setPath engine.react root expression v)))
  | notify slot next => do run engine (next (← attempt (Effect.notify engine.react slot)))
  | update w next => do run engine (next (← attempt (Effect.updateWatcher engine.react w)))
  | collect w body next => do
    run engine (next (← attempt (Effect.collecting w (run engine body))))
  | mount options next => do run engine (next (← attempt (Play.mount engine.depth options)))
  | dispatch document node event next => do
    run engine (next (← attempt (Play.dispatch engine document node event)))

/-- The engine for a table of the user's callbacks, in which callbacks can be
    nested so deep. -/
def engine (user : Callback → Scenario) : Nat → Engine
  | 0 => ⟨fun _ => .exhausted, 0⟩
  | depth + 1 =>
    ⟨fun callback =>
      if callback.ofUser then run (engine user depth) (user callback)
      else Play.runCallback (engine user depth) callback,
    depth + 1⟩

end Scenario

/-! ## Journals -/

/-- What is noted of a run. -/
inductive Happening where
  /-- A document is changed, or the change is refused. -/
  | edited (document : DocumentId) (change : Document.Edit Listener)
  /-- A callback is called, in a world. -/
  | called (callback : Callback) (world : World Reaction Stage)

/-- A stage with what has happened on it, in order. -/
structure Journal where
  /-- The stage. -/
  stage : Stage
  /-- What has happened. -/
  happenings : List Happening

/-- A world without what was noted of it. -/
def World.bare (u : World Reaction Journal) : World Reaction Stage :=
  ⟨u.store, u.stage.stage⟩

/-- A world of which nothing has been noted yet. -/
def World.unnoted (u : World Reaction Stage) : World Reaction Journal :=
  ⟨u.store, ⟨u.stage, []⟩⟩

/-- The changes of one document. -/
def editsOf (document : DocumentId) (happenings : List Happening) : List (Document.Edit Listener) :=
  happenings.filterMap fun
    | .edited i change => if i = document then some change else none
    | .called .. => none

/-- A value shown on a node, as a change of the document. -/
def Facet.edit {L : Type} (facet : Facet) (node : NodeId) (v : Value) : Document.Edit L :=
  match facet with
  | .text => .setText node (facet.shown v)
  | .html => .setInner node (Markup.parseFragment (facet.shown v))
  | .model => .setValue node (facet.shown v)
  | .attribute name => .setAttribute node name (facet.shown v)

theorem Document.render_eq_apply {L : Type} (d : Document L) (node : NodeId) (facet : Facet)
    (v : Value) : d.render node facet v = (facet.edit node v).apply d := by
  cases facet <;> rfl

/-- An effect on a stage with a journal. -/
abbrev Account (α : Type) := Effect Reaction Journal α

namespace Account

variable {α β : Type}

/-- An effect of which nothing is noted. -/
def plain (a : Play α) : Account α := fun u =>
  let (result, v) := a u.bare
  (result, ⟨v.store, ⟨v.stage, u.stage.happenings⟩⟩)

/-- Note what happens. -/
def note (h : Happening) : Account Unit :=
  Effect.modifyStage fun j => { j with happenings := j.happenings ++ [h] }

/-- Note the call of a callback. -/
def noteCall (callback : Callback) : Account Unit := fun u => note (.called callback u.bare) u

/-- Note the change of a document that an effect makes. -/
def editing (document : DocumentId) (change : Document.Edit Listener) (a : Play α) : Account α := do
  note (.edited document change)
  plain a

/-- Render a value to a node. -/
def render (document : DocumentId) (node : NodeId) (facet : Facet) (v : Value) : Account Unit :=
  editing document (facet.edit node v) (Play.edit document fun d => d.render node facet v)

/-- Render a value to a node that is there. -/
def rerender (document : DocumentId) (node : NodeId) (facet : Facet) (v : Value) : Account Unit :=
  editing document (facet.edit node v) (Play.rerender document node facet v)

section

variable (vm : ViewModel) (node : NodeId)

/-- Render the value of an expression to a node, now and whenever it changes. -/
def bindValue (expression : String) (facet : Facet) : Account Unit :=
  mapFault .binding do
    let _ ← Effect.watch vm.data expression (.render vm.document node facet)
    let v ← Effect.getPath vm.data expression
    render vm.document node facet v

/-- Render a text with placeholders to a node, now and whenever the value of one of
    them changes. -/
def bindTemplate (template : String) (expressions : List String) : Account Unit :=
  mapFault .binding do
    each (fun expression => do
        let _ ← Effect.watch vm.data expression (.fill vm.document node vm.data template))
      expressions
    let text ← Effect.content vm.data template
    render vm.document node .text (.string text)

/-- Bind the text of a node. -/
def bindText (expression : String) : Account Unit :=
  match Template.placeholders expression with
  | [] => bindValue vm node expression .text
  | expressions => bindTemplate vm node expression expressions

/-- Add a listener to a node. -/
def listen (eventType : String) (listener : Listener) : Account Unit :=
  editing vm.document (.addListener node eventType listener)
    (mapFault .binding (Play.listen vm.document node eventType listener))

/-- Bind an element to an expression by a directive. -/
def bindDirective (id : ViewModelId) (expression : String) : Directive → Account Unit
  | .text => bindText vm node expression
  | .html => bindValue vm node expression .html
  | .model => do
    bindValue vm node expression .model
    listen vm node "input" (.assign vm.data expression)
  | .bind target => bindValue vm node expression (.attribute target)
  | .on eventType =>
    match Keyed.get? vm.methods expression with
    | none => pure ()
    | some body => listen vm node eventType (.method id body)

/-- Bind an attribute if it is a directive, and drop it then. -/
def compileAttribute (id : ViewModelId) (entry : String × String) : Account Unit := do
  match ← plain (Play.directiveOf entry.1) with
  | none => pure ()
  | some directive =>
    bindDirective vm node id entry.2 directive
    editing vm.document (.removeAttribute node entry.1)
      (mapFault .binding (Play.edit vm.document fun d => d.removeAttribute node entry.1))

/-- Bind a node by itself. -/
def compileNode (id : ViewModelId) : Account Unit := do
  let d ← plain (Play.documentAt vm.document)
  match d.kind? node with
  | some .element => each (compileAttribute vm node id) (d.attributes node)
  | some .text =>
    if Template.hasPlaceholder (d.textContent node) then bindText vm node (d.textContent node)
    else pure ()
  | _ => pure ()

/-- Bind everything below a node, at most so deep. -/
def compile (id : ViewModelId) : Nat → NodeId → Account Unit
  | 0, _ => .exhausted
  | depth + 1, node => do
    let d ← plain (Play.documentAt vm.document)
    each (fun child => do
        compileNode vm child id
        compile id depth child)
      (d.children node)

end

/-- Make a view model on the document in use, and mount it. -/
def mount (depth : Nat) (options : Options Script) : Account ViewModelId := do
  let document ← plain Play.current
  let d ← plain (Play.documentAt document)
  let el := d.querySelector? options.el
  let data ← plain (Play.reactiveData options.data el.isSome)
  let store ← Effect.store
  let properties := if el.isSome then store.keys data else []
  let vm : ViewModel := ⟨document, el, data, options.el, options.methods, properties⟩
  let id ← plain (Play.addViewModel vm)
  match el with
  | none => pure id
  | some node =>
    compile vm id depth node
    pure id

section

variable (call : Callback → Account Unit)

/-- What watchers do. -/
def react (reaction : Reaction) (v : Value) : Account Unit :=
  call (.reaction reaction v)

/-- Let an event happen on a node. -/
def dispatch (document : DocumentId) (node : NodeId) (event : Event) : Account Unit := do
  let d ← plain (Play.documentAt document)
  match d.node? node with
  | none => fail (.node (.notFound node))
  | some _ =>
    let event := { event with value := event.value.or (d.value? node) }
    mapFault (.listener event.type)
      (each (fun listener => call (.listener listener event)) (d.listeners node event.type))

/-- A callback that is not the user's. -/
def runCallback : Callback → Account Unit
  | .reaction (.render document node facet) v => rerender document node facet v
  | .reaction (.fill document node root template) _ => do
    let text ← Effect.content root template
    rerender document node .text (.string text)
  | .listener (.assign root expression) event =>
    Effect.setPath (react call) root expression (.string (event.value.getD ""))
  | .listener (.method id body) event => call (.method id body event)
  | .reaction (.script _) _ | .listener (.script _) _ | .method .. => pure ()

end

end Account

namespace Scenario

open Account (plain editing react)

/-- Run a scenario and note what happens, `depth` being how deep nodes may be nested and
    `call` what callbacks do. -/
def tell (depth : Nat) (call : Callback → Account Unit) : Scenario → Account Unit
  | done result => plain (Routine.finish result)
  | aside a _ next => do tell depth call (next (← attempt (plain a)))
  | edit document change next => do
    tell depth call (next (← attempt
      (editing document change (Play.edit document fun d => change.apply d))))
  | set m key v next => do tell depth call (next (← attempt (Effect.set (react call) m key v)))
  | setPath root expression v next => do
    tell depth call (next (← attempt (Effect.setPath (react call) root expression v)))
  | notify slot next => do tell depth call (next (← attempt (Effect.notify (react call) slot)))
  | update w next => do tell depth call (next (← attempt (Effect.updateWatcher (react call) w)))
  | collect w body next => do
    tell depth call (next (← attempt (Effect.collecting w (tell depth call body))))
  | mount options next => do tell depth call (next (← attempt (Account.mount depth options)))
  | dispatch document node event next => do
    tell depth call (next (← attempt (Account.dispatch call document node event)))

/-- The callbacks of an engine, each noted when it is called. -/
def calls (user : Callback → Scenario) : Nat → Callback → Account Unit
  | 0, callback => do
    Account.noteCall callback
    .exhausted
  | depth + 1, callback => do
    Account.noteCall callback
    if callback.ofUser then tell depth (calls user depth) (user callback)
    else Account.runCallback (calls user depth) callback

end Scenario

/-! ## Runs that are told are the runs -/

/-- An account does as a play does, but for what it notes. -/
def Account.Tells {α : Type} (a' : Account α) (a : Play α) : Prop :=
  ∀ u, ((a' u).1, (a' u).2.bare) = a u.bare

namespace Account.Tells

variable {α β : Type}

/-- What is left of a journal is its stage. -/
theorem iff_projects {a' : Account α} {a : Play α} :
    Tells a' a ↔ Projects Journal.stage a' a := Iff.rfl

theorem plain (a : Play α) : Tells (plain a) a := fun _ => rfl

theorem pure (x : α) : Tells (Pure.pure x) (Pure.pure x) := iff_projects.2 (.pure x)

theorem fail (f : Fault) : Tells (fail f : Account α) (Effect.fail f) := iff_projects.2 (.fail f)

theorem exhausted : Tells (.exhausted : Account α) .exhausted := iff_projects.2 .exhausted

theorem bind {a' : Account α} {a : Play α} {f' : α → Account β} {f : α → Play β}
    (ha : Tells a' a) (hf : ∀ x, Tells (f' x) (f x)) : Tells (a' >>= f') (a >>= f) :=
  iff_projects.2 (.bind ha hf)

/-- What is done next depends on the present store. -/
theorem ofStore {f' : Store Reaction → Account α} {f : Store Reaction → Play α}
    (h : ∀ s, Tells (f' s) (f s)) : Tells (Effect.store >>= f') (Effect.store >>= f) :=
  iff_projects.2 (.ofStore h)

theorem noted {a' : Account α} {a : Play α} (h : Tells a' a) (callback : Callback) :
    Tells (noteCall callback >>= fun _ => a') a :=
  fun u => h { u with stage.happenings := u.stage.happenings ++ [.called callback u.bare] }

theorem editing (document : DocumentId) (change : Document.Edit Listener) (a : Play α) :
    Tells (editing document change a) a := fun _ => rfl

theorem mapFault {a' : Account α} {a : Play α} (h : Tells a' a) (f : Fault → Fault) :
    Tells (mapFault f a') (Effect.mapFault f a) :=
  iff_projects.2 (Projects.mapFault h f)

theorem attempt {a' : Account α} {a : Play α} (h : Tells a' a) :
    Tells (attempt a') (Effect.attempt a) :=
  iff_projects.2 (Projects.attempt h)

theorem within {enter leave : Store Reaction → Store Reaction} {a' : Account α} {a : Play α}
    (h : Tells a' a) : Tells (Effect.within enter leave a') (Effect.within enter leave a) :=
  iff_projects.2 (Projects.within h)

theorem each {f' : α → Account Unit} {f : α → Play Unit} (h : ∀ x, Tells (f' x) (f x))
    (items : List α) : Tells (each f' items) (Effect.each f items) :=
  iff_projects.2 (.each h items)

theorem getPath (root : MappingId) (expression : String) :
    Tells (Effect.getPath root expression) (Effect.getPath root expression) :=
  iff_projects.2 (.reading _)

theorem content (root : MappingId) (text : String) :
    Tells (Effect.content root text) (Effect.content root text) :=
  iff_projects.2 (.reading _)

theorem watch (root : MappingId) (expression : String) (reaction : Reaction) :
    Tells (Effect.watch root expression reaction) (Effect.watch root expression reaction) :=
  iff_projects.2 (.watch root expression reaction)

section

variable (vm : ViewModel) (node : NodeId)

theorem bindValue (expression : String) (facet : Facet) :
    Tells (Account.bindValue vm node expression facet) (Play.bindValue vm node expression facet) :=
  ((watch vm.data expression _).bind fun _ => (getPath vm.data expression).bind fun _ =>
    editing vm.document _ _).mapFault _

theorem bindTemplate (template : String) (expressions : List String) :
    Tells (Account.bindTemplate vm node template expressions)
      (Play.bindTemplate vm node template expressions) := by
  refine (bind ?_ fun _ => ?_).mapFault _
  · exact each (fun expression => (watch vm.data expression _).bind fun _ => pure ()) expressions
  · exact (content vm.data template).bind fun _ => editing vm.document _ _

theorem bindText (expression : String) :
    Tells (Account.bindText vm node expression) (Play.bindText vm node expression) := by
  unfold Account.bindText Play.bindText
  cases Template.placeholders expression with
  | nil => exact bindValue vm node expression .text
  | cons e es => exact bindTemplate vm node expression (e :: es)

theorem bindDirective (id : ViewModelId) (expression : String) : ∀ directive : Directive,
    Tells (Account.bindDirective vm node id expression directive)
      (Play.bindDirective id vm node expression directive)
  | .text => bindText vm node expression
  | .html => bindValue vm node expression .html
  | .model => (bindValue vm node expression .model).bind fun _ => editing vm.document _ _
  | .bind target => bindValue vm node expression (.attribute target)
  | .on eventType => by
    rw [Account.bindDirective, Play.bindDirective]
    cases Keyed.get? vm.methods expression with
    | none => exact pure ()
    | some body => exact editing vm.document _ _

theorem compileAttribute (id : ViewModelId) (entry : String × String) :
    Tells (Account.compileAttribute vm node id entry) (Play.compileAttribute id vm node entry) := by
  refine (plain (Play.directiveOf entry.1)).bind fun directive => ?_
  split
  · exact pure ()
  · exact (bindDirective vm node id entry.2 _).bind fun _ => editing vm.document _ _

theorem compileNode (id : ViewModelId) :
    Tells (Account.compileNode vm node id) (Play.compileNode id vm node) := by
  refine (plain (Play.documentAt vm.document)).bind fun d => ?_
  match d.kind? node with
  | some .element => exact each (fun entry => compileAttribute vm node id entry) _
  | some .text =>
    dsimp only
    split
    · exact bindText vm node _
    · exact pure ()
  | none | some .document | some .comment => exact pure ()

theorem compile (id : ViewModelId) : ∀ depth node,
    Tells (Account.compile vm id depth node) (Play.compile id vm depth node)
  | 0, _ => exhausted
  | depth + 1, _ => (plain (Play.documentAt vm.document)).bind fun _ =>
    each (fun child => (compileNode vm child id).bind fun _ => compile id depth child) _

end

theorem mount (depth : Nat) (options : Options Script) :
    Tells (Account.mount depth options) (Play.mount depth options) := by
  refine (plain Play.current).bind fun document => (plain (Play.documentAt document)).bind
    fun d => (plain (Play.reactiveData _ _)).bind fun data => ofStore fun store => ?_
  refine (plain (Play.addViewModel _)).bind fun id => ?_
  cases d.querySelector? options.el with
  | none => exact pure id
  | some node => exact (compile _ id depth node).bind fun _ => pure id

section

variable {react' : Reaction → Value → Account Unit} {react : Reaction → Value → Play Unit}
  (h : ∀ reaction v, Tells (react' reaction v) (react reaction v))

include h

theorem updateWatcher (w : WatcherId) :
    Tells (Effect.updateWatcher react' w) (Effect.updateWatcher react w) :=
  iff_projects.2 (.updateWatcher h w)

theorem notify (slot : SlotId) : Tells (Effect.notify react' slot) (Effect.notify react slot) :=
  iff_projects.2 (.notify h slot)

theorem set (m : MappingId) (key : String) (v : Value) :
    Tells (Effect.set react' m key v) (Effect.set react m key v) :=
  iff_projects.2 (.set h m key v)

theorem setPath (root : MappingId) (expression : String) (v : Value) :
    Tells (Effect.setPath react' root expression v) (Effect.setPath react root expression v) :=
  iff_projects.2 (.setPath h root expression v)

end

section

variable {call : Callback → Account Unit} {engine : Engine}
  (h : ∀ callback, Tells (call callback) (engine.call callback))

include h

theorem dispatch (document : DocumentId) (node : NodeId) (event : Event) :
    Tells (Account.dispatch call document node event)
      (Play.dispatch engine document node event) := by
  refine (plain (Play.documentAt document)).bind fun d => ?_
  cases d.node? node with
  | none => exact fail _
  | some _ => exact (each (fun listener => h _) _).mapFault _

theorem runCallback {callback : Callback} (huser : callback.ofUser = false) :
    Tells (Account.runCallback call callback) (Play.runCallback engine callback) := by
  match callback with
  | .reaction (.render document node facet) v => exact editing document _ _
  | .reaction (.fill document node root template) _ =>
    exact (content root template).bind fun text => editing document _ _
  | .listener (.assign root expression) event =>
    exact setPath (fun _ _ => h _) root expression (.string (event.value.getD ""))
  | .listener (.method id body) event => exact h (.method id body event)
  | .reaction (.script _) _ | .listener (.script _) _ | .method _ _ _ => cases huser

/-- **A run that is told** is the run. -/
theorem run : ∀ p : Scenario, Tells (p.tell engine.depth call) (p.run engine)
  | .done result => plain (Routine.finish result)
  | .aside a _ next => (plain a).attempt.bind fun r => run (next r)
  | .edit document change next => (editing document change _).attempt.bind fun r => run (next r)
  | .set m key v next => (set (fun _ _ => h _) m key v).attempt.bind fun r => run (next r)
  | .setPath root expression v next =>
    (setPath (fun _ _ => h _) root expression v).attempt.bind fun r => run (next r)
  | .notify slot next => (notify (fun _ _ => h _) slot).attempt.bind fun r => run (next r)
  | .update w next => (updateWatcher (fun _ _ => h _) w).attempt.bind fun r => run (next r)
  | .collect _ body next => (run body).within.attempt.bind fun r => run (next r)
  | .mount options next => (mount engine.depth options).attempt.bind fun r => run (next r)
  | .dispatch document node event next =>
    (dispatch h document node event).attempt.bind fun r => run (next r)

end

/-- **Callbacks that are told** are those of the engine. -/
theorem calls (user : Callback → Scenario) : ∀ depth callback,
    Tells (Scenario.calls user depth callback) ((Scenario.engine user depth).call callback)
  | 0, callback => exhausted.noted callback
  | depth + 1, callback => by
    refine noted ?_ callback
    rw [Scenario.engine]
    dsimp only
    cases huser : callback.ofUser with
    | true =>
      have hrun := run (calls user depth) (user callback)
      rwa [show (Scenario.engine user depth).depth = depth by cases depth <;> rfl] at hrun
    | false => exact runCallback (calls user depth) huser

end Account.Tells

end DataBinding
