/-
  Binding a document to the data of a view model.

  A directive binds an element: its value is rendered once, and a watcher
  renders it again when it changes.  `Play.bindDirective` binds one directive,
  `Play.bindText` a text with placeholders, which gets one watcher for each of
  them, and `Play.compile` binds everything below a node.

  The children of a node are read once the node itself is bound, so that markup
  put there by a directive is bound too.
-/
import DataBinding.View.Stage

namespace DataBinding.Play

open Effect (mapFault fail each)

/-- Render the value of an expression to a node, now and whenever it changes. -/
def bindValue (vm : ViewModel) (node : NodeId) (expression : String) (facet : Facet) :
    Play Unit :=
  mapFault .binding do
    let _ ← Effect.watch vm.data expression (.render vm.document node facet)
    let v ← Effect.getPath vm.data expression
    edit vm.document fun d => d.render node facet v

/-- Render a text with placeholders to a node, now and whenever the value of one
    of them changes. -/
def bindTemplate (vm : ViewModel) (node : NodeId) (template : String)
    (expressions : List String) : Play Unit :=
  mapFault .binding do
    each (fun expression => do
        let _ ← Effect.watch vm.data expression (.fill vm.document node vm.data template))
      expressions
    let text ← Effect.content vm.data template
    edit vm.document fun d => d.render node .text (.string text)

/-- Bind the text of a node to an expression or to a text with placeholders. -/
def bindText (vm : ViewModel) (node : NodeId) (expression : String) : Play Unit :=
  match Template.placeholders expression with
  | [] => bindValue vm node expression .text
  | expressions => bindTemplate vm node expression expressions

/-- Add a listener to a node. -/
def listen (id : DocumentId) (node : NodeId) (eventType : String) (listener : Listener) :
    Play Unit :=
  edit id fun d => d.addListener node eventType listener

/-- Bind an element to an expression by a directive. -/
def bindDirective (id : ViewModelId) (vm : ViewModel) (node : NodeId) (expression : String) :
    Directive → Play Unit
  | .text => bindText vm node expression
  | .html => bindValue vm node expression .html
  | .model => do
    bindValue vm node expression .model
    mapFault .binding (listen vm.document node "input" (.assign vm.data expression))
  | .bind target => bindValue vm node expression (.attribute target)
  | .on eventType =>
    match Keyed.get? vm.methods expression with
    | none => pure ()
    | some body => mapFault .binding (listen vm.document node eventType (.method id body))

/-- The directive that an attribute name stands for. -/
def directiveOf (attributeName : String) : Play (Option Directive) :=
  match Directive.parse attributeName with
  | .ok directive => pure directive
  | .error e => fail (.directive e)

/-- Bind an attribute if it is a directive, and drop it then. -/
def compileAttribute (id : ViewModelId) (vm : ViewModel) (node : NodeId)
    (entry : String × String) : Play Unit := do
  match ← directiveOf entry.1 with
  | none => pure ()
  | some directive =>
    bindDirective id vm node entry.2 directive
    mapFault .binding (edit vm.document fun d => d.removeAttribute node entry.1)

/-- Bind a node by itself: an element by its attributes, a text by its
    placeholders. -/
def compileNode (id : ViewModelId) (vm : ViewModel) (node : NodeId) : Play Unit := do
  let d ← documentAt vm.document
  match d.kind? node with
  | some .element => each (compileAttribute id vm node) (d.attributes node)
  | some .text =>
    let text := d.textContent node
    if Template.hasPlaceholder text then bindText vm node text else pure ()
  | _ => pure ()

/-- Bind everything below a node, in document order, at most so deep. -/
def compile (id : ViewModelId) (vm : ViewModel) : Nat → NodeId → Play Unit
  | 0, _ => .exhausted
  | depth + 1, node => do
    let d ← documentAt vm.document
    each (fun child => do
        compileNode id vm child
        compile id vm depth child)
      (d.children node)

end DataBinding.Play
