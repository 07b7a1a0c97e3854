/-
  The stage: documents and view models, on which reactive data is shown.

  A watcher reacts by rendering to a node or by running a script (`Reaction`); a
  node listens by assigning, by calling a method or by running a script
  (`Listener`).  The `Stage` holds the documents, the view models and what a
  session keeps.  A `Play` is an effect on reactive data and this stage; what
  runs callbacks is an `Engine`, with a bound on their depth.

  * `Document.render` shows a value on a node;
  * `Play.edit` changes a document.
-/
import DataBinding.Document.Edit
import DataBinding.Options
import DataBinding.Script.Reply
import DataBinding.Script.Step

namespace DataBinding

/-- The number of a document on the stage. -/
abbrev DocumentId := Nat

/-- The number of a view model on the stage. -/
abbrev ViewModelId := Nat

/-- What a watcher does when its value has changed. -/
inductive Reaction where
  /-- Render the value to a node. -/
  | render (document : DocumentId) (node : NodeId) (facet : Facet)
  /-- Render a text with placeholders to a node. -/
  | fill (document : DocumentId) (node : NodeId) (root : MappingId) (template : String)
  /-- Run a script. -/
  | script (body : Script)

/-- What a node does on an event. -/
inductive Listener where
  /-- Write the value of the event through an expression. -/
  | assign (root : MappingId) (expression : String)
  /-- Call a method of a view model. -/
  | method (viewModel : ViewModelId) (body : Script)
  /-- Run a script. -/
  | script (body : Script)

/-- A view model: data and methods, and the element below which they are bound. -/
structure ViewModel where
  /-- The document. -/
  document : DocumentId
  /-- The element it is mounted on, if it is. -/
  el : Option NodeId
  /-- The data. -/
  data : MappingId
  /-- The selector that the element was looked up by. -/
  selector : String
  /-- The methods. -/
  methods : Keyed Script
  /-- The keys that were there when it was mounted. -/
  properties : List String

/-- A dependency set held under a name. -/
inductive HeldSet where
  /-- That of a slot. -/
  | ofSlot (slot : SlotId)
  /-- One that belongs to no slot of a mapping. -/
  | alone (slot : SlotId)

/-- The slot that carries a held dependency set. -/
def HeldSet.carrier : HeldSet → SlotId
  | ofSlot slot => slot
  | alone slot => slot

/-- An entry of the log. -/
inductive LogEntry where
  /-- A text. -/
  | text (s : String)
  /-- The reply of a step. -/
  | reply (r : Reply)

/-- What a session keeps: the root mapping, what is held under names, and the
    log. -/
structure Desk where
  /-- The root mapping. -/
  root : MappingId
  /-- Nodes by name. -/
  nodes : Keyed NodeId
  /-- Watchers by name. -/
  watchers : Keyed WatcherId
  /-- Dependency sets by name. -/
  sets : Keyed HeldSet
  /-- Mappings by name. -/
  mappings : Keyed MappingId
  /-- View models by name. -/
  viewModels : Keyed ViewModelId
  /-- The name of the view model in use. -/
  viewModel : String
  /-- The log, the latest entry first. -/
  log : List LogEntry
  /-- Whether mappings in replies are given by their keys only. -/
  brief : Bool

/-- Documents, view models and what a session keeps. -/
structure Stage where
  /-- The documents. -/
  documents : Array (Document Listener)
  /-- The document in use. -/
  document : DocumentId
  /-- The view models. -/
  viewModels : Array ViewModel
  /-- What a session keeps. -/
  desk : Desk

/-- A document of the stage. -/
def Stage.documentAt (s : Stage) (id : DocumentId) : Document Listener :=
  (s.documents[id]?).getD .empty

/-- An effect on reactive data and a stage. -/
abbrev Play (α : Type) := Effect Reaction Stage α

/-- A callback with what it is given. -/
inductive Callback where
  /-- A reaction, to a new value. -/
  | reaction (reaction : Reaction) (v : Value)
  /-- A listener, to an event. -/
  | listener (listener : Listener) (event : Event)
  /-- A method of a view model, for an event. -/
  | method (viewModel : ViewModelId) (body : Script) (event : Event)

/-- What runs callbacks. -/
structure Engine where
  /-- Run a callback. -/
  call : Callback → Play Unit
  /-- How deep callbacks and nodes may be nested in it. -/
  depth : Nat

/-- What watchers do. -/
def Engine.react (engine : Engine) (reaction : Reaction) (v : Value) : Play Unit :=
  engine.call (.reaction reaction v)

/-! ## Rendering -/

/-- The text of a value where it is shown: text leaves out null and undefined,
    markup and input values leave out null, attributes leave out nothing. -/
def Facet.shown : Facet → Value → String
  | .text, v => if v.isNullish then "" else v.display
  | .html, v => if v.isNull then "" else v.display
  | .model, v => if v.isNull then "" else v.display
  | .attribute _, v => v.display

/-- Show a value on a node. -/
def Document.render {L : Type} (d : Document L) (id : NodeId) (facet : Facet) (v : Value) :
    Document.Edited L :=
  match facet with
  | .text => d.setText id (facet.shown v)
  | .html => d.setInnerHtml id (facet.shown v)
  | .model => d.setValue id (facet.shown v)
  | .attribute name => d.setAttribute id name (facet.shown v)

namespace Play

/-- A document of the stage. -/
def documentAt (id : DocumentId) : Play (Document Listener) := do
  return (← Effect.stage).documentAt id

/-- The number of the document in use. -/
def current : Play DocumentId := do
  return (← Effect.stage).document

/-- The document in use. -/
def document : Play (Document Listener) := do
  documentAt (← current)

/-- Put a document in the place of another. -/
def putDocument (id : DocumentId) (d : Document Listener) : Play Unit :=
  Effect.modifyStage fun s => { s with documents := s.documents.setIfInBounds id d }

/-- Change a document. -/
def edit (id : DocumentId) (change : Document Listener → Document.Edited Listener) : Play Unit := do
  let (result, d) := change (← documentAt id)
  putDocument id d
  match result with
  | .ok () => pure ()
  | .error e => .fail (.node e)

/-- A view model of the stage. -/
def viewModelAt (id : ViewModelId) : Play ViewModel := do
  match (← Effect.stage).viewModels[id]? with
  | some vm => pure vm
  | none => .fail (.missing .viewModel)

/-- A rendering reaction to a document: nothing on a node that is gone. -/
def rerender (id : DocumentId) (node : NodeId) (facet : Facet) (v : Value) : Play Unit := do
  match (← documentAt id).kind? node with
  | none => pure ()
  | some _ => Effect.mapFault .callback (edit id fun d => d.render node facet v)

end Play

end DataBinding
