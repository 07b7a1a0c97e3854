/-
  View models.

  `Play.mount` looks up the element of a view model in the document in use,
  makes its data reactive and binds what is below the element.  A view model
  whose element is not found is not mounted: it binds nothing and has no
  properties.

  Properties are the keys that the data had when it was mounted; they are read
  and written by `Play.property` and `Play.setProperty`.  `Play.callMethod` calls
  a method, `Play.dispatch` the listeners of a node.
-/
import DataBinding.View.Binding

namespace DataBinding

/-- What plain data is, in words. -/
def Json.noun : Json → String
  | .null => "null"
  | .bool _ => "a boolean"
  | .number _ => "a number"
  | .string _ => "a string"
  | .array _ => "an array"
  | .object _ => "a mapping"

namespace Play

open Effect (mapFault fail each)

/-- The reactive data of a new view model. -/
def reactiveData (data : Json) (mounted : Bool) : Play MappingId :=
  match data, mounted with
  | .object members, _ => .onStore fun s => s.observeMapping (.object members)
  | .null, true => .onStore fun s => s.newMapping []
  | data, true => fail (.dataNotAMapping data.noun)
  | _, false => .onStore fun s => s.newMapping []

/-- A new view model on the stage. -/
def addViewModel (vm : ViewModel) : Play ViewModelId := do
  let id := (← Effect.stage).viewModels.size
  Effect.modifyStage fun s => { s with viewModels := s.viewModels.push vm }
  pure id

/-- Make a view model on the document in use, and mount it. -/
def mount (depth : Nat) (options : Options Script) : Play ViewModelId := do
  let document ← current
  let el := (← documentAt document).querySelector? options.el
  let data ← reactiveData options.data el.isSome
  let store ← Effect.store
  let properties := if el.isSome then store.keys data else []
  let vm : ViewModel := ⟨document, el, data, options.el, options.methods, properties⟩
  let id ← addViewModel vm
  match el with
  | none => pure id
  | some node =>
    compile id vm depth node
    pure id

/-! ## Properties -/

/-- A property of a view model. -/
def property (vm : ViewModel) (key : String) : Play Value :=
  if vm.properties.contains key then do
    match ← Effect.get? vm.data key with
    | some v => pure v
    | none => fail (.unknownProperty key)
  else fail (.unknownProperty key)

/-- Write a property of a view model. -/
def setProperty (engine : Engine) (vm : ViewModel) (key : String) (v : Value) : Play Unit :=
  if vm.properties.contains key then mapFault .binding (Effect.set engine.react vm.data key v)
  else fail (.unknownProperty key)

/-- The value of an expression on the data of a view model. -/
def getPath (vm : ViewModel) (expression : String) : Play Value :=
  mapFault .binding (Effect.getPath vm.data expression)

/-- Write through an expression on the data of a view model. -/
def setPath (engine : Engine) (vm : ViewModel) (expression : String) (v : Value) : Play Unit :=
  mapFault .binding (Effect.setPath engine.react vm.data expression v)

/-! ## Methods and events -/

/-- Call a method of a view model. -/
def callMethod (engine : Engine) (id : ViewModelId) (vm : ViewModel) (name : String)
    (event : Event) : Play Unit :=
  match Keyed.get? vm.methods name with
  | none => fail (.unknownMethod name)
  | some body => engine.call (.method id body event)

/-- Let an event happen on a node: its listeners run in the order of their
    subscription, up to the first that stops.  An event without a value carries
    the current value of the node. -/
def dispatch (engine : Engine) (id : DocumentId) (node : NodeId) (event : Event) : Play Unit := do
  let d ← documentAt id
  match d.node? node with
  | none => fail (.node (.notFound node))
  | some _ =>
    let event := { event with value := event.value.or (d.value? node) }
    mapFault (.listener event.type)
      (each (fun listener => engine.call (.listener listener event)) (d.listeners node event.type))

/-- Set the current value of an element as a user does, which is an event. -/
def input (engine : Engine) (id : DocumentId) (node : NodeId) (text : String) : Play Unit := do
  edit id fun d => d.setValue node text
  dispatch engine id node ⟨"input", some text⟩

end Play

end DataBinding
