/-
  Looking up what the steps of a script name.

  Every lookup either finds what is named or stops with a `Missing` fault;
  none of them subscribes anything.
-/
import DataBinding.View.Model

namespace DataBinding

/-- Where a step runs: what its callback was given and, in a method, the view
    model of the method. -/
structure Setting where
  /-- What the callback that is running was given. -/
  occasion : Occasion
  /-- The view model of the method that is running. -/
  viewModel : Option ViewModelId

/-- Outside of callbacks. -/
def Setting.top : Setting := ⟨.none, none⟩

namespace Play

open Effect (fail)

/-- What the session keeps. -/
def desk : Play Desk := do
  return (← Effect.stage).desk

/-- Change what the session keeps. -/
def modifyDesk (f : Desk → Desk) : Play Unit :=
  Effect.modifyStage fun s => { s with desk := f s.desk }

/-- What was looked up, or the fault that it is not there. -/
def found {α : Type} (what : Missing) : Option α → Play α
  | some a => pure a
  | none => fail (.missing what)

/-- Hold something under a name, if there is one. -/
def hold (keep : Holding) (put : Desk → String → Desk) : Play Unit :=
  match keep with
  | some name => modifyDesk fun k => put k name
  | none => pure ()

/-- The node that a step names. -/
def nodeOf : NodeRef → Play NodeId
  | .root => pure Document.root
  | .held name => do found .node (Keyed.get? (← desk).nodes name)
  | .selector text => do found .node ((← document).querySelector? text)

/-- The mapping that the rest of a way leads to. -/
def follow : MappingId → MappingRef → Play MappingId
  | m, [] => pure m
  | m, .key key :: rest => do
    let s ← Effect.store
    match (s.slot? m key).map s.valueAt with
    | some (.mapping inner) => follow inner rest
    | _ => fail (.missing .object)
  | _, .held name :: rest => do
    let m ← found .object (Keyed.get? (← desk).mappings name)
    follow m rest

/-- The mapping that a step names. -/
def mappingOf (way : MappingRef) : Play MappingId := do
  follow (← desk).root way

/-- The dependency set that a step names. -/
def setOf : SetRef → Play HeldSet
  | .held name => do found .dependencySet (Keyed.get? (← desk).sets name)
  | .slot way key => do
    let m ← mappingOf way
    let slot ← found .slot ((← Effect.store).slot? m key)
    pure (.ofSlot slot)
  | .fresh => do
    let slot ← Effect.onStore fun s => s.newSlot .undefined
    pure (.alone slot)

/-- The slot that a step names. -/
def slotOf (ref : SetRef) : Play SlotId := do
  match ← setOf ref with
  | .ofSlot slot => pure slot
  | .alone _ => fail (.missing .slot)

/-- The watcher held under a name. -/
def watcherOf (name : String) : Play WatcherId := do
  found .watcher (Keyed.get? (← desk).watchers name)

/-- A watcher of the data. -/
def watcherAt (w : WatcherId) : Play (Watcher Reaction) := do
  found .watcher (← Effect.store).watchers[w]?

/-- The view model in use. -/
def viewModelOf (setting : Setting) : Play (ViewModelId × ViewModel) := do
  let k ← desk
  let id ← found .viewModel (setting.viewModel.or (Keyed.get? k.viewModels k.viewModel))
  let vm ← viewModelAt id
  pure (id, vm)

/-- The value of an operand. -/
def valueOf (setting : Setting) (a : Operand) : Play Value := do
  a.value (← desk).root setting.occasion

/-! ## Snapshots -/

/-- A value as it is now; a mapping that holds itself only by its keys. -/
def snapshotOf (s : Store Reaction) (brief : Bool) : Value → Snapshot
  | .undefined => .undefined
  | .mapping m =>
    if brief then .keys (s.keys m)
    else
      match s.toJson? (.mapping m) with
      | some j => .plain j
      | none => .keys (s.keys m)
  | v => .plain ((s.toJson? v).getD .null)

/-- A value as it is now, as replies give it. -/
def snapshot (v : Value) : Play Snapshot := do
  return snapshotOf (← Effect.store) (← desk).brief v

end Play

end DataBinding
