/-
  The steps that hold no other steps.

  `Play.useDocument`, `Play.useData` and `Play.useView` run one step on the
  document in use, on the reactive data and on the view model in use, and give
  its reply.
-/
import DataBinding.Session.Description

namespace DataBinding.Play

open Effect (fail mapFault)

/-! ## The document -/

/-- The reply that gives a node, held under a name if it is there. -/
def replyNode (keep : Holding) : Option NodeId → Play Reply
  | none => pure .nothing
  | some id => do
    hold keep fun k name => { k with nodes := Keyed.put k.nodes name id }
    pure (.node id)

/-- A text, or nothing. -/
def replyText (text : Option String) : Reply :=
  text.elim .nothing .text

/-- A reading of a node that may be refused. -/
def readNode (read : Document Listener → Except NodeError String) : Play Reply := do
  match read (← document) with
  | .ok s => pure (.text s)
  | .error e => fail (.node e)

/-- Make a node in the document in use. -/
def create (keep : Holding) (make : Document Listener → NodeId × Document Listener) :
    Play Reply := do
  let id ← current
  let (node, d) := make (← documentAt id)
  putDocument id d
  replyNode keep (some node)

/-- Change the document in use. -/
def change (f : Document Listener → Document.Edited Listener) : Play Reply := do
  edit (← current) f
  pure .nothing

/-- Run a step on the document. -/
def useDocument (engine : Engine) : DocumentStep → Play Reply
  | .parse markup => do
    Effect.modifyStage fun s =>
      { s with documents := s.documents.push (.parse markup), document := s.documents.size }
    pure .nothing
  | .query selector keep => do replyNode keep ((← document).querySelector? selector)
  | .child ref index keep => do
    let node ← nodeOf ref
    replyNode keep ((← document).children node)[index]?
  | .parent ref keep => do
    let node ← nodeOf ref
    replyNode keep ((← document).parent? node)
  | .createElement tag keep => create keep fun d => d.createElement tag
  | .createText text keep => create keep fun d => d.createText text
  | .append parentRef childRef => do
    let parent ← nodeOf parentRef
    let child ← nodeOf childRef
    change fun d => d.append parent child
  | .tag ref => do
    let node ← nodeOf ref
    return replyText (((← document).element? node).map Element.tag)
  | .kind ref => do
    let node ← nodeOf ref
    return ((← document).kind? node).elim .nothing .kind
  | .children ref => do
    let node ← nodeOf ref
    return .nodes ((← document).children node)
  | .attribute ref name => do
    let node ← nodeOf ref
    return replyText ((← document).attribute? node name)
  | .attributes ref => do
    let node ← nodeOf ref
    return .attributes ((← document).attributes node)
  | .value ref => do
    let node ← nodeOf ref
    return replyText ((← document).value? node)
  | .text ref => do
    let node ← nodeOf ref
    return .text ((← document).textContent node)
  | .inner ref => do
    let node ← nodeOf ref
    readNode fun d => d.innerHtml? node
  | .outer ref => do
    let node ← nodeOf ref
    readNode fun d => d.outerHtml? node
  | .html => do return .text (← document).toHtml
  | .tree ref => do
    let node ← nodeOf ref
    return ((← document).outline? node).elim .nothing .tree
  | .count => do return .count (← document).nodeCount
  | .listeners ref eventType => do
    let node ← nodeOf ref
    return .count ((← document).listeners node eventType).length
  | .removeAttribute ref name => do
    let node ← nodeOf ref
    change fun d => d.removeAttribute node name
  | .setAttribute ref name text => do
    let node ← nodeOf ref
    change fun d => d.setAttribute node name text
  | .setText ref text => do
    let node ← nodeOf ref
    change fun d => d.setText node text
  | .setInner ref markup => do
    let node ← nodeOf ref
    change fun d => d.setInnerHtml node markup
  | .setValue ref text => do
    let node ← nodeOf ref
    change fun d => d.setValue node text
  | .input ref text => do
    let node ← nodeOf ref
    input engine (← current) node text
    pure .nothing
  | .dispatch ref event => do
    let node ← nodeOf ref
    dispatch engine (← current) node event
    pure .nothing

/-! ## The reactive data -/

/-- The reply that gives a value. -/
def replyValue (v : Value) : Play Reply := do
  return .value (← snapshot v)

/-- What a watcher has seen. -/
def replyWatcher (w : WatcherId) : Play Reply := do
  let watcher ← watcherAt w
  return .watcher watcher.expression (← snapshot watcher.value) watcher.evaluations

/-- A dependency set, with the value of its slot. -/
def replySet (set : HeldSet) : Play Reply := do
  let s ← Effect.store
  let expressions := s.subscribedExpressions set.carrier
  match set with
  | .ofSlot slot => return .dependencySet expressions (some (← snapshot (s.valueAt slot)))
  | .alone _ => return .dependencySet expressions none

/-- Run a step on the reactive data. -/
def useData (engine : Engine) (setting : Setting) : DataStep → Play Reply
  | .get way key => do
    let m ← mappingOf way
    match ← Effect.get? m key with
    | some v => replyValue v
    | none => pure .nothing
  | .set way key a => do
    let m ← mappingOf way
    let v ← valueOf setting a
    Effect.set engine.react m key v
    pure .nothing
  | .mapping way keep => do
    let m ← mappingOf way
    hold keep fun k name => { k with mappings := Keyed.put k.mappings name m }
    return .mapping ((← Effect.store).keys m) (← snapshot (.mapping m))
  | .contains way key => do
    let m ← mappingOf way
    return .flag ((← Effect.store).slot? m key).isSome
  | .getPath expression => do
    let v ← Effect.getPath (← desk).root expression
    replyValue v
  | .setPath expression a => do
    let v ← valueOf setting a
    Effect.setPath engine.react (← desk).root expression v
    pure .nothing
  | .content text => do
    return .text (← Effect.content (← desk).root text)
  | .equal a b => do
    let v ← valueOf setting a
    let w ← valueOf setting b
    pure (.flag (v.equal w))
  | .display a => do
    let v ← valueOf setting a
    pure (.text v.display)
  | .watcher name => do replyWatcher (← watcherOf name)
  | .update name => do
    Effect.updateWatcher engine.react (← watcherOf name)
    pure .nothing
  | .sameWatcher a b => do
    let v ← watcherOf a
    let w ← watcherOf b
    pure (.flag (v == w))
  | .runtime => do
    let s ← Effect.store
    let target := s.collecting.head?.bind fun w => (s.watchers[w]?).map Watcher.expression
    pure (.runtime target s.depth s.limit)
  | .limit n => do
    Effect.modifyStore fun s => { s with limit := n }
    pure .nothing
  | .dependencySet ref keep => do
    let set ← setOf ref
    hold keep fun k name => { k with sets := Keyed.put k.sets name set }
    replySet set
  | .subscribe ref name => do
    let set ← setOf ref
    let w ← watcherOf name
    Effect.modifyStore fun s => s.subscribe set.carrier w
    pure .nothing
  | .notify ref => do
    let set ← setOf ref
    Effect.notify engine.react set.carrier
    pure .nothing
  | .track ref => do
    let set ← setOf ref
    Effect.modifyStore fun s => s.track set.carrier
    pure .nothing
  | .read ref => do
    let slot ← slotOf ref
    let v ← Effect.onStore fun s => (s.valueAt slot, s.track slot)
    replyValue v

/-! ## View models -/

/-- A view model. -/
def replyViewModel (vm : ViewModel) : Reply :=
  .viewModel vm.el vm.properties (Keyed.keys vm.methods) vm.selector

/-- Bind one attribute of a node, if it is a directive. -/
def bindAttribute (setting : Setting) (attributeName : String) (ref : NodeRef)
    (expression : String) : Play Reply := do
  let (id, vm) ← viewModelOf setting
  let node ← nodeOf ref
  match ← directiveOf attributeName with
  | none => pure (.flag false)
  | some directive =>
    bindDirective id vm node expression directive
    pure (.flag true)

/-- Run a step on the view model. -/
def useView (engine : Engine) (setting : Setting) : ViewStep → Play Reply
  | .use name => do
    let id ← found .viewModel (Keyed.get? (← desk).viewModels name)
    let vm ← viewModelAt id
    modifyDesk fun k => { k with viewModel := name, root := vm.data }
    pure .nothing
  | .drop => do
    let k ← desk
    modifyDesk fun k => { k with viewModels := Keyed.erase k.viewModels k.viewModel }
    pure (.flag (Keyed.contains k.viewModels k.viewModel))
  | .viewModel => do
    let (_, vm) ← viewModelOf setting
    pure (replyViewModel vm)
  | .get key => do
    let (_, vm) ← viewModelOf setting
    let v ← property vm key
    replyValue v
  | .set key a => do
    let (_, vm) ← viewModelOf setting
    let v ← valueOf setting a
    setProperty engine vm key v
    pure .nothing
  | .getPath expression => do
    let (_, vm) ← viewModelOf setting
    let v ← getPath vm expression
    replyValue v
  | .setPath expression a => do
    let (_, vm) ← viewModelOf setting
    let v ← valueOf setting a
    setPath engine vm expression v
    pure .nothing
  | .call name event => do
    let (id, vm) ← viewModelOf setting
    callMethod engine id vm name event
    pure .nothing
  | .hasMethod name => do
    let (_, vm) ← viewModelOf setting
    pure (.flag (Keyed.contains vm.methods name))
  | .compile ref => do
    let (id, vm) ← viewModelOf setting
    let node ← nodeOf ref
    compile id vm engine.depth node
    pure .nothing
  | .bind attributeName ref expression => bindAttribute setting attributeName ref expression
  | .render facet ref a => do
    let node ← nodeOf ref
    let v ← valueOf setting a
    change fun d => d.render node facet v

end DataBinding.Play
