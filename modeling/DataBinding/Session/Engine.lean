/-
  Running scripts.

  `Play.perform` runs one step, `Play.run` a script: its steps in order, up to the
  first that stops.  The callbacks that a step gives rise to are run by an
  `Engine`; `Engine.ofDepth` is the one in which they can be nested so deep, each
  callback running on the engine with one level less.

  A callback reports its fault to its caller in the caller's terms: the data
  keeps faults of its own, a listener keeps all, a method keeps those of its view
  model.
-/
import DataBinding.Session.Use

namespace DataBinding

namespace Play

open Effect (fail mapFault each)

/-- Write to the log. -/
def log (entry : LogEntry) : Play Unit :=
  modifyDesk fun k => { k with log := entry :: k.log }

/-- The options that a step gives. -/
def optionsOf : OptionsSource → Play (Options Script)
  | .given el data => pure (.ofConfig el data)
  | .text json =>
    match Options.ofText json with
    | .ok options => pure options
    | .error e => fail (.options e)

/-- Make a view model, mount it and use it. -/
def performMount (engine : Engine) (source : OptionsSource) (methods : List (String × Script))
    (keep : Holding) : Play Reply := do
  let options ← optionsOf source
  let options := methods.foldl (fun o m => o.method m.1 m.2) options
  let id ← mount engine.depth options
  let vm ← viewModelAt id
  let name := keep.getD "vm"
  modifyDesk fun k =>
    { k with
      viewModels := Keyed.put k.viewModels name id, viewModel := name, root := vm.data }
  pure (replyViewModel vm)

/-- Make a watcher that runs a script. -/
def performWatch (expression : String) (keep : Holding) (body : Script) : Play Reply := do
  let w ← Effect.watch (← desk).root expression (.script body)
  hold keep fun k name => { k with watchers := Keyed.put k.watchers name w }
  replyWatcher w

/-- Write a text to the log, with the display of a value after it. -/
def performLog (setting : Setting) (text : String) : Option Operand → Play Reply
  | none => do
    log (.text text)
    pure .nothing
  | some a => do
    let v ← valueOf setting a
    log (.text (text ++ ":" ++ v.display))
    pure .nothing

mutual

/-- Run one step. -/
def perform (engine : Engine) (setting : Setting) : Step → Play Reply
  | .document step => useDocument engine step
  | .data step => useData engine setting step
  | .view step => useView engine setting step
  | .listen ref eventType body => do
    let node ← nodeOf ref
    listen (← current) node eventType (.script body)
    pure .nothing
  | .watch expression keep body => performWatch expression keep body
  | .collect name body => do
    let w ← watcherOf name
    let results ← Effect.collecting w (performAll engine setting body)
    pure (.results results)
  | .mount source methods keep => performMount engine source methods keep
  | .when a b expected body => do
    let v ← valueOf setting a
    let w ← valueOf setting b
    if v.equal w == expected then
      run engine setting body
      pure .nothing
    else pure .nothing
  | .log text a => performLog setting text a
  | .describe subject => do return .text (← describe setting subject)
  | .fail text => fail (.raised text)
  | .emitting step => perform engine setting step
  | .unreadable what => fail (.missing what)

/-- Run a script. -/
def run (engine : Engine) (setting : Setting) : List Step → Play Unit
  | [] => pure ()
  | step :: rest => do
    let reply ← perform engine setting step
    if step.emits then log (.reply reply)
    run engine setting rest

/-- Run every step, whatever the others come to. -/
def performAll (engine : Engine) (setting : Setting) :
    List Step → Play (List (Except Fault Reply))
  | [] => pure []
  | step :: rest => do
    let result ← Effect.attempt (perform engine setting step)
    let results ← performAll engine setting rest
    pure (result :: results)

end

/-- Run a callback. -/
def runCallback (engine : Engine) : Callback → Play Unit
  | .reaction (.render document node facet) v => rerender document node facet v
  | .reaction (.fill document node root template) _ => do
    let text ← Effect.content root template
    rerender document node .text (.string text)
  | .reaction (.script body) v => mapFault .inWatcher (run engine ⟨.ofValue v, none⟩ body)
  | .listener (.assign root expression) event =>
    Effect.setPath engine.react root expression (.string (event.value.getD ""))
  | .listener (.method id body) event => engine.call (.method id body event)
  | .listener (.script body) event => mapFault .ofScript (run engine ⟨.ofEvent event, none⟩ body)
  | .method id body event => mapFault .inMethod (run engine ⟨.ofEvent event, some id⟩ body)

end Play

namespace Engine

/-- The engine in which callbacks and nodes can be nested so deep. -/
def ofDepth : Nat → Engine
  | 0 => ⟨fun _ => .exhausted, 0⟩
  | depth + 1 => ⟨fun callback => Play.runCallback (ofDepth depth) callback, depth + 1⟩

/-- The engine that sessions run on. -/
def standard : Engine := ofDepth 4096

end Engine

end DataBinding
