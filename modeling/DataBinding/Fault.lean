/-
  What can go wrong.

  A `Fault` is the reason why an operation stops: a path that does not resolve,
  too many open notifications, a refused change of a node, a refused directive,
  or a fault of a watcher, listener or method that was run, which is kept as the
  cause.  `Fault.message` puts each of them in words.
-/
import DataBinding.Directive
import DataBinding.Document.Basic
import DataBinding.Json.Error
import DataBinding.Reactive.Expression

namespace DataBinding

/-- Something that was asked for and is not there. -/
inductive Missing where
  /-- A node. -/
  | node
  /-- A mapping. -/
  | object
  /-- A slot. -/
  | slot
  /-- A dependency set. -/
  | dependencySet
  /-- A watcher. -/
  | watcher
  /-- A view model. -/
  | viewModel
  /-- A value that can be read. -/
  | value
  /-- A known step. -/
  | step
  /-- A known operation. -/
  | operation
  /-- A text. -/
  | text
  deriving DecidableEq

/-- Something that is not there, in words. -/
def Missing.message : Missing → String
  | node => "no node"
  | object => "no object"
  | slot => "no slot"
  | dependencySet => "no dep"
  | watcher => "no watcher"
  | viewModel => "no vm"
  | value => "bad value"
  | step => "unknown step"
  | operation => "unknown op"
  | text => "missing text field"

/-- Why an operation stops. -/
inductive Fault where
  /-- A path does not resolve. -/
  | path (e : PathError)
  /-- As many notifications are open as may be. -/
  | depthExceeded (limit : Nat)
  /-- The callback of a watcher stopped for a reason outside the data. -/
  | callback (cause : Fault)
  /-- A change of a node is refused. -/
  | node (e : NodeError)
  /-- A listener stopped. -/
  | listener (eventType : String) (cause : Fault)
  /-- Data or document stopped an operation of a view model. -/
  | binding (cause : Fault)
  /-- An attribute is no directive. -/
  | directive (e : DirectiveError)
  /-- A view model has no such property. -/
  | unknownProperty (key : String)
  /-- A view model has no such method. -/
  | unknownMethod (name : String)
  /-- The data of a view model is no mapping; it is what the text says. -/
  | dataNotAMapping (found : String)
  /-- The options of a view model are refused. -/
  | options (e : Json.ReadError)
  /-- A method stopped for a reason of its own. -/
  | method (cause : Fault)
  /-- A script says that it failed. -/
  | raised (text : String)
  /-- Something is not there. -/
  | missing (what : Missing)

namespace Fault

/-- A fault in words. -/
def message : Fault → String
  | path e => e.message
  | depthExceeded limit => s!"change notification nested deeper than {limit} levels"
  | callback cause => "watcher callback failed: " ++ message cause
  | node e => e.message
  | listener eventType cause => s!"'{eventType}' listener failed: " ++ message cause
  | binding cause => message cause
  | directive e => e.message
  | unknownProperty key => s!"unknown property '{key}'"
  | unknownMethod name => s!"unknown method '{name}'"
  | dataNotAMapping found => s!"data must be a mapping, got {found}"
  | options e => "invalid options: " ++ e.message
  | method cause => "method failed: " ++ message cause
  | raised text => text
  | missing what => what.message

/-- Whether a fault comes from the data: a path, the notifications, or the
    callback of a watcher. -/
def ofData : Fault → Bool
  | path _ | depthExceeded _ | callback _ => true
  | _ => false

/-- Whether a fault comes from the document: a node or a listener. -/
def ofDocument : Fault → Bool
  | node _ | listener _ _ => true
  | _ => false

/-! ## Leaving a callback

What a script asked for in vain is, to its caller, a reason of the script's
own. -/

/-- A fault as a script's caller sees it. -/
def ofScript : Fault → Fault
  | missing what => raised ("driver: " ++ what.message)
  | f => f

/-- A fault in the callback of a watcher, as its update reports it. -/
def inWatcher (f : Fault) : Fault :=
  if f.ofData then f else callback f.ofScript

/-- A fault in a method, as its call reports it. -/
def inMethod (f : Fault) : Fault :=
  if f.ofData || f.ofDocument then binding f
  else
    match f.ofScript with
    | raised text => method (raised text)
    | f => f

end Fault

end DataBinding
