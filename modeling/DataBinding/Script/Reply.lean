/-
  What steps answer.

  A `Snapshot` is a value as it is at one moment; a `Reply` is the answer of a
  step that succeeded.
-/
import DataBinding.Document.Outline
import DataBinding.Fault

namespace DataBinding

/-- A value at one moment. -/
inductive Snapshot where
  /-- The undefined value. -/
  | undefined
  /-- Plain data. -/
  | plain (j : Json)
  /-- A mapping by its keys only. -/
  | keys (keys : List String)

/-- What a step answers. -/
inductive Reply where
  /-- Nothing, or that what was looked for is not there. -/
  | nothing
  /-- Yes or no. -/
  | flag (b : Bool)
  /-- A number of things. -/
  | count (n : Nat)
  /-- A text. -/
  | text (s : String)
  /-- The kind of a node. -/
  | kind (k : NodeKind)
  /-- A node. -/
  | node (id : NodeId)
  /-- Nodes. -/
  | nodes (ids : List NodeId)
  /-- Attributes. -/
  | attributes (items : List (String × String))
  /-- A node with everything below it. -/
  | tree (outline : Outline)
  /-- A value. -/
  | value (v : Snapshot)
  /-- A mapping. -/
  | mapping (keys : List String) (v : Snapshot)
  /-- What a watcher has seen. -/
  | watcher (expression : String) (seen : Snapshot) (evaluations : Nat)
  /-- The expression of the watcher that collects, the number of open
      notifications and its bound. -/
  | runtime (target : Option String) (depth limit : Nat)
  /-- The expressions subscribed to a dependency set, and the value of its
      slot. -/
  | dependencySet (expressions : List String) (value : Option Snapshot)
  /-- A view model. -/
  | viewModel (el : Option NodeId) (properties methods : List String) (selector : String)
  /-- What each of several steps came to. -/
  | results (items : List (Except Fault Reply))

end DataBinding
