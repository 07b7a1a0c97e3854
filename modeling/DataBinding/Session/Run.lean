/-
  Sessions: scripts run step by step, each with a report.

  A session begins with a document and a root mapping.  `Session.run` runs the
  steps in order; a step that fails does not end the session.  Every `Report`
  holds what the step came to, what was written to the log meanwhile, and the
  views of the session asked for, as they are after the step.
-/
import DataBinding.Session.Engine

namespace DataBinding

/-- A view of a session. -/
inductive View where
  /-- The markup of the document. -/
  | html
  /-- The number of nodes. -/
  | count
  /-- The data. -/
  | data
  /-- The dependency sets. -/
  | dependencies
  deriving DecidableEq

/-- What a view shows. -/
inductive Shown where
  /-- The markup of the document. -/
  | html (s : String)
  /-- The number of nodes. -/
  | count (n : Nat)
  /-- The data. -/
  | data (v : Snapshot)
  /-- The expressions subscribed to each slot, with the way to it. -/
  | dependencies (items : List (String × List String))

/-- What a step came to. -/
structure Report where
  /-- Its reply, or why it stopped. -/
  result : Except Stop Reply
  /-- What was written to the log. -/
  log : List LogEntry
  /-- The views asked for. -/
  shown : List Shown

/-- Reactive data on a stage. -/
abbrev Session := World Reaction Stage

namespace Store

variable {R : Type}

/-- The expressions subscribed to each slot below a mapping, with the way to the
    slot; those of an inner mapping follow its own slot.  `fuel` bounds the
    depth. -/
def subscriptionsWithin (s : Store R) : Nat → String → MappingId → List (String × List String)
  | 0, _, _ => []
  | fuel + 1, way, m =>
    (s.members m).flatMap fun entry =>
      let here := way ++ "/" ++ entry.1
      (here, s.subscribedExpressions entry.2) ::
        match s.valueAt entry.2 with
        | .mapping inner => subscriptionsWithin s fuel here inner
        | _ => []

/-- The expressions subscribed to each slot below a mapping. -/
def subscriptions (s : Store R) (m : MappingId) : List (String × List String) :=
  s.subscriptionsWithin (s.mappings.size + 1) "" m

end Store

namespace Session

/-- A session with a document and a root mapping. -/
def start (document : Document Listener) (data : Json) (brief : Bool) : Session :=
  let (root, store) := (Store.empty : Store Reaction).observeMapping data
  ⟨store, ⟨#[document], 0, #[], ⟨root, [], [], [], [], [], "vm", [], brief⟩⟩⟩

/-- The root mapping. -/
def root (s : Session) : MappingId :=
  s.stage.desk.root

/-- The data as it is now. -/
def dataSnapshot (s : Session) : Snapshot :=
  Play.snapshotOf s.store false (.mapping s.root)

/-- What a view shows. -/
def view (s : Session) : View → Shown
  | .html => .html (s.stage.documentAt s.stage.document).toHtml
  | .count => .count (s.stage.documentAt s.stage.document).nodeCount
  | .data => .data s.dataSnapshot
  | .dependencies => .dependencies (s.store.subscriptions s.root)

/-- Run one step, and report. -/
def step (engine : Engine) (views : List View) (s : Session) (step : Step) : Report × Session :=
  let (result, s) := Play.perform engine .top step s
  let entries := s.stage.desk.log.reverse
  let s := { s with stage.desk.log := [] }
  (⟨result, entries, views.map s.view⟩, s)

/-- Run steps in order, and report on each. -/
def run (engine : Engine) (views : List View) : Session → List Step → List Report
  | _, [] => []
  | s, first :: rest =>
    let (report, s) := s.step engine views first
    report :: run engine views s rest

end Session

end DataBinding
