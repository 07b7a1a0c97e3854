/-
  Scripts: the steps that use a document, reactive data and view models.

  A `Step` is one use of them.  The callbacks of watchers, listeners and methods
  are scripts too, so that steps hold lists of steps.  A step names what it is
  about: nodes by `NodeRef`, mappings by `MappingRef`, dependency sets by
  `SetRef`; what a step finds or makes can be held under a name for later steps.
-/
import DataBinding.Script.Operand

namespace DataBinding

/-- A name under which what a step finds or makes is held, if it is. -/
abbrev Holding := Option String

/-- How a step names a node. -/
inductive NodeRef where
  /-- The document node. -/
  | root
  /-- A node held under a name. -/
  | held (name : String)
  /-- The first node that a selector matches. -/
  | selector (text : String)

/-- One part of the way to a mapping. -/
inductive MappingHop where
  /-- To the mapping under a key. -/
  | key (key : String)
  /-- To a mapping held under a name. -/
  | held (name : String)

/-- How a step names a mapping: a way that begins at the root mapping. -/
abbrev MappingRef := List MappingHop

/-- How a step names a dependency set. -/
inductive SetRef where
  /-- One held under a name. -/
  | held (name : String)
  /-- That of the slot under a key of a mapping. -/
  | slot (way : MappingRef) (key : String)
  /-- A new one that belongs to no slot. -/
  | fresh

/-- The part of a node that a value is rendered to. -/
inductive Facet where
  /-- Its text. -/
  | text
  /-- The markup in it. -/
  | html
  /-- Its current value. -/
  | model
  /-- An attribute. -/
  | attribute (name : String)
  deriving DecidableEq

/-- What can be described in words. -/
inductive Subject where
  /-- The document. -/
  | document
  /-- The root mapping. -/
  | root
  /-- A watcher. -/
  | watcher (name : String)
  /-- The view model. -/
  | viewModel
  /-- The options of the view model. -/
  | options
  /-- A value. -/
  | value (v : Operand)
  /-- A slot. -/
  | slot (set : SetRef)
  /-- A dependency set. -/
  | dependencySet (set : SetRef)

/-- A use of the document. -/
inductive DocumentStep where
  /-- A new document from markup. -/
  | parse (markup : String)
  /-- The first node that a selector matches. -/
  | query (selector : String) (keep : Holding)
  /-- A child by its position. -/
  | child (node : NodeRef) (index : Nat) (keep : Holding)
  /-- The node that a node is in. -/
  | parent (node : NodeRef) (keep : Holding)
  /-- A new element in nothing. -/
  | createElement (tag : String) (keep : Holding)
  /-- A new text in nothing. -/
  | createText (text : String) (keep : Holding)
  /-- Move a node to the end of another. -/
  | append (parent child : NodeRef)
  /-- The tag of an element. -/
  | tag (node : NodeRef)
  /-- The kind of a node. -/
  | kind (node : NodeRef)
  /-- The children of a node. -/
  | children (node : NodeRef)
  /-- An attribute. -/
  | attribute (node : NodeRef) (name : String)
  /-- All attributes. -/
  | attributes (node : NodeRef)
  /-- The current value of an element. -/
  | value (node : NodeRef)
  /-- The text of a node. -/
  | text (node : NodeRef)
  /-- The markup in a node. -/
  | inner (node : NodeRef)
  /-- The markup of a node. -/
  | outer (node : NodeRef)
  /-- The markup of the document. -/
  | html
  /-- A node with everything below it. -/
  | tree (node : NodeRef)
  /-- The number of nodes. -/
  | count
  /-- The number of listeners of a node. -/
  | listeners (node : NodeRef) (eventType : String)
  /-- Drop an attribute. -/
  | removeAttribute (node : NodeRef) (name : String)
  /-- Set an attribute. -/
  | setAttribute (node : NodeRef) (name text : String)
  /-- Set the text of a node. -/
  | setText (node : NodeRef) (text : String)
  /-- Set the markup in a node. -/
  | setInner (node : NodeRef) (markup : String)
  /-- Set the current value of an element. -/
  | setValue (node : NodeRef) (text : String)
  /-- Set the current value of an element as a user does. -/
  | input (node : NodeRef) (text : String)
  /-- Let an event happen. -/
  | dispatch (node : NodeRef) (event : Event)

/-- A use of the reactive data. -/
inductive DataStep where
  /-- The value under a key. -/
  | get (way : MappingRef) (key : String)
  /-- Write under a key. -/
  | set (way : MappingRef) (key : String) (value : Operand)
  /-- A mapping. -/
  | mapping (way : MappingRef) (keep : Holding)
  /-- Whether a key is there. -/
  | contains (way : MappingRef) (key : String)
  /-- The value of an expression. -/
  | getPath (expression : String)
  /-- Write through an expression. -/
  | setPath (expression : String) (value : Operand)
  /-- A text with its placeholders filled in. -/
  | content (text : String)
  /-- Whether two values are equal. -/
  | equal (a b : Operand)
  /-- The text of a value. -/
  | display (value : Operand)
  /-- What a watcher has seen. -/
  | watcher (name : String)
  /-- Update a watcher. -/
  | update (name : String)
  /-- Whether two names hold the same watcher. -/
  | sameWatcher (a b : String)
  /-- The collection and the notifications going on. -/
  | runtime
  /-- Bound the number of open notifications. -/
  | limit (n : Nat)
  /-- A dependency set. -/
  | dependencySet (set : SetRef) (keep : Holding)
  /-- Add a watcher to a dependency set. -/
  | subscribe (set : SetRef) (watcher : String)
  /-- Update the watchers of a dependency set. -/
  | notify (set : SetRef)
  /-- Subscribe the watcher that collects. -/
  | track (set : SetRef)
  /-- The value of a slot. -/
  | read (set : SetRef)

/-- A use of view models. -/
inductive ViewStep where
  /-- Change to another view model. -/
  | use (name : String)
  /-- Forget the view model in use. -/
  | drop
  /-- The view model. -/
  | viewModel
  /-- A property. -/
  | get (key : String)
  /-- Write a property. -/
  | set (key : String) (value : Operand)
  /-- The value of an expression. -/
  | getPath (expression : String)
  /-- Write through an expression. -/
  | setPath (expression : String) (value : Operand)
  /-- Call a method. -/
  | call (method : String) (event : Event)
  /-- Whether there is a method. -/
  | hasMethod (name : String)
  /-- Bind what is below a node. -/
  | compile (node : NodeRef)
  /-- Bind one attribute. -/
  | bind (attributeName : String) (node : NodeRef) (expression : String)
  /-- Render a value. -/
  | render (facet : Facet) (node : NodeRef) (value : Operand)

/-- How a step gives the options of a view model. -/
inductive OptionsSource where
  /-- Selector and data. -/
  | given (el : String) (data : Json)
  /-- A text with both. -/
  | text (json : String)

/-- A step of a script. -/
inductive Step where
  /-- A use of the document. -/
  | document (step : DocumentStep)
  /-- A use of the reactive data. -/
  | data (step : DataStep)
  /-- A use of view models. -/
  | view (step : ViewStep)
  /-- A new listener. -/
  | listen (node : NodeRef) (eventType : String) (body : List Step)
  /-- A new watcher. -/
  | watch (expression : String) (keep : Holding) (body : List Step)
  /-- Run steps while a watcher collects. -/
  | collect (watcher : String) (body : List Step)
  /-- A new view model. -/
  | mount (options : OptionsSource) (methods : List (String × List Step)) (keep : Holding)
  /-- Run a script if two values are equal, or if they are not. -/
  | when (a b : Operand) (equal : Bool) (body : List Step)
  /-- Write to the log. -/
  | log (text : String) (value : Option Operand)
  /-- Describe something. -/
  | describe (subject : Subject)
  /-- Fail. -/
  | fail (text : String)
  /-- A step whose reply goes to the log, in a script. -/
  | emitting (step : Step)
  /-- A step that cannot be read. -/
  | unreadable (missing : Missing)

/-- A script. -/
abbrev Script := List Step

/-- Whether the reply of a step goes to the log, in a script. -/
def Step.emits : Step → Bool
  | emitting _ => true
  | _ => false

end DataBinding
