/-
  Documents, data and view models described in words.

  A description names what it describes and lists its parts in braces; texts in
  it are quoted.
-/
import DataBinding.Session.Lookup

namespace DataBinding

namespace Description

/-- A named thing with its parts. -/
def record (name : String) (parts : List (String × String)) : String :=
  name ++ " \x7b " ++ ", ".intercalate (parts.map fun p => p.1 ++ ": " ++ p.2) ++ " \x7d"

mutual

/-- Plain data inside of a sequence. -/
def item : Json → String
  | .null => "Null"
  | .bool b => if b then "Bool(true)" else "Bool(false)"
  | .number n => "Number(" ++ n.text ++ ")"
  | .string s => "String(" ++ Text.quoted s ++ ")"
  | .array xs => "Array [" ++ items xs ++ "]"
  | .object members => "Object \x7b" ++ memberList members ++ "\x7d"

/-- Plain data, separated by commas. -/
def items : List Json → String
  | [] => ""
  | [x] => item x
  | x :: rest => item x ++ ", " ++ items rest

/-- Members of plain data, separated by commas. -/
def memberList : List (String × Json) → String
  | [] => ""
  | [(key, x)] => Text.quoted key ++ ": " ++ item x
  | (key, x) :: rest => Text.quoted key ++ ": " ++ item x ++ ", " ++ memberList rest

end

/-- A mapping, by its keys. -/
def mapping {R : Type} (s : Store R) (m : MappingId) : String :=
  record "ReactiveObject" [("keys", Text.quotedList (s.keys m))]

/-- A value. -/
def value {R : Type} (s : Store R) : Value → String
  | .null => "Null"
  | .undefined => "Undefined"
  | .bool b => if b then "Bool(true)" else "Bool(false)"
  | .number n => "Number(Number(" ++ n.text ++ "))"
  | .string t => "String(" ++ Text.quoted t ++ ")"
  | .array xs => "Array([" ++ items xs ++ "])"
  | .mapping m => "Object(" ++ mapping s m ++ ")"

/-- A dependency set, by its size. -/
def dependencySet {R : Type} (s : Store R) (slot : SlotId) : String :=
  record "Dep" [("subscribers", toString (s.subscribers slot).length)]

/-- A slot. -/
def slot {R : Type} (s : Store R) (id : SlotId) : String :=
  record "Slot" [("value", value s (s.valueAt id)), ("dep", dependencySet s id)]

/-- A watcher. -/
def watcher {R : Type} (s : Store R) (w : Watcher R) : String :=
  record "Watcher" [("expression", Text.quoted w.expression), ("value", value s w.value),
    ("evaluations", toString w.evaluations)]

/-- A document, by the number of its nodes. -/
def document {L : Type} (d : Document L) : String :=
  record "Document" [("nodes", toString d.nodeCount)]

/-- A view model. -/
def viewModel {R : Type} (s : Store R) (vm : ViewModel) : String :=
  record "ViewModel" [("el", Text.quoted vm.selector),
    ("mounted", if vm.el.isSome then "true" else "false"), ("data", mapping s vm.data),
    ("methods", Text.quotedList (Keyed.keys vm.methods))]

/-- The options of a view model, whose data has gone into it. -/
def options (vm : ViewModel) : String :=
  record "Options" [("el", Text.quoted vm.selector), ("data", "Null"),
    ("methods", Text.quotedList (Keyed.keys vm.methods))]

/-- A dependency set held under a name: that of a slot is shown with it. -/
def held {R : Type} (s : Store R) : HeldSet → String
  | .ofSlot id => slot s id
  | .alone id => dependencySet s id

end Description

/-- A description of something that a step names. -/
def Play.describe (setting : Setting) : Subject → Play String
  | .document => do return Description.document (← document)
  | .root => do return Description.mapping (← Effect.store) (← desk).root
  | .watcher name => do
    let w ← watcherAt (← watcherOf name)
    return Description.watcher (← Effect.store) w
  | .viewModel => do
    let (_, vm) ← viewModelOf setting
    return Description.viewModel (← Effect.store) vm
  | .options => do
    let (_, vm) ← viewModelOf setting
    return Description.options vm
  | .value a => do
    let v ← valueOf setting a
    return Description.value (← Effect.store) v
  | .slot ref => do
    let set ← setOf ref
    return Description.held (← Effect.store) set
  | .dependencySet ref => do
    let set ← setOf ref
    let s ← Effect.store
    match ref with
    | .held _ => return Description.held s set
    | _ => return Description.dependencySet s set.carrier

end DataBinding
