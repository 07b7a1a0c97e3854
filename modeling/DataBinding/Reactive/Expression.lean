/-
  Expressions: dotted paths from a mapping.

  `Store.resolve` follows a path and tells which slots it went through, in
  order; it does not change the store.  `Store.evaluate` is the tracked reading:
  the watcher that collects subscribes to every slot on the way.
  `Store.target` finds the mapping and key that a write goes to.
-/
import DataBinding.Reactive.Store
import DataBinding.Text.Blank

namespace DataBinding

/-- Why a path does not resolve. -/
inductive PathError where
  /-- The expression is blank. -/
  | emptyExpression
  /-- There is no such key, or the key is empty. -/
  | missingKey (expression segment : String)
  /-- The key is looked up in something else than a mapping. -/
  | notAMapping (expression segment : String)
  deriving DecidableEq

/-- A failed path in words. -/
def PathError.message : PathError → String
  | emptyExpression => "empty expression"
  | missingKey expression segment =>
    s!"cannot resolve '{segment}' in expression '{expression}': no such key"
  | notAMapping expression segment =>
    s!"cannot resolve '{segment}' in expression '{expression}': parent is not a mapping"

namespace Store

variable {R : Type}

/-- Follow the segments of a path from a value: the slots on the way and the
    value reached. -/
def walk (s : Store R) (path : String) : Value → List String → List SlotId × Except PathError Value
  | current, [] => ([], .ok current)
  | .mapping m, segment :: rest =>
    if segment.isEmpty then ([], .error (.missingKey path segment))
    else
      match s.slot? m segment with
      | some slot =>
        let (visited, result) := walk s path (s.valueAt slot) rest
        (slot :: visited, result)
      | none =>
        if rest.isEmpty then ([], .ok .undefined) else ([], .error (.missingKey path segment))
  | _, segment :: _ => ([], .error (.notAMapping path segment))

/-- Resolve an expression: the slots on the way and the value reached.  A last
    key that is absent gives the undefined value. -/
@[irreducible]
def resolve (s : Store R) (root : MappingId) (expression : String) :
    List SlotId × Except PathError Value :=
  let path := Text.trim expression
  if path.isEmpty then ([], .error .emptyExpression)
  else s.walk path (.mapping root) (Text.splitOn '.' path)

/-- Resolve an expression, and subscribe the watcher that collects to the slots
    on the way. -/
def evaluate (s : Store R) (root : MappingId) (expression : String) :
    Except PathError Value × Store R :=
  let (visited, result) := s.resolve root expression
  (result, s.trackAll visited)

/-- The text before and after the last dot. -/
def splitLast (path : String) : Option (String × String) :=
  let back := path.toList.reverse
  let key := back.takeWhile (· ≠ '.')
  match back.drop key.length with
  | [] => none
  | _ :: parent => some (String.ofList parent.reverse, String.ofList key.reverse)

/-- The mapping and key that a write to an expression goes to, and the slots on
    the way to the mapping. -/
@[irreducible]
def target (s : Store R) (root : MappingId) (expression : String) :
    List SlotId × Except PathError (MappingId × String) :=
  let path := Text.trim expression
  if path.isEmpty then ([], .error .emptyExpression)
  else
    match splitLast path with
    | none => ([], .ok (root, path))
    | some (parentPath, key) =>
      let (visited, result) := s.resolve root parentPath
      let target : Except PathError (MappingId × String) :=
        match result with
        | .error e => .error e
        | .ok .undefined =>
          .error (.missingKey path ((Text.splitOn '.' parentPath).getLast?.getD parentPath))
        | .ok parent =>
          if key.isEmpty then .error (.missingKey path key)
          else
            match parent with
            | .mapping m => .ok (m, key)
            | _ => .error (.notAMapping path key)
      (visited, target)

end Store

end DataBinding
