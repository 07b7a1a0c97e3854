/-
  Programs: what callbacks do with reactive data.

  A `Program` reads and writes reactive data, makes watchers, updates them and
  collects with them, and keeps a state of its own; what it does next may depend
  on what came out before, faults included.  It knows mappings by their numbers
  and watchers by the names under which it holds them.

  Watchers are labelled: a table gives a program for every label and value.
  `Program.run` runs a program over what watchers do, and `Program.reactions` is
  what they do when callbacks may be nested so deep: each runs the program of
  its label over the reactions of one level less.

  The `Scene` on which programs run holds the state that they share, the
  watchers held under names, and a log, the latest entry first, of the calls of
  callbacks, the slots notified and how writes to slots ended.
-/
import DataBinding.Proofs.Reactive.Effects

namespace DataBinding

/-- What a callback does; `K` are the labels of watchers, `S` the states that
    programs keep. -/
inductive Program (K S : Type) where
  /-- End, with a fault or without. -/
  | done (result : Except Fault Unit)
  /-- Change the state, and go on with what it is then. -/
  | alter (change : S → S) (next : S → Program K S)
  /-- Turn plain data into a reactive value. -/
  | observe (j : Json) (next : Value → Program K S)
  /-- Read the value under a key. -/
  | get (m : MappingId) (key : String) (next : Option Value → Program K S)
  /-- Read the value of an expression. -/
  | getPath (root : MappingId) (expression : String) (next : Except Fault Value → Program K S)
  /-- Fill in the placeholders of a text. -/
  | content (root : MappingId) (text : String) (next : Except Fault String → Program K S)
  /-- Write under a key. -/
  | set (m : MappingId) (key : String) (v : Value) (next : Except Fault Unit → Program K S)
  /-- Write through an expression. -/
  | setPath (root : MappingId) (expression : String) (v : Value)
      (next : Except Fault Unit → Program K S)
  /-- Notify the slot under a key. -/
  | notify (m : MappingId) (key : String) (next : Except Fault Unit → Program K S)
  /-- Make a watcher, and hold it under a name. -/
  | watch (root : MappingId) (expression : String) (label : K) (name : String)
      (next : Except Fault Unit → Program K S)
  /-- Update a watcher. -/
  | update (name : String) (next : Except Fault Unit → Program K S)
  /-- Let a watcher collect for the time of a program. -/
  | collect (name : String) (body : Program K S) (next : Except Fault Unit → Program K S)
  /-- The value that a watcher has seen last, and how often it evaluated. -/
  | seen (name : String) (next : Option (Value × Nat) → Program K S)

/-- An entry of the log. -/
inductive Entry (K : Type) where
  /-- The callback of a label is called with a value. -/
  | called (label : K) (v : Value)
  /-- The call of a label with a value ends without a fault, when the slots hold
      these values. -/
  | returned (label : K) (v : Value) (values : SlotId → Value)
  /-- A slot is to be notified. -/
  | notified (slot : SlotId)
  /-- A write to a slot ends so. -/
  | ended (slot : SlotId) (result : Except Stop Unit)

/-- The stage on which programs run. -/
structure Scene (K S : Type) where
  /-- The state that programs keep. -/
  state : S
  /-- The watchers that are held under names. -/
  held : Keyed WatcherId
  /-- The log, the latest entry first. -/
  log : List (Entry K)

namespace Program

open Effect (onStore attempt collecting updateWatcher)

variable {K S α : Type}

/-- What programs run as. -/
abbrev Run (K S α : Type) := Effect K (Scene K S) α

/-- Add an entry to the log. -/
def note (e : Entry K) : Run K S Unit :=
  Effect.modifyStage fun s => { s with log := e :: s.log }

/-- End as the result says. -/
def finish : Except Fault Unit → Run K S Unit
  | .ok () => pure ()
  | .error f => Effect.fail f

/-- Run an effect, and note what it comes to, however it ends. -/
def noting (e : Except Stop Unit → Entry K) (body : Run K S Unit) : Run K S Unit := fun u =>
  let (result, u) := body u
  (result, { u with stage.log := e result :: u.stage.log })

/-- The watcher that is held under a name. -/
def holder (name : String) : Run K S (Option WatcherId) := do
  return Keyed.get? (← Effect.stage).held name

/-- An effect on the watcher that is held under a name. -/
def withHeld (name : String) (body : WatcherId → Run K S Unit) : Run K S Unit := do
  match ← holder name with
  | none => Effect.fail (.missing .watcher)
  | some w => body w

/-- Make a watcher, and hold it under a name. -/
def watching (root : MappingId) (expression : String) (label : K) (name : String) :
    Run K S Unit := do
  let w ← Effect.watch root expression label
  Effect.modifyStage fun s => { s with held := Keyed.put s.held name w }

/-- What is known of the watcher that is held under a name. -/
def sight (name : String) : Run K S (Option (Value × Nat)) := do
  let w ← holder name
  let s ← Effect.store
  pure ((w.bind fun w => s.watchers[w]?).map fun watcher => (watcher.value, watcher.evaluations))

variable (react : K → Value → Run K S Unit)

/-- Write under a key, and note the slot that is there and how the write ends. -/
def write (m : MappingId) (key : String) (v : Value) : Run K S Unit := do
  match (← Effect.store).slot? m key with
  | none => Effect.set react m key v
  | some slot =>
    note (.notified slot)
    noting (.ended slot) (Effect.set react m key v)

/-- Write through an expression. -/
def writePath (root : MappingId) (expression : String) (v : Value) : Run K S Unit := do
  let (m, key) ← Effect.reading fun s =>
    let (visited, result) := s.target root expression
    (result, s.trackAll visited)
  write react m key v

/-- Notify the slot under a key. -/
def notifying (m : MappingId) (key : String) : Run K S Unit := do
  match (← Effect.store).slot? m key with
  | none => Effect.fail (.missing .slot)
  | some slot =>
    note (.notified slot)
    Effect.notify react slot

/-- Run a program. -/
def run : Program K S → Run K S Unit
  | done result => finish result
  | alter change next => do
    Effect.modifyStage fun s => { s with state := change s.state }
    run (next (← Effect.stage).state)
  | observe j next => do run (next (← onStore fun s => s.observe j))
  | get m key next => do run (next (← Effect.get? m key))
  | getPath root expression next => do run (next (← attempt (Effect.getPath root expression)))
  | content root text next => do run (next (← attempt (Effect.content root text)))
  | set m key v next => do run (next (← attempt (write react m key v)))
  | setPath root expression v next => do run (next (← attempt (writePath react root expression v)))
  | notify m key next => do run (next (← attempt (notifying react m key)))
  | watch root expression label name next => do
    run (next (← attempt (watching root expression label name)))
  | update name next => do run (next (← attempt (withHeld name (updateWatcher react))))
  | collect name body next => do
    run (next (← attempt (withHeld name fun w => collecting w (run body))))
  | seen name next => do run (next (← sight name))

/-- Call the callback of a label, and note the call and its end. -/
def call (callback : K → Value → Program K S) (label : K) (v : Value) : Run K S Unit := do
  note (.called label v)
  run react (callback label v)
  let s ← Effect.store
  note (.returned label v s.valueAt)

/-- What watchers do when callbacks may be nested so deep. -/
def reactions (callback : K → Value → Program K S) : Nat → K → Value → Run K S Unit
  | 0 => fun _ _ => Effect.exhausted
  | depth + 1 => call (reactions callback depth) callback

/-! ## Operations, case by case -/

variable {u : World K (Scene K S)}

theorem write_of_none {m : MappingId} {key : String} {v : Value}
    (h : u.store.slot? m key = none) :
    write react m key v u = (.ok (), { u with store := u.store.install m key v }) := by
  unfold write
  rw [Effect.bind_apply]
  dsimp only [Effect.store]
  rw [h]
  exact Effect.set_of_none react h

theorem write_of_some {m : MappingId} {key : String} {v : Value} {slot : SlotId}
    (h : u.store.slot? m key = some slot) :
    write react m key v u = noting (.ended slot) (Effect.notify react slot)
      ⟨(if v.isMapping then u.store.install m key v else u.store).write slot v,
        { u.stage with log := .notified slot :: u.stage.log }⟩ := by
  unfold write
  rw [Effect.bind_apply]
  dsimp only [Effect.store]
  rw [h]
  dsimp only
  rw [Effect.bind_apply]
  dsimp only [note, Effect.modifyStage]
  have hset := Effect.set_of_some react (v := v)
    (u := { u with stage.log := .notified slot :: u.stage.log }) h
  unfold noting
  rw [hset]

theorem writePath_of_error {root : MappingId} {expression : String} {v : Value} {e : PathError}
    (h : (u.store.target root expression).2 = .error e) :
    writePath react root expression v u = (.error (.fault (.path e)),
      { u with store := u.store.trackAll (u.store.target root expression).1 }) :=
  Effect.reading_bind_of_error (Prod.ext h rfl)

theorem writePath_of_ok {root : MappingId} {expression : String} {v : Value} {m : MappingId}
    {key : String} (h : (u.store.target root expression).2 = .ok (m, key)) :
    writePath react root expression v u = write react m key v
      { u with store := u.store.trackAll (u.store.target root expression).1 } := by
  unfold writePath
  rw [Effect.reading_bind_of_ok (x := (m, key))
    (s := u.store.trackAll (u.store.target root expression).1)]
  exact Prod.ext h rfl

theorem notifying_of_none {m : MappingId} {key : String} (h : u.store.slot? m key = none) :
    notifying react m key u = (.error (.fault (.missing .slot)), u) := by
  unfold notifying
  rw [Effect.bind_apply]
  dsimp only [Effect.store]
  rw [h]
  rfl

theorem notifying_of_some {m : MappingId} {key : String} {slot : SlotId}
    (h : u.store.slot? m key = some slot) :
    notifying react m key u = Effect.notify react slot
      { u with stage.log := .notified slot :: u.stage.log } := by
  unfold notifying
  rw [Effect.bind_apply]
  dsimp only [Effect.store]
  rw [h]
  rfl

theorem call_apply (callback : K → Value → Program K S) (label : K) (v : Value) :
    call react callback label v u =
      match run react (callback label v) { u with stage.log := .called label v :: u.stage.log } with
      | (.ok (), u) =>
        (.ok (), { u with stage.log := .returned label v u.store.valueAt :: u.stage.log })
      | (.error stop, u) => (.error stop, u) := by
  unfold call
  rw [Effect.bind_apply]
  dsimp only [note, Effect.modifyStage]
  rw [Effect.bind_apply]
  generalize run react (callback label v) _ = after
  obtain ⟨_ | _, u⟩ := after <;> rfl

end Program

end DataBinding
