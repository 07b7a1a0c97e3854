/-
  Effects: what changes a world of reactive data.

  A `World` is the reactive data together with a stage, on which the reactions
  of the watchers act.  An `Effect` answers with a value or stops, and leaves a
  world in either case: a fault does not undo what was done before it.  An effect
  that has used up its bound on the depth of callbacks is `Stop.exhausted`, which
  is no fault and which nothing handles.

  * `Effect.within` changes the data for the time of an effect, however that
    ends;
  * `Effect.mapFault` restates the fault of an effect.
-/
import DataBinding.Fault

namespace DataBinding

/-- Reactive data with the stage on which reactions act. -/
structure World (R σ : Type) where
  /-- The reactive data. -/
  store : Store R
  /-- The stage. -/
  stage : σ

/-- How an effect ends other than with a value. -/
inductive Stop where
  /-- A fault. -/
  | fault (f : Fault)
  /-- The bound on the depth of callbacks is used up. -/
  | exhausted

/-- What changes a world. -/
def Effect (R σ α : Type) := World R σ → Except Stop α × World R σ

namespace Effect

variable {R σ α β : Type}

/-- Run an effect and then another one on its value. -/
def andThen (a : Effect R σ α) (f : α → Effect R σ β) : Effect R σ β := fun w =>
  match a w with
  | (.ok x, w) => f x w
  | (.error e, w) => (.error e, w)

instance : Monad (Effect R σ) where
  pure x := fun w => (.ok x, w)
  bind := andThen

@[simp]
theorem pure_apply (x : α) (w : World R σ) : (pure x : Effect R σ α) w = (.ok x, w) := rfl

theorem bind_apply (a : Effect R σ α) (f : α → Effect R σ β) (w : World R σ) :
    (a >>= f) w =
      match a w with
      | (.ok x, w) => f x w
      | (.error e, w) => (.error e, w) := rfl

/-- Stop with a fault. -/
def fail (f : Fault) : Effect R σ α := fun w => (.error (.fault f), w)

/-- Stop for want of depth. -/
def exhausted : Effect R σ α := fun w => (.error .exhausted, w)

/-- The reactive data. -/
def store : Effect R σ (Store R) := fun w => (.ok w.store, w)

/-- Change the reactive data. -/
def modifyStore (f : Store R → Store R) : Effect R σ Unit := fun w =>
  (.ok (), { w with store := f w.store })

/-- The stage. -/
def stage : Effect R σ σ := fun w => (.ok w.stage, w)

/-- Change the stage. -/
def modifyStage (f : σ → σ) : Effect R σ Unit := fun w =>
  (.ok (), { w with stage := f w.stage })

/-- A computation that also changes the reactive data. -/
def onStore (f : Store R → α × Store R) : Effect R σ α := fun w =>
  let (x, s) := f w.store
  (.ok x, { w with store := s })

/-- A reading of the reactive data that may fail. -/
def reading (f : Store R → Except PathError α × Store R) : Effect R σ α := fun w =>
  match f w.store with
  | (.ok x, s) => (.ok x, { w with store := s })
  | (.error e, s) => (.error (.fault (.path e)), { w with store := s })

/-- Run an effect between two changes of the reactive data, the second of which
    is made however the action ends. -/
def within (enter leave : Store R → Store R) (body : Effect R σ α) : Effect R σ α := fun w =>
  let (result, w) := body { w with store := enter w.store }
  (result, { w with store := leave w.store })

/-- Restate the fault of an effect. -/
def mapFault (restate : Fault → Fault) (body : Effect R σ α) : Effect R σ α := fun w =>
  match body w with
  | (.error (.fault f), w) => (.error (.fault (restate f)), w)
  | other => other

/-- The value or the fault of an effect, as a value. -/
def attempt (body : Effect R σ α) : Effect R σ (Except Fault α) := fun w =>
  match body w with
  | (.ok x, w) => (.ok (.ok x), w)
  | (.error (.fault f), w) => (.ok (.error f), w)
  | (.error .exhausted, w) => (.error .exhausted, w)

/-- Run an effect on every item, in order, up to the first that stops. -/
def each (f : α → Effect R σ Unit) : List α → Effect R σ Unit
  | [] => pure ()
  | x :: rest => do f x; each f rest

end Effect

end DataBinding
