/-
  Effects on a stage, and on a part of it.

  A stage may hold more than another one does: what is noted beside it, say.  An effect
  on the larger stage `Projects` to one on the smaller if it answers the same, and does
  the same to the reactive data and to the part of the stage that they share.

  * `Projects.bind` and its like: one rule for every way of putting effects together;
  * `Projects.set`, `Projects.notify`: the operations on reactive data project to
    themselves if what watchers do does.
-/
import DataBinding.Proofs.Reactive.Effects

namespace DataBinding

variable {R σ τ α β : Type} {part : τ → σ}

/-- A world with a part of its stage. -/
def World.map (part : τ → σ) (u : World R τ) : World R σ :=
  ⟨u.store, part u.stage⟩

namespace Effect

/-- An effect does as another one does, on a part of its stage. -/
def Projects (part : τ → σ) (a' : Effect R τ α) (a : Effect R σ α) : Prop :=
  ∀ u, ((a' u).1, (a' u).2.map part) = a (u.map part)

namespace Projects

theorem pure (x : α) : Projects part (Pure.pure x : Effect R τ α) (Pure.pure x) := fun _ => rfl

theorem fail (f : Fault) : Projects part (fail f : Effect R τ α) (Effect.fail f) :=
  fun _ => rfl

theorem exhausted : Projects part (exhausted : Effect R τ α) Effect.exhausted :=
  fun _ => rfl

theorem modifyStore (f : Store R → Store R) :
    Projects part (modifyStore f) (Effect.modifyStore f) := fun _ => rfl

theorem onStore (f : Store R → α × Store R) : Projects part (onStore f) (Effect.onStore f) :=
  fun _ => rfl

theorem reading (f : Store R → Except PathError α × Store R) :
    Projects part (reading f) (Effect.reading f) := by
  intro u
  rw [reading_apply, reading_apply]
  rfl

theorem bind {a' : Effect R τ α} {a : Effect R σ α} {f' : α → Effect R τ β}
    {f : α → Effect R σ β} (ha : Projects part a' a) (hf : ∀ x, Projects part (f' x) (f x)) :
    Projects part (a' >>= f') (a >>= f) := by
  intro u
  rw [bind_apply, bind_apply, ← ha u]
  rcases a' u with ⟨_ | x, u₁⟩
  · rfl
  · exact hf x u₁

/-- What is done next depends on the present store. -/
theorem ofStore {f' : Store R → Effect R τ α} {f : Store R → Effect R σ α}
    (h : ∀ s, Projects part (f' s) (f s)) :
    Projects part (store >>= f') (store >>= f) :=
  fun u => h u.store u

theorem mapFault {a' : Effect R τ α} {a : Effect R σ α} (h : Projects part a' a)
    (f : Fault → Fault) : Projects part (mapFault f a') (Effect.mapFault f a) := by
  intro u
  unfold Effect.mapFault
  rw [← h u]
  rcases a' u with ⟨(_ | _) | _, _⟩ <;> rfl

theorem attempt {a' : Effect R τ α} {a : Effect R σ α} (h : Projects part a' a) :
    Projects part (attempt a') (Effect.attempt a) := by
  intro u
  unfold Effect.attempt
  rw [← h u]
  rcases a' u with ⟨(_ | _) | _, _⟩ <;> rfl

theorem within {enter leave : Store R → Store R} {a' : Effect R τ α} {a : Effect R σ α}
    (h : Projects part a' a) :
    Projects part (within enter leave a') (Effect.within enter leave a) := by
  intro u
  have hbody := h { u with store := enter u.store }
  unfold Effect.within
  rw [show ({ u.map part with store := enter (u.map part).store } : World R σ) =
    World.map part { u with store := enter u.store } from rfl, ← hbody]
  rfl

theorem each {f' : α → Effect R τ Unit} {f : α → Effect R σ Unit}
    (h : ∀ x, Projects part (f' x) (f x)) :
    ∀ items, Projects part (each f' items) (Effect.each f items)
  | [] => pure ()
  | x :: rest => (h x).bind fun _ => each h rest

theorem evaluate (w : WatcherId) (watcher : Watcher R) :
    Projects part (evaluate w watcher) (Effect.evaluate w watcher) :=
  (modifyStore _).bind fun _ => reading _

theorem watch (root : MappingId) (expression : String) (reaction : R) :
    Projects part (watch root expression reaction) (Effect.watch root expression reaction) :=
  (onStore _).bind fun w => (within (evaluate w _)).bind fun _ =>
    (modifyStore _).bind fun _ => pure w

section

variable {react' : R → Value → Effect R τ Unit} {react : R → Value → Effect R σ Unit}
  (h : ∀ label v, Projects part (react' label v) (react label v))

include h

theorem updateWatcher (w : WatcherId) :
    Projects part (updateWatcher react' w) (Effect.updateWatcher react w) := by
  refine ofStore fun s => ?_
  cases s.watchers[w]? with
  | none => exact pure ()
  | some watcher =>
    refine (evaluate w watcher).bind fun v => ?_
    split
    · exact pure ()
    · exact (h _ v).bind fun _ => modifyStore _

theorem notify (slot : SlotId) :
    Projects part (notify react' slot) (Effect.notify react slot) := by
  refine ofStore fun s => ?_
  cases s.subscribers slot with
  | nil => exact pure ()
  | cons w ws =>
    dsimp only
    split
    · exact fail _
    · exact within (each (updateWatcher h) _)

theorem set (m : MappingId) (key : String) (v : Value) :
    Projects part (set react' m key v) (Effect.set react m key v) := by
  refine ofStore fun s => ?_
  cases s.slot? m key with
  | none => exact modifyStore _
  | some slot => exact (modifyStore _).bind fun _ => notify h slot

theorem setPath (root : MappingId) (expression : String) (v : Value) :
    Projects part (setPath react' root expression v) (Effect.setPath react root expression v) :=
  (reading _).bind fun _ => set h _ _ v

end

end Projects

end Effect

end DataBinding
