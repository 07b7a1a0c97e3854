/-
  Callbacks that neither write nor watch.

  A `Tame` program reads reactive data, makes some, updates watchers and notifies
  slots: where nobody collects, watchers have been evaluated after it, and nothing else
  has happened (`Store.After`), however it ends and however deep callbacks are nested.

  * `Tame.updateWatcher`, `Tame.notify`: updates and notifications among such reactions;
  * `Program.tame_run`, `Program.tame_reactions`: programs and callbacks.
-/
import DataBinding.Proofs.Reactive.Silence

namespace DataBinding

variable {R σ α β : Type}

namespace Effect

/-- Where nobody collects, watchers have been evaluated after the effect, and nothing
    else has happened. -/
def Tame (a : Effect R σ α) : Prop :=
  ∀ u : World R σ, u.store.collecting = [] → ∃ done, u.store.After done (a u).2.store

theorem Silent.tame {a : Effect R σ α} (h : Silent a) : Tame a :=
  fun u hu => ⟨[], (h u hu).2⟩

namespace Tame

theorem exhausted : Tame (exhausted : Effect R σ α) := by
  intro u _
  exact ⟨[], .refl _⟩

theorem bind {a : Effect R σ α} {f : α → Effect R σ β} (ha : Tame a) (hf : ∀ x, Tame (f x)) :
    Tame (a >>= f) := by
  intro u hu
  obtain ⟨done, hafter⟩ := ha u hu
  rw [bind_apply]
  rcases h : a u with ⟨e | x, u₁⟩
  · rw [h] at hafter
    exact ⟨done, hafter⟩
  · rw [h] at hafter
    obtain ⟨done', hafter'⟩ := hf x u₁ (hafter.collecting hu)
    exact ⟨done ++ done', hafter.trans hafter'⟩

theorem attempt {a : Effect R σ α} (h : Tame a) : Tame (attempt a) := by
  intro u hu
  obtain ⟨done, hafter⟩ := h u hu
  refine ⟨done, ?_⟩
  unfold Effect.attempt
  rcases hau : a u with ⟨(f | _) | x, u₁⟩ <;> rw [hau] at hafter <;> exact hafter

theorem notifying {a : Effect R σ α} (h : Tame a) : Tame (notifying a) := by
  intro u hu
  obtain ⟨done, hafter⟩ := h { u with store.depth := u.store.depth + 1 } hu
  exact ⟨done, .of_entered hafter⟩

theorem each {f : α → Effect R σ Unit} (h : ∀ x, Tame (f x)) : ∀ items, Tame (each f items) := by
  intro items
  induction items with
  | nil => exact (Silent.pure ()).tame
  | cons x rest ih => exact (h x).bind fun _ => ih

theorem evaluate (w : WatcherId) (watcher : Watcher R) :
    Tame (evaluate w watcher : Effect R σ Value) := by
  intro u hu
  rw [evaluate_apply]
  dsimp only
  rw [Store.trackAll_of_not_collecting _ (show (u.store.counted w).collecting = [] from hu)]
  exact ⟨[w], .counted u.store w⟩

section

variable {react : R → Value → Effect R σ Unit} (hreact : ∀ label v, (react label v).Tame)

include hreact

/-- An update evaluates its watcher, and does what the reaction does. -/
theorem updateWatcher (w : WatcherId) : Tame (updateWatcher react w) := by
  refine Silent.store.tame.bind fun s => ?_
  split
  · exact (Silent.pure ()).tame
  next watcher _ =>
    refine (evaluate w watcher).bind fun v => ?_
    split
    · exact (Silent.pure ()).tame
    · exact (hreact _ v).bind fun _ => fun u _ => ⟨[], .remember u.store w v⟩

theorem notify (slot : SlotId) : Tame (notify react slot) := by
  refine Silent.store.tame.bind fun s => ?_
  split
  · exact (Silent.pure ()).tame
  · split
    · exact (Silent.fail _).tame
    · exact (each (updateWatcher hreact) _).notifying

end

end Tame

end Effect

namespace Program

open Effect (Silent)

variable {K S : Type}

/-- A program writes nothing, makes no watcher and collects nothing, whatever happens to
    it. -/
def Tame : Program K S → Prop
  | done _ => True
  | alter _ next => ∀ s, (next s).Tame
  | observe _ next => ∀ v, (next v).Tame
  | get _ _ next => ∀ v, (next v).Tame
  | getPath _ _ next => ∀ r, (next r).Tame
  | content _ _ next => ∀ r, (next r).Tame
  | notify _ _ next => ∀ r, (next r).Tame
  | update _ next => ∀ r, (next r).Tame
  | seen _ next => ∀ r, (next r).Tame
  | set _ _ _ _ | setPath _ _ _ _ | watch _ _ _ _ _ | collect _ _ _ => False

theorem silent_note (e : Entry K) : Silent (note e : Run K S Unit) :=
  .modifyStage _

section

variable {react : K → Value → Run K S Unit} (hreact : ∀ label v, (react label v).Tame)

include hreact

theorem tame_notifying (m : MappingId) (key : String) : (notifying react m key).Tame := by
  refine Silent.store.tame.bind fun s => ?_
  split
  · exact (Silent.fail _).tame
  · exact (silent_note _).tame.bind fun _ => .notify hreact _

theorem tame_update (name : String) :
    (withHeld name (Effect.updateWatcher react) : Run K S Unit).Tame := by
  refine (Silent.stage.bind fun _ => Silent.pure _).tame.bind fun w => ?_
  split
  · exact (Silent.fail _).tame
  · exact .updateWatcher hreact _

/-- **A program that neither writes nor watches** evaluates watchers at most. -/
theorem tame_run : ∀ p : Program K S, p.Tame → (p.run react).Tame
  | done (.ok ()), _ => (Silent.pure ()).tame
  | done (.error f), _ => (Silent.fail f).tame
  | alter _ next, h => (Silent.modifyStage _).tame.bind fun _ => Silent.stage.tame.bind fun s =>
    tame_run (next s.state) (h s.state)
  | observe j next, h => (Silent.observe j).tame.bind fun v => tame_run (next v) (h v)
  | get m key next, h => (Silent.get? m key).tame.bind fun v => tame_run (next v) (h v)
  | getPath root expression next, h =>
    (Silent.getPath root expression).attempt.tame.bind fun r => tame_run (next r) (h r)
  | content root text next, h =>
    (Silent.content root text).attempt.tame.bind fun r => tame_run (next r) (h r)
  | notify m key next, h =>
    (tame_notifying hreact m key).attempt.bind fun r => tame_run (next r) (h r)
  | update name next, h =>
    (tame_update hreact name).attempt.bind fun r => tame_run (next r) (h r)
  | seen name next, h =>
    have hholder : Silent (holder name : Run K S _) := Silent.stage.bind fun _ => .pure _
    (hholder.bind fun _ => Silent.store.bind fun _ => .pure _).tame.bind fun r =>
      tame_run (next r) (h r)
  | set _ _ _ _, h | setPath _ _ _ _, h | watch _ _ _ _ _, h | collect _ _ _, h => h.elim

end

/-- Callbacks that neither write nor watch are tame, however deep they are nested. -/
theorem tame_reactions {callback : K → Value → Program K S}
    (h : ∀ label v, (callback label v).Tame) (depth : Nat) :
    ∀ label v, (reactions callback depth label v).Tame := by
  induction depth with
  | zero => exact fun _ _ => .exhausted
  | succ depth ih =>
    intro label v
    exact (silent_note _).tame.bind fun _ => (tame_run ih _ (h label v)).bind fun _ =>
      Silent.store.tame.bind fun _ => (silent_note _).tame

end Program

end DataBinding
