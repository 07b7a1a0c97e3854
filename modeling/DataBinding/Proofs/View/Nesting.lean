/-
  Writes come to an end.

  The open notifications are bounded, and every callback is called from one more
  of them.  So callbacks need be nested only as deep as there is room for
  notifications: with that depth a write ends, whatever the callbacks write in
  turn, and a greater one changes nothing.  The callbacks must leave it to
  notifications to update watchers.

  * `Effect.Concur`: two effects do the same and come to an end, where so many
    notifications are open of so many; one rule for every way of putting effects
    together;
  * `Routine.concur_react`: the callbacks of two engines with depth enough;
  * `Routine.writes_end`: writes end.
-/
import DataBinding.Proofs.View.Routine

namespace DataBinding

open Effect (Idle mapFault attempt fail)

variable {R σ α β : Type}

/-! ## Effects that concur -/

theorem Play.ends_rerender (id : DocumentId) (node : NodeId) (facet : Facet) (v : Value) :
    (rerender id node facet v).Ends := by
  have hread : (documentAt id).Ends := Effect.Ends.stage.bind fun _ => .pure _
  refine hread.bind fun d => ?_
  split
  · exact .pure ()
  · refine .mapFault (hread.bind fun d => (Effect.Ends.modifyStage _).bind fun _ => ?_) _
    split
    · exact .pure ()
    · exact .fail _

/-- Of so many notifications that may be open, so many are. -/
def World.Nested (limit depth : Nat) (u : World R σ) : Prop :=
  u.store.limit = limit ∧ u.store.depth = depth

/-- Where so many notifications are open of so many, two effects do the same,
    come to an end, and leave as many open. -/
def Effect.Concur (limit depth : Nat) (a a' : Effect R σ α) : Prop :=
  ∀ u, u.Nested limit depth →
    a' u = a u ∧ (a u).1 ≠ .error .exhausted ∧ (a u).2.Nested limit depth

namespace Effect.Concur

variable {limit depth : Nat}

theorem idle {a : Effect R σ α} (h : Idle a) (hends : Ends a) : Concur limit depth a a := by
  intro u hu
  have hactivity := h u.store.activity u rfl
  refine ⟨rfl, hends u, ?_⟩
  exact ⟨(congrArg Activity.limit hactivity).trans hu.1,
    (congrArg Activity.depth hactivity).trans hu.2⟩

theorem pure (x : α) : Concur limit depth (Pure.pure x : Effect R σ α) (Pure.pure x) :=
  idle (fun _ => Preserves.pure x) (.pure x)

theorem fail (f : Fault) : Concur limit depth (fail f : Effect R σ α) (Effect.fail f) :=
  idle (fun _ => Preserves.fail f) (.fail f)

theorem modifyStore {f : Store R → Store R} (h : ∀ s, (f s).activity = s.activity) :
    Concur limit depth (modifyStore f : Effect R σ Unit) (Effect.modifyStore f) :=
  idle (.modifyStore h) (.modifyStore f)

/-- What is done next depends on the present store. -/
theorem ofStore {f f' : Store R → Effect R σ α}
    (h : ∀ s : Store R, s.limit = limit → s.depth = depth → Concur limit depth (f s) (f' s)) :
    Concur limit depth (store >>= f) (store >>= f') :=
  fun u hu => h u.store hu.1 hu.2 u hu

theorem bind {a a' : Effect R σ α} {f f' : α → Effect R σ β} (ha : Concur limit depth a a')
    (hf : ∀ x, Concur limit depth (f x) (f' x)) : Concur limit depth (a >>= f) (a' >>= f') := by
  intro u hu
  obtain ⟨hsame, hends, hnested⟩ := ha u hu
  rw [bind_apply, bind_apply, hsame]
  rcases h : a u with ⟨e | x, u₁⟩
  · rw [h] at hends hnested
    exact ⟨rfl, fun he => hends (congrArg Except.error (Except.error.inj he)), hnested⟩
  · rw [h] at hnested
    exact hf x u₁ hnested

theorem attempt {a a' : Effect R σ α} (h : Concur limit depth a a') :
    Concur limit depth (attempt a) (Effect.attempt a') := by
  intro u hu
  obtain ⟨hsame, hends, hnested⟩ := h u hu
  unfold Effect.attempt
  rw [hsame]
  rcases hau : a u with ⟨(f | _) | x, u₁⟩
  · rw [hau] at hnested
    exact ⟨rfl, by rintro ⟨⟩, hnested⟩
  · exact absurd (congrArg Prod.fst hau) hends
  · rw [hau] at hnested
    exact ⟨rfl, by rintro ⟨⟩, hnested⟩

theorem each {f f' : α → Effect R σ Unit} (h : ∀ x, Concur limit depth (f x) (f' x)) :
    ∀ items, Concur limit depth (each f items) (Effect.each f' items)
  | [] => pure ()
  | x :: rest => (h x).bind fun _ => each h rest

theorem collecting (w : WatcherId) {a a' : Effect R σ α} (h : Concur limit depth a a') :
    Concur limit depth (collecting w a) (Effect.collecting w a') := by
  intro u hu
  obtain ⟨hsame, hends, hnested⟩ := h { u with store.collecting := w :: u.store.collecting } hu
  refine ⟨?_, hends, hnested⟩
  unfold Effect.collecting within
  dsimp only
  rw [hsame]

theorem notifying {a a' : Effect R σ α} (h : Concur limit (depth + 1) a a') :
    Concur limit depth (notifying a) (Effect.notifying a') := by
  intro u hu
  obtain ⟨hsame, hends, hlimit, hdepth⟩ :=
    h { u with store.depth := u.store.depth + 1 } ⟨hu.1, congrArg (· + 1) hu.2⟩
  refine ⟨?_, hends, hlimit, congrArg (· - 1) hdepth⟩
  unfold Effect.notifying within
  dsimp only
  rw [hsame]

theorem get? (m : MappingId) (key : String) :
    Concur limit depth (get? m key : Effect R σ (Option Value)) (Effect.get? m key) :=
  idle (idle_get? m key) (.onStore _)

theorem getPath (root : MappingId) (expression : String) :
    Concur limit depth (getPath root expression : Effect R σ Value)
      (Effect.getPath root expression) :=
  idle (idle_getPath root expression) (.reading _)

theorem content (root : MappingId) (text : String) :
    Concur limit depth (content root text : Effect R σ String) (Effect.content root text) :=
  idle (idle_content root text) (.reading _)

theorem evaluate (w : WatcherId) (watcher : Watcher R) :
    Concur limit depth (evaluate w watcher : Effect R σ Value) (Effect.evaluate w watcher) :=
  idle (idle_evaluate w watcher) ((Ends.modifyStore _).bind fun _ => .reading _)

theorem remember (w : WatcherId) (v : Value) :
    Concur limit depth (remember w v : Effect R σ Unit) (Effect.remember w v) :=
  idle (.modifyStore fun _ => rfl) (.modifyStore _)

theorem watch (root : MappingId) (expression : String) (reaction : R) :
    Concur limit depth (watch root expression reaction : Effect R σ WatcherId)
      (Effect.watch root expression reaction) := by
  refine (idle (.onStore fun _ => rfl) (.onStore _)).bind fun w => ?_
  exact (collecting w (evaluate w _)).bind fun v => (remember w v).bind fun _ => pure w

section

variable {react react' : R → Value → Effect R σ Unit}

theorem updateWatcher (h : ∀ reaction v, Concur limit depth (react reaction v) (react' reaction v))
    (w : WatcherId) :
    Concur limit depth (updateWatcher react w) (Effect.updateWatcher react' w) := by
  refine ofStore fun s _ _ => ?_
  cases s.watchers[w]? with
  | none => exact pure ()
  | some watcher =>
    refine (evaluate w watcher).bind fun v => ?_
    split
    · exact pure ()
    · exact (h _ v).bind fun _ => remember w v

variable (h : depth < limit →
  ∀ reaction v, Concur limit (depth + 1) (react reaction v) (react' reaction v))

include h

/-- A notification calls callbacks only where there is room for it, and they find
    one more open. -/
theorem notify (slot : SlotId) :
    Concur limit depth (notify react slot) (Effect.notify react' slot) := by
  refine ofStore fun s hlimit hdepth => ?_
  cases s.subscribers slot with
  | nil => exact pure ()
  | cons w ws =>
    dsimp only
    split
    · exact fail _
    next hroom =>
      rw [hlimit, hdepth, Nat.not_lt] at hroom
      exact notifying (each (updateWatcher (h hroom)) _)

theorem set (m : MappingId) (key : String) (v : Value) :
    Concur limit depth (set react m key v) (Effect.set react' m key v) := by
  refine ofStore fun s _ _ => ?_
  cases s.slot? m key with
  | none => exact modifyStore fun _ => rfl
  | some slot =>
    refine (modifyStore fun s => ?_).bind fun _ => notify h slot
    split <;> rfl

theorem setPath (root : MappingId) (expression : String) (v : Value) :
    Concur limit depth (setPath react root expression v)
      (Effect.setPath react' root expression v) := by
  refine (idle (.reading fun s => ?_) (.reading _)).bind fun target => set h _ _ v
  exact s.activity_trackAll _

end

end Effect.Concur

/-! ## Routines that leave updates to notifications -/

namespace Routine

open Effect (Concur)

/-- Whether a routine reads, writes, notifies, collects and makes watchers only,
    whatever happens to it. -/
def Passive : Routine → Prop
  | done _ => True
  | look next => ∀ u, (next u).Passive
  | arrange _ next => next.Passive
  | observe _ next => ∀ v, (next v).Passive
  | get _ _ next => ∀ v, (next v).Passive
  | getPath _ _ next => ∀ r, (next r).Passive
  | content _ _ next => ∀ r, (next r).Passive
  | set _ _ _ next => ∀ r, (next r).Passive
  | setPath _ _ _ next => ∀ r, (next r).Passive
  | notify _ next => ∀ r, (next r).Passive
  | watch _ _ _ next => ∀ r, (next r).Passive
  | collect _ body next => body.Passive ∧ ∀ r, (next r).Passive
  | update _ _ | mount _ _ | dispatch _ _ _ _ => False

variable {limit depth : Nat} {engine engine' : Engine}

/-- A routine does the same on two engines, if callbacks do where one more
    notification is open. -/
theorem concur_run (h : depth < limit → ∀ reaction v,
      Concur limit (depth + 1) (engine.react reaction v) (engine'.react reaction v)) :
    ∀ p : Routine, p.Passive → Concur limit depth (p.run engine) (p.run engine')
  | done (.ok ()), _ => .pure ()
  | done (.error f), _ => .fail f
  | look next, hp => fun u hu => concur_run h (next u) (hp u) u hu
  | arrange change next, hp =>
    (Concur.idle (fun _ => Effect.Preserves.modifyStage fun _ hu => hu) (.modifyStage change)).bind
      fun _ => concur_run h next hp
  | observe j next, hp =>
    (Concur.idle (Effect.idle_observe j) (.onStore _)).bind fun v => concur_run h (next v) (hp v)
  | get m key next, hp => (Concur.get? m key).bind fun v => concur_run h (next v) (hp v)
  | getPath root expression next, hp =>
    (Concur.getPath root expression).attempt.bind fun r => concur_run h (next r) (hp r)
  | content root text next, hp =>
    (Concur.content root text).attempt.bind fun r => concur_run h (next r) (hp r)
  | set m key v next, hp =>
    (Concur.set h m key v).attempt.bind fun r => concur_run h (next r) (hp r)
  | setPath root expression v next, hp =>
    (Concur.setPath h root expression v).attempt.bind fun r => concur_run h (next r) (hp r)
  | notify slot next, hp =>
    (Concur.notify h slot).attempt.bind fun r => concur_run h (next r) (hp r)
  | watch root expression reaction next, hp =>
    (Concur.watch root expression reaction).attempt.bind fun r => concur_run h (next r) (hp r)
  | collect w body next, hp =>
    (Concur.collecting w (concur_run h body hp.1)).attempt.bind fun r =>
      concur_run h (next r) (hp.2 r)

section

variable (user : Callback → Routine) (n : Nat) (document : DocumentId) (node : NodeId) (v : Value)

theorem react_script (body : Script) :
    (Routine.engine user (n + 1)).react (.script body) v =
      (user (.reaction (.script body) v)).run (Routine.engine user n) := rfl

theorem react_render (facet : Facet) :
    (Routine.engine user (n + 1)).react (.render document node facet) v =
      Play.rerender document node facet v := rfl

theorem react_fill (root : MappingId) (template : String) :
    (Routine.engine user (n + 1)).react (.fill document node root template) v = (do
      let text ← Effect.content root template
      Play.rerender document node .text (.string text)) := rfl

end

variable {user : Callback → Routine}
  (huser : ∀ reaction v, (user (.reaction reaction v)).Passive)

include huser

/-- Callbacks do the same on two engines in which they can be nested as deep as
    there is room for notifications: by induction on that room. -/
theorem concur_react : ∀ n n' depth : Nat, limit ≤ depth + n → limit ≤ depth + n' →
    depth < limit → ∀ reaction v, Concur limit (depth + 1)
      ((Routine.engine user n).react reaction v) ((Routine.engine user n').react reaction v)
  | 0, _, _, hn, _, hroom, _, _ => absurd hn (Nat.not_le.2 hroom)
  | _ + 1, 0, _, _, hn', hroom, _, _ => absurd hn' (Nat.not_le.2 hroom)
  | n + 1, n' + 1, depth, hn, hn', _, reaction, v => by
    have hinner := concur_react n n' (depth + 1) (by omega) (by omega)
    cases reaction with
    | script body =>
      rw [react_script, react_script]
      exact concur_run hinner _ (huser (.script body) v)
    | render document node facet =>
      rw [react_render, react_render]
      exact .idle (Play.idle_rerender document node facet v) (Play.ends_rerender _ _ _ _)
    | fill document node root template =>
      rw [react_fill, react_fill]
      refine (Concur.content root template).bind fun text => ?_
      exact .idle (Play.idle_rerender document node .text _) (Play.ends_rerender _ _ _ _)

/-- **Every write comes to an end, with a fault or without**, if callbacks leave
    updates to notifications: whatever they write in turn, they are nested at most
    as deep as there is room for notifications. -/
theorem writes_end (u : World Reaction Stage) (v : Value) :
    (∀ m key, ∃ outcome, outcome.1 ≠ .error .exhausted ∧
      ∀ depth, u.store.limit - u.store.depth ≤ depth →
        Effect.set (Routine.engine user depth).react m key v u = outcome) ∧
    ∀ root expression, ∃ outcome, outcome.1 ≠ .error .exhausted ∧
      ∀ depth, u.store.limit - u.store.depth ≤ depth →
        Effect.setPath (Routine.engine user depth).react root expression v u = outcome := by
  have hroom : u.store.limit ≤ u.store.depth + (u.store.limit - u.store.depth) := by omega
  have hreact {n : Nat} (hn : u.store.limit - u.store.depth ≤ n) :=
    concur_react huser _ n u.store.depth hroom (by omega)
  constructor
  · intro m key
    refine ⟨_, (Concur.set (hreact (Nat.le_refl _)) m key v u ⟨rfl, rfl⟩).2.1, fun n hn => ?_⟩
    exact (Concur.set (hreact hn) m key v u ⟨rfl, rfl⟩).1
  · intro root expression
    refine ⟨_, (Concur.setPath (hreact (Nat.le_refl _)) root expression v u ⟨rfl, rfl⟩).2.1,
      fun n hn => ?_⟩
    exact (Concur.setPath (hreact hn) root expression v u ⟨rfl, rfl⟩).1

omit huser

/-- A callback that writes to what it is called for ends, however deep callbacks
    may be nested: its own write is refused. -/
theorem writes_end_of_narrow :
    ∃ outcome, outcome.1 ≠ .error .exhausted ∧ ∀ depth, 1 ≤ depth →
      Effect.set (Routine.engine overwriting depth).react 0 "a" (.string "y") narrow = outcome := by
  have hpassive : ∀ reaction v, (overwriting (.reaction reaction v)).Passive :=
    fun _ _ _ => trivial
  exact (writes_end hpassive narrow (.string "y")).1 0 "a"

end Routine

end DataBinding
