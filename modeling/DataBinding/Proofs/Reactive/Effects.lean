/-
  Judgements on effects.

  * `Effect.Preserves P a`: a property of worlds that holds before the effect
    holds after it, however the effect ends;
  * `Effect.Ensures P a Q`: if `P` holds before the effect and the effect
    answers, `Q` holds of the answer and of the world after it;
  * `Effect.Mimics bad rel g a a'`: from related worlds the second effect
    answers as the first does, up to `g`, and leaves a related world, unless the
    first comes to a bad world;
  * `Effect.Ends a`: the effect does not stop for want of depth.

  For each there are rules for the ways in which effects are put together.
  What a notification, an update and a write come to in a world is said case by
  case (`notify_of_nil`, `notify_of_lt`, `notify_of_le` and their like).
-/
import DataBinding.Reactive.Notify

namespace DataBinding.Effect

variable {R σ α β : Type}

/-! ## Readings -/

/-- A reading answers what is read, or fails with the error of the path. -/
theorem reading_apply (f : Store R → Except PathError α × Store R) (u : World R σ) :
    reading f u = ((f u.store).1.mapError fun e => .fault (.path e),
      { u with store := (f u.store).2 }) := by
  unfold reading
  rcases f u.store with ⟨_ | _, _⟩ <;> rfl

theorem reading_bind_of_error {f : Store R → Except PathError α × Store R}
    {g : α → Effect R σ β} {u : World R σ} {e : PathError} {s : Store R}
    (h : f u.store = (.error e, s)) :
    (reading f >>= g) u = (.error (.fault (.path e)), { u with store := s }) := by
  rw [bind_apply, reading_apply, h]
  rfl

theorem reading_bind_of_ok {f : Store R → Except PathError α × Store R} {g : α → Effect R σ β}
    {u : World R σ} {x : α} {s : Store R} (h : f u.store = (.ok x, s)) :
    (reading f >>= g) u = g x { u with store := s } := by
  rw [bind_apply, reading_apply, h]
  rfl

/-! ## Properties that are kept -/

/-- A property that holds before an effect holds after it, however it ends. -/
def Preserves (P : World R σ → Prop) (a : Effect R σ α) : Prop :=
  ∀ u, P u → P (a u).2

namespace Preserves

variable {P : World R σ → Prop}

theorem pure (x : α) : Preserves P (Pure.pure x) := fun _ hu => hu

theorem fail (f : Fault) : Preserves P (fail f : Effect R σ α) := fun _ hu => hu

theorem exhausted : Preserves P (exhausted : Effect R σ α) := fun _ hu => hu

theorem store : Preserves P (store : Effect R σ (Store R)) := fun _ hu => hu

theorem stage : Preserves P (stage : Effect R σ σ) := fun _ hu => hu

/-- What is done after an effect keeps what the effect has come to. -/
theorem after {a : Effect R σ α} {f : α → Effect R σ β} {u : World R σ} (ha : P (a u).2)
    (hf : ∀ x, Preserves P (f x)) : P ((a >>= f) u).2 := by
  rw [bind_apply]
  cases hau : a u with
  | mk result u₁ =>
    rw [hau] at ha
    cases result with
    | ok x => exact hf x u₁ ha
    | error e => exact ha

theorem bind {a : Effect R σ α} {f : α → Effect R σ β} (ha : Preserves P a)
    (hf : ∀ x, Preserves P (f x)) : Preserves P (a >>= f) :=
  fun u hu => after (ha u hu) hf

theorem modifyStore {f : Store R → Store R}
    (h : ∀ u, P u → P { u with store := f u.store }) : Preserves P (modifyStore f) := h

theorem modifyStage {f : σ → σ} (h : ∀ u, P u → P { u with stage := f u.stage }) :
    Preserves P (modifyStage f) := h

theorem onStore {f : Store R → α × Store R}
    (h : ∀ u, P u → P { u with store := (f u.store).2 }) : Preserves P (onStore f) := h

theorem reading {f : Store R → Except PathError α × Store R}
    (h : ∀ u, P u → P { u with store := (f u.store).2 }) : Preserves P (reading f) := by
  intro u hu
  rw [reading_apply]
  exact h u hu

theorem within {enter leave : Store R → Store R} {body : Effect R σ α}
    (henter : ∀ u, P u → P { u with store := enter u.store })
    (hleave : ∀ u, P u → P { u with store := leave u.store }) (hbody : Preserves P body) :
    Preserves P (within enter leave body) :=
  fun u hu => hleave _ (hbody _ (henter u hu))

theorem attempt {body : Effect R σ α} (hbody : Preserves P body) : Preserves P (attempt body) := by
  intro u hu
  have h := hbody u hu
  unfold Effect.attempt
  cases hu' : body u with
  | mk result u₁ =>
    rw [hu'] at h
    rcases result with (_ | _) | _ <;> exact h

theorem each {f : α → Effect R σ Unit} :
    ∀ items, (∀ x ∈ items, Preserves P (f x)) → Preserves P (each f items)
  | [], _ => pure ()
  | x :: rest, h =>
    bind (h x List.mem_cons_self) fun _ => each rest fun y hy => h y (List.mem_cons_of_mem x hy)

end Preserves

/-! ## Properties of answers -/

/-- If a property holds before an effect and the effect answers, another one
    holds of the answer and of the world after it. -/
def Ensures (P : World R σ → Prop) (a : Effect R σ α) (Q : α → World R σ → Prop) : Prop :=
  ∀ u, P u → ∀ x u', a u = (.ok x, u') → Q x u'

namespace Ensures

variable {P P' : World R σ → Prop} {Q Q' : α → World R σ → Prop}

theorem bind {a : Effect R σ α} {f : α → Effect R σ β} {Q' : β → World R σ → Prop}
    (ha : Ensures P a Q) (hf : ∀ x, Ensures (Q x) (f x) Q') : Ensures P (a >>= f) Q' := by
  intro u hu y u' h
  rw [bind_apply] at h
  cases hau : a u with
  | mk result u₁ =>
    rw [hau] at h
    cases result with
    | ok x => exact hf x u₁ (ha u hu x u₁ hau) y u' h
    | error e => cases h

theorem within {enter leave : Store R → Store R} {body : Effect R σ α}
    (henter : ∀ u, P u → P' { u with store := enter u.store }) (hbody : Ensures P' body Q')
    (hleave : ∀ x u, Q' x u → Q x { u with store := leave u.store }) :
    Ensures P (within enter leave body) Q := by
  intro u hu x u' h
  unfold Effect.within at h
  cases hb : body { u with store := enter u.store } with
  | mk result u₁ =>
    rw [hb] at h
    obtain ⟨rfl, rfl⟩ := Prod.mk.inj h
    exact hleave x u₁ (hbody _ (henter u hu) x u₁ hb)

end Ensures

theorem Preserves.ensures {P : World R σ → Prop} {a : Effect R σ α} (h : Preserves P a) :
    Ensures P a fun _ => P := by
  intro u hu x u' hau
  have hP := h u hu
  rwa [hau] at hP

/-! ## Effects that do the same -/

/-- From related worlds the second effect answers as the first does, up to `g`,
    and leaves a related world, unless the first comes to a bad world.  Worlds
    that are bad stay so. -/
structure Mimics (bad : World R σ → Prop) (rel : World R σ → World R σ → Prop) (g : α → β)
    (a : Effect R σ α) (a' : Effect R σ β) : Prop where
  /-- Bad worlds stay bad. -/
  stays : Preserves bad a
  /-- The second effect does as the first. -/
  follows : ∀ u u', rel u u' →
    bad (a u).2 ∨ (a' u').1 = (a u).1.map g ∧ rel (a u).2 (a' u').2

namespace Mimics

variable {bad : World R σ → Prop} {rel : World R σ → World R σ → Prop}

theorem pure (g : α → β) (x : α) : Mimics bad rel g (Pure.pure x) (Pure.pure (g x)) :=
  ⟨Preserves.pure x, fun _ _ h => .inr ⟨rfl, h⟩⟩

theorem fail (g : α → β) (f : Fault) : Mimics bad rel g (fail f) (fail f) :=
  ⟨Preserves.fail f, fun _ _ h => .inr ⟨rfl, h⟩⟩

theorem exhausted (g : α → β) : Mimics bad rel g exhausted exhausted :=
  ⟨Preserves.exhausted, fun _ _ h => .inr ⟨rfl, h⟩⟩

theorem bind {γ δ : Type} {g : α → β} {h : γ → δ} {a : Effect R σ α} {a' : Effect R σ β}
    {f : α → Effect R σ γ} {f' : β → Effect R σ δ} (ha : Mimics bad rel g a a')
    (hf : ∀ x, Mimics bad rel h (f x) (f' (g x))) : Mimics bad rel h (a >>= f) (a' >>= f') where
  stays := ha.stays.bind fun x => (hf x).stays
  follows u u' hu := by
    have hstep := ha.follows u u' hu
    rw [bind_apply, bind_apply]
    cases hau : a u with
    | mk result u₁ =>
      cases hau' : a' u' with
      | mk result' u₁' =>
        rw [hau, hau'] at hstep
        rcases hstep with hbad | ⟨rfl, hrel⟩
        · left
          cases result with
          | ok x => exact (hf x).stays u₁ hbad
          | error e => exact hbad
        · cases result with
          | ok x => exact (hf x).follows u₁ u₁' hrel
          | error e => exact .inr ⟨rfl, hrel⟩

theorem modifyStore {f f' : Store R → Store R}
    (hbad : ∀ u, bad u → bad { u with store := f u.store })
    (h : ∀ u u', rel u u' → rel { u with store := f u.store } { u' with store := f' u'.store }) :
    Mimics bad rel id (modifyStore f) (modifyStore f') :=
  ⟨hbad, fun u u' hu => .inr ⟨rfl, h u u' hu⟩⟩

theorem modifyStage {f f' : σ → σ} (hbad : ∀ u, bad u → bad { u with stage := f u.stage })
    (h : ∀ u u', rel u u' → rel { u with stage := f u.stage } { u' with stage := f' u'.stage }) :
    Mimics bad rel id (modifyStage f) (modifyStage f') :=
  ⟨hbad, fun u u' hu => .inr ⟨rfl, h u u' hu⟩⟩

theorem onStore {g : α → β} {f : Store R → α × Store R} {f' : Store R → β × Store R}
    (hbad : ∀ u, bad u → bad { u with store := (f u.store).2 })
    (h : ∀ u u', rel u u' → (f' u'.store).1 = g (f u.store).1 ∧
      rel { u with store := (f u.store).2 } { u' with store := (f' u'.store).2 }) :
    Mimics bad rel g (onStore f) (onStore f') := by
  refine ⟨hbad, fun u u' hu => .inr ⟨?_, (h u u' hu).2⟩⟩
  exact congrArg Except.ok (h u u' hu).1

theorem reading {f f' : Store R → Except PathError α × Store R}
    (hbad : ∀ u, bad u → bad { u with store := (f u.store).2 })
    (h : ∀ u u', rel u u' → (f' u'.store).1 = (f u.store).1 ∧
      rel { u with store := (f u.store).2 } { u' with store := (f' u'.store).2 }) :
    Mimics bad rel id (reading f) (reading f') := by
  refine ⟨Preserves.reading hbad, fun u u' hu => .inr ?_⟩
  obtain ⟨hresult, hrel⟩ := h u u' hu
  rw [reading_apply, reading_apply, hresult]
  refine ⟨?_, hrel⟩
  cases (f u.store).1 <;> rfl

theorem within {g : α → β} {enter enter' leave leave' : Store R → Store R}
    {body : Effect R σ α} {body' : Effect R σ β}
    (hin : ∀ u, bad u → bad { u with store := enter u.store })
    (hout : ∀ u, bad u → bad { u with store := leave u.store })
    (henter : ∀ u u', rel u u' →
      rel { u with store := enter u.store } { u' with store := enter' u'.store })
    (hleave : ∀ u u', rel u u' →
      rel { u with store := leave u.store } { u' with store := leave' u'.store })
    (hbody : Mimics bad rel g body body') :
    Mimics bad rel g (within enter leave body) (within enter' leave' body') where
  stays := Preserves.within hin hout hbody.stays
  follows u u' hu := by
    rcases hbody.follows _ _ (henter u u' hu) with hbad | ⟨hresult, hrel⟩
    · exact .inl (hout _ hbad)
    · exact .inr ⟨hresult, hleave _ _ hrel⟩

theorem attempt {body body' : Effect R σ α} (hbody : Mimics bad rel id body body') :
    Mimics bad rel id (attempt body) (attempt body') where
  stays := hbody.stays.attempt
  follows u u' hu := by
    have hstep := hbody.follows u u' hu
    unfold Effect.attempt
    cases hb : body u with
    | mk result u₁ =>
      cases hb' : body' u' with
      | mk result' u₁' =>
        rw [hb, hb'] at hstep
        rcases hstep with hbad | ⟨rfl, hrel⟩
        · left
          rcases result with (_ | _) | _ <;> exact hbad
        · right
          rcases result with (_ | _) | _ <;> exact ⟨rfl, hrel⟩

theorem each {g : α → β} {f : α → Effect R σ Unit} {f' : β → Effect R σ Unit}
    (hf : ∀ x, Mimics bad rel id (f x) (f' (g x))) :
    ∀ items, Mimics bad rel id (each f items) (each f' (items.map g))
  | [] => pure id ()
  | x :: rest => (hf x).bind fun _ => each hf rest

end Mimics

/-! ## Effects that come to an end -/

/-- An effect does not stop for want of depth. -/
def Ends (a : Effect R σ α) : Prop :=
  ∀ u, (a u).1 ≠ .error .exhausted

namespace Ends

theorem pure (x : α) : Ends (Pure.pure x : Effect R σ α) := fun _ => by rintro ⟨⟩

theorem fail (f : Fault) : Ends (fail f : Effect R σ α) := fun _ => by rintro ⟨⟩

theorem stage : Ends (stage : Effect R σ σ) := fun _ => by rintro ⟨⟩

theorem modifyStore (f : Store R → Store R) : Ends (modifyStore f : Effect R σ Unit) :=
  fun _ => by rintro ⟨⟩

theorem modifyStage (f : σ → σ) : Ends (modifyStage f : Effect R σ Unit) :=
  fun _ => by rintro ⟨⟩

theorem onStore (f : Store R → α × Store R) : Ends (onStore f : Effect R σ α) :=
  fun _ => by rintro ⟨⟩

theorem reading (f : Store R → Except PathError α × Store R) :
    Ends (reading f : Effect R σ α) := by
  intro u
  rw [reading_apply]
  cases (f u.store).1 <;> rintro ⟨⟩

theorem bind {a : Effect R σ α} {f : α → Effect R σ β} (ha : Ends a) (hf : ∀ x, Ends (f x)) :
    Ends (a >>= f) := by
  intro u
  have hau := ha u
  rw [bind_apply]
  rcases h : a u with ⟨_ | x, u₁⟩
  · rw [h] at hau
    exact fun he => hau (congrArg Except.error (Except.error.inj he))
  · exact hf x u₁

theorem mapFault {a : Effect R σ α} (h : Ends a) (f : Fault → Fault) :
    Ends (mapFault f a) := by
  intro u
  have hau := h u
  unfold Effect.mapFault
  rcases hu : a u with ⟨(_ | _) | _, _⟩
  · rintro ⟨⟩
  · exact absurd (congrArg Prod.fst hu) hau
  · rintro ⟨⟩

end Ends

/-! ## Effects that answer -/

theorem bind_eq_ok {a : Effect R σ α} {f : α → Effect R σ β} {u u' : World R σ} {y : β} :
    (a >>= f) u = (.ok y, u') ↔ ∃ x u₁, a u = (.ok x, u₁) ∧ f x u₁ = (.ok y, u') := by
  rw [bind_apply]
  cases a u with
  | mk result u₁ =>
    cases result with
    | ok x =>
      constructor
      · exact fun h => ⟨x, u₁, rfl, h⟩
      · rintro ⟨x', u₁', hx, h⟩
        cases hx
        exact h
    | error e =>
      constructor
      · nofun
      · rintro ⟨x', u₁', hx, -⟩
        cases hx

theorem eq_ok_of_toOption {a : Effect R σ α} {u : World R σ} {x : α}
    (h : (a u).1.toOption = some x) : a u = (.ok x, (a u).2) := by
  rcases hu : a u with ⟨e | y, u'⟩
  · rw [hu] at h
    cases h
  · rw [hu] at h
    obtain rfl := Option.some.inj h
    rfl

theorem each_append (f : α → Effect R σ Unit) (ys : List α) : ∀ xs,
    each f (xs ++ ys) = (do each f xs; each f ys)
  | [] => rfl
  | x :: xs => by
    funext u
    rw [List.cons_append, each, each, each_append f ys xs, bind_apply, bind_apply, bind_apply]
    rcases f x u with ⟨_ | _, _⟩ <;> rfl

theorem each_cons_eq_ok {f : α → Effect R σ Unit} {x : α} {rest : List α} {u u' : World R σ} :
    each f (x :: rest) u = (.ok (), u') ↔
      ∃ u₁, f x u = (.ok (), u₁) ∧ each f rest u₁ = (.ok (), u') := by
  rw [each, bind_eq_ok]
  exact ⟨fun ⟨(), u₁, h⟩ => ⟨u₁, h⟩, fun ⟨u₁, h⟩ => ⟨(), u₁, h⟩⟩

/-! ## Operations, case by case -/

section

variable (react : R → Value → Effect R σ Unit) {u : World R σ}

theorem updateWatcher_of_none {w : WatcherId} (h : u.store.watchers[w]? = none) :
    updateWatcher react w u = (.ok (), u) := by
  unfold updateWatcher
  rw [bind_apply]
  dsimp only [store]
  rw [h]
  rfl

theorem updateWatcher_of_some {w : WatcherId} {watcher : Watcher R}
    (h : u.store.watchers[w]? = some watcher) :
    updateWatcher react w u =
      (evaluate w watcher >>= fun v =>
        if v.equal watcher.value then Pure.pure ()
        else react watcher.reaction v >>= fun _ => remember w v) u := by
  unfold updateWatcher
  rw [bind_apply]
  dsimp only [store]
  rw [h]

theorem notify_of_nil {slot : SlotId} (h : u.store.subscribers slot = []) :
    notify react slot u = (.ok (), u) := by
  unfold notify
  rw [bind_apply]
  dsimp only [store]
  rw [h]
  rfl

/-- A pass is refused if as many are open as may be. -/
theorem notify_of_lt {slot : SlotId} (h : u.store.subscribers slot ≠ [])
    (hlimit : u.store.limit < u.store.depth + 1) :
    notify react slot u = (.error (.fault (.depthExceeded u.store.limit)), u) := by
  unfold notify
  rw [bind_apply]
  dsimp only [store]
  cases hs : u.store.subscribers slot with
  | nil => exact absurd hs h
  | cons w ws =>
    dsimp only
    rw [if_pos hlimit]
    rfl

theorem notify_of_le {slot : SlotId} (h : u.store.subscribers slot ≠ [])
    (hlimit : u.store.depth + 1 ≤ u.store.limit) :
    notify react slot u =
      notifying (each (updateWatcher react) (u.store.subscribers slot)) u := by
  unfold notify
  rw [bind_apply]
  dsimp only [store]
  cases hs : u.store.subscribers slot with
  | nil => exact absurd hs h
  | cons w ws =>
    dsimp only
    rw [if_neg (Nat.not_lt.2 hlimit)]

theorem set_of_none {m : MappingId} {key : String} {v : Value} (h : u.store.slot? m key = none) :
    set react m key v u = (.ok (), { u with store := u.store.install m key v }) := by
  unfold set
  rw [bind_apply]
  dsimp only [store]
  rw [h]
  rfl

theorem set_of_some {m : MappingId} {key : String} {v : Value} {slot : SlotId}
    (h : u.store.slot? m key = some slot) :
    set react m key v u = notify react slot { u with store :=
      (if v.isMapping then u.store.install m key v else u.store).write slot v } := by
  unfold set
  rw [bind_apply]
  dsimp only [store]
  rw [h]
  rfl

variable {root : MappingId} {expression : String} {v : Value}

/-- A write through an expression that does not resolve is no write. -/
theorem setPath_of_error {e : PathError} (h : (u.store.target root expression).2 = .error e) :
    setPath react root expression v u = (.error (.fault (.path e)),
      { u with store := u.store.trackAll (u.store.target root expression).1 }) :=
  reading_bind_of_error (Prod.ext h rfl)

theorem setPath_of_ok {m : MappingId} {key : String}
    (h : (u.store.target root expression).2 = .ok (m, key)) :
    setPath react root expression v u = set react m key v
      { u with store := u.store.trackAll (u.store.target root expression).1 } := by
  unfold setPath
  rw [reading_bind_of_ok (x := (m, key))
    (s := u.store.trackAll (u.store.target root expression).1)]
  exact Prod.ext h rfl

end

end DataBinding.Effect
