/-
  Properties that every program keeps.

  A property of worlds is `Steady` if the elementary changes that reading,
  collecting and counting make keep it, and `Kept` if remembering a value does,
  too.  For programs, `Program.Operable` lists what an operation of a program can
  change, and `Program.Kept` the elementary changes that operations are made of.
  `Program.Allowed` says that a program writes and watches only as allowed,
  whatever its reads and writes come to.

  * `Kept.updateWatcher`, `Kept.notify` and their like: an operation keeps what
    its elementary changes keep;
  * `Program.Operable.run`: a program keeps what its operations keep;
  * `Program.Kept.reactions`: what every elementary change keeps, every callback
    keeps at any depth.
-/
import DataBinding.Proofs.Reactive.Data
import DataBinding.Proofs.Reactive.Effects
import DataBinding.Proofs.Reactive.Program

namespace DataBinding

open Effect (Preserves)

variable {R σ : Type}

/-- A property that reading, collecting and counting keep. -/
structure Steady (P : World R σ → Prop) : Prop where
  /-- A subscription keeps it. -/
  subscribe : ∀ u slot w, P u → P { u with store := u.store.subscribe slot w }
  /-- Counting an evaluation keeps it. -/
  count : ∀ u w, P u → P { u with store := u.store.updateWatcher w fun watcher =>
    { watcher with evaluations := watcher.evaluations + 1 } }
  /-- It does not depend on who collects. -/
  collecting : ∀ u ws, P u → P { u with store.collecting := ws }
  /-- It does not depend on the open notifications. -/
  depth : ∀ u n, P u → P { u with store.depth := n }

/-- A property that reading, collecting, counting and remembering keep. -/
structure Kept (P : World R σ → Prop) : Prop extends Steady P where
  /-- Remembering a value keeps it. -/
  remember : ∀ u w v, P u → P { u with store := u.store.updateWatcher w fun watcher =>
    { watcher with value := v } }

namespace Steady

variable {P : World R σ → Prop} (hP : Steady P)

include hP

theorem trackAll : ∀ (slots : List SlotId) (u : World R σ), P u →
    P { u with store := u.store.trackAll slots }
  | [], _, hu => hu
  | slot :: rest, u, hu => by
    have htrack : P { u with store := u.store.track slot } := by
      unfold Store.track
      split
      · exact hu
      · exact hP.subscribe u slot _ hu
    exact trackAll rest { u with store := u.store.track slot } htrack

theorem track (slot : SlotId) (u : World R σ) (hu : P u) :
    P { u with store := u.store.track slot } :=
  hP.trackAll [slot] u hu

theorem get? (m : MappingId) (key : String) : Preserves P (Effect.get? m key) := by
  refine Preserves.onStore fun u hu => ?_
  split
  · exact hu
  · exact hP.track _ u hu

theorem getPath (root : MappingId) (expression : String) :
    Preserves P (Effect.getPath root expression) := by
  refine Preserves.reading fun u hu => ?_
  rw [Store.evaluate_snd]
  exact hP.trackAll _ u hu

theorem content (root : MappingId) (text : String) : Preserves P (Effect.content root text) := by
  refine Preserves.reading fun u hu => ?_
  obtain ⟨slots, h⟩ := Store.exists_trackAll_fillPieces root (Template.pieces text) u.store
  rw [show (u.store.fill root text).2 = u.store.trackAll slots from h]
  exact hP.trackAll slots u hu

theorem evaluate (w : WatcherId) (watcher : Watcher R) :
    Preserves P (Effect.evaluate w watcher) :=
  (Preserves.modifyStore fun u hu => hP.count u w hu).bind fun _ => hP.getPath _ _

theorem whileCollecting {α : Type} {body : Effect R σ α} (w : WatcherId)
    (hbody : Preserves P body) : Preserves P (Effect.collecting w body) :=
  Preserves.within (fun u hu => hP.collecting u _ hu) (fun u hu => hP.collecting u _ hu) hbody

/-- A pass over a dependency set keeps what updates keep. -/
theorem notify {react : R → Value → Effect R σ Unit}
    (hupdate : ∀ w, Preserves P (Effect.updateWatcher react w)) (slot : SlotId) :
    Preserves P (Effect.notify react slot) := by
  refine Preserves.store.bind fun s => ?_
  split
  · exact Preserves.pure ()
  next subscribers _ =>
    split
    · exact Preserves.fail _
    · exact Preserves.within (fun u hu => hP.depth u _ hu) (fun u hu => hP.depth u _ hu)
        (Preserves.each _ fun w _ => hupdate w)

end Steady

theorem Kept.updateWatcher {P : World R σ → Prop} (hP : Kept P)
    {react : R → Value → Effect R σ Unit} (hreact : ∀ label v, Preserves P (react label v))
    (w : WatcherId) : Preserves P (Effect.updateWatcher react w) := by
  refine Preserves.store.bind fun s => ?_
  split
  · exact Preserves.pure ()
  next watcher _ =>
    refine (hP.evaluate w watcher).bind fun v => ?_
    split
    · exact Preserves.pure ()
    · exact (hreact _ v).bind fun _ => Preserves.modifyStore fun u hu => hP.remember u w v hu

theorem Kept.notify {P : World R σ → Prop} (hP : Kept P) {react : R → Value → Effect R σ Unit}
    (hreact : ∀ label v, Preserves P (react label v)) (slot : SlotId) :
    Preserves P (Effect.notify react slot) :=
  hP.toSteady.notify (hP.updateWatcher hreact) slot

namespace Program

variable {K S : Type}

/-! ## What is allowed -/

/-- Whether a program writes and watches as allowed, whatever happens to it. -/
def Allowed (P : World K (Scene K S) → Prop) (writes : MappingId → String → Value → Prop)
    (labels : K → Prop) : Program K S → Prop
  | done _ => True
  | alter _ next => ∀ s, (next s).Allowed P writes labels
  | observe _ next => ∀ v, (next v).Allowed P writes labels
  | get _ _ next => ∀ v, (next v).Allowed P writes labels
  | getPath _ _ next => ∀ v, (next v).Allowed P writes labels
  | content _ _ next => ∀ t, (next t).Allowed P writes labels
  | set m key v next => writes m key v ∧ ∀ r, (next r).Allowed P writes labels
  | setPath root expression v next =>
    (∀ u m key, P u → (u.store.target root expression).2 = .ok (m, key) → writes m key v) ∧
      ∀ r, (next r).Allowed P writes labels
  | notify _ _ next => ∀ r, (next r).Allowed P writes labels
  | watch _ _ label _ next => labels label ∧ ∀ r, (next r).Allowed P writes labels
  | update _ next => ∀ r, (next r).Allowed P writes labels
  | collect _ body next =>
    body.Allowed P writes labels ∧ ∀ r, (next r).Allowed P writes labels
  | seen _ next => ∀ r, (next r).Allowed P writes labels

/-- A program that is allowed to in more worlds is allowed to in fewer. -/
theorem Allowed.mono {P P' : World K (Scene K S) → Prop}
    {writes : MappingId → String → Value → Prop} {labels : K → Prop} (hP : ∀ u, P u → P' u) :
    ∀ {p : Program K S}, p.Allowed P' writes labels → p.Allowed P writes labels
  | .done _, _ => trivial
  | .alter _ _, h => fun s => (h s).mono hP
  | .observe _ _, h => fun v => (h v).mono hP
  | .get _ _ _, h => fun v => (h v).mono hP
  | .getPath _ _ _, h => fun v => (h v).mono hP
  | .content _ _ _, h => fun t => (h t).mono hP
  | .set _ _ _ _, h => ⟨h.1, fun r => (h.2 r).mono hP⟩
  | .setPath _ _ _ _, h =>
    ⟨fun u m key hu => h.1 u m key (hP u hu), fun r => (h.2 r).mono hP⟩
  | .notify _ _ _, h => fun r => (h r).mono hP
  | .watch _ _ _ _ _, h => ⟨h.1, fun r => (h.2 r).mono hP⟩
  | .update _ _, h => fun r => (h r).mono hP
  | .collect _ _ _, h => ⟨h.1.mono hP, fun r => (h.2 r).mono hP⟩
  | .seen _ _, h => fun r => (h r).mono hP

/-- Where everything is allowed, every program is. -/
theorem allowed_all (P : World K (Scene K S) → Prop) : ∀ p : Program K S,
    p.Allowed P (fun _ _ _ => True) fun _ => True
  | .done _ => trivial
  | .alter _ next => fun s => allowed_all P (next s)
  | .observe _ next => fun v => allowed_all P (next v)
  | .get _ _ next => fun v => allowed_all P (next v)
  | .getPath _ _ next => fun v => allowed_all P (next v)
  | .content _ _ next => fun t => allowed_all P (next t)
  | .set _ _ _ next => ⟨trivial, fun r => allowed_all P (next r)⟩
  | .setPath _ _ _ next => ⟨fun _ _ _ _ _ => trivial, fun r => allowed_all P (next r)⟩
  | .notify _ _ next => fun r => allowed_all P (next r)
  | .watch _ _ _ _ next => ⟨trivial, fun r => allowed_all P (next r)⟩
  | .update _ next => fun r => allowed_all P (next r)
  | .collect _ body next => ⟨allowed_all P body, fun r => allowed_all P (next r)⟩
  | .seen _ next => fun r => allowed_all P (next r)

section

variable {P : World K (Scene K S) → Prop}

theorem preserves_finish : ∀ result, Preserves P (Program.finish result : Run K S Unit)
  | .ok () => Preserves.pure ()
  | .error f => Preserves.fail f

theorem preserves_withHeld (name : String) {body : WatcherId → Run K S Unit}
    (hbody : ∀ w, Preserves P (body w)) : Preserves P (Program.withHeld name body) := by
  refine (Preserves.stage.bind fun _ => Preserves.pure _).bind fun w => ?_
  split
  · exact Preserves.fail _
  · exact hbody _

theorem preserves_sight (name : String) :
    Preserves P (Program.sight name : Run K S (Option (Value × Nat))) :=
  (Preserves.stage.bind fun _ => Preserves.pure _).bind fun _ =>
    Preserves.store.bind fun _ => Preserves.pure _

end

/-! ## Operations -/

/-- A property that observing, and the changes of a scene outside its log, keep. -/
structure Indifferent (P : World K (Scene K S) → Prop) : Prop extends Steady P where
  /-- A new slot keeps it. -/
  newSlot : ∀ u v, P u → P { u with store := (u.store.newSlot v).2 }
  /-- A new mapping keeps it. -/
  newMapping : ∀ u members, P u → P { u with store := (u.store.newMapping members).2 }
  /-- It does not depend on what programs keep or hold. -/
  scene : ∀ u state held, P u → P { u with stage := ⟨state, held, u.stage.log⟩ }

namespace Indifferent

variable {P : World K (Scene K S) → Prop} (hP : Indifferent P)

include hP

mutual

theorem observe : ∀ (j : Json) (u : World K (Scene K S)), P u →
    P { u with store := (u.store.observe j).2 }
  | .null, _, hu | .bool _, _, hu | .number _, _, hu | .string _, _, hu | .array _, _, hu => hu
  | .object members, u, hu => hP.newMapping _ _ (observeMembers members u hu)

theorem observeMembers : ∀ (members : List (String × Json)) (u : World K (Scene K S)), P u →
    P { u with store := (u.store.observeMembers members).2 }
  | [], _, hu => hu
  | (_, j) :: rest, u, hu => observeMembers rest _ (hP.newSlot _ _ (observe j u hu))

end

/-- A new watcher keeps what its making and remembering keep. -/
theorem watching {label : K} (root : MappingId) (expression name : String)
    (hnew : ∀ u, P u → P { u with store := (u.store.newWatcher root expression label).2 })
    (hremember : ∀ u w v, P u → P { u with store := u.store.updateWatcher w fun watcher =>
      { watcher with value := v } }) :
    Preserves P (Program.watching root expression label name : Run K S Unit) := by
  refine Preserves.bind ?_ fun w => Preserves.modifyStage fun u hu => hP.scene u _ _ hu
  refine (Preserves.onStore hnew).bind fun w => ?_
  exact (hP.whileCollecting w (hP.evaluate w _)).bind fun v =>
    (Preserves.modifyStore fun u hu => hremember u w v hu).bind fun _ => Preserves.pure w

end Indifferent

/-- A property that the operations of programs keep which write and watch as
    allowed. -/
structure Operable (react : K → Value → Run K S Unit) (P : World K (Scene K S) → Prop)
    (writes : MappingId → String → Value → Prop) (labels : K → Prop) : Prop extends Indifferent P where
  /-- An update keeps it. -/
  update : ∀ w, Preserves P (Effect.updateWatcher react w)
  /-- A write keeps it. -/
  write : ∀ m key v, writes m key v → Preserves P (Program.write react m key v)
  /-- A notification keeps it. -/
  notify : ∀ m key, Preserves P (Program.notifying react m key)
  /-- A new watcher keeps it. -/
  watch : ∀ root expression label name, labels label →
    Preserves P (Program.watching root expression label name)

namespace Operable

variable {react : K → Value → Run K S Unit} {P : World K (Scene K S) → Prop}
  {writes : MappingId → String → Value → Prop} {labels : K → Prop}
  (hP : Operable react P writes labels)

include hP

theorem writePath {root : MappingId} {expression : String} {v : Value}
    (hwrite : ∀ u m key, P u → (u.store.target root expression).2 = .ok (m, key) →
      writes m key v) : Preserves P (Program.writePath react root expression v) := by
  intro u hu
  have htrack := hP.trackAll (u.store.target root expression).1 u hu
  cases htarget : (u.store.target root expression).2 with
  | error e =>
    rw [writePath_of_error react htarget]
    exact htrack
  | ok target =>
    rw [writePath_of_ok react htarget]
    exact hP.write _ _ v (hwrite u target.1 target.2 hu htarget) _ htrack

/-- **A program that writes and watches as allowed keeps what its operations
    keep.** -/
theorem run : ∀ p : Program K S, p.Allowed P writes labels → Preserves P (p.run react)
  | .done result, _ => preserves_finish result
  | .alter _ next, h =>
    (Preserves.modifyStage fun u hu => hP.scene u _ _ hu).bind fun _ =>
      Preserves.stage.bind fun s => run (next s.state) (h s.state)
  | .observe j next, h =>
    (Preserves.onStore fun u hu => hP.observe j u hu).bind fun v => run (next v) (h v)
  | .get m key next, h => (hP.get? m key).bind fun v => run (next v) (h v)
  | .getPath root expression next, h =>
    (hP.getPath root expression).attempt.bind fun v => run (next v) (h v)
  | .content root text next, h => (hP.content root text).attempt.bind fun t => run (next t) (h t)
  | .set m key v next, h => (hP.write m key v h.1).attempt.bind fun r => run (next r) (h.2 r)
  | .setPath _ _ _ next, h => (hP.writePath h.1).attempt.bind fun r => run (next r) (h.2 r)
  | .notify m key next, h => (hP.notify m key).attempt.bind fun r => run (next r) (h r)
  | .watch root expression label name next, h =>
    (hP.watch root expression label name h.1).attempt.bind fun r => run (next r) (h.2 r)
  | .update name next, h =>
    (preserves_withHeld name hP.update).attempt.bind fun r => run (next r) (h r)
  | .collect name body next, h =>
    (preserves_withHeld name fun w => hP.whileCollecting w (run body h.1)).attempt.bind fun r =>
      run (next r) (h.2 r)
  | .seen name next, h => (preserves_sight name).bind fun r => run (next r) (h r)

end Operable

/-! ## Elementary changes -/

/-- A property that every elementary change of programs keeps which write and
    watch as allowed. -/
structure Kept (P : World K (Scene K S) → Prop) (writes : MappingId → String → Value → Prop)
    (labels : K → Prop) : Prop extends Indifferent P where
  /-- Remembering a value keeps it. -/
  remember : ∀ u w v, P u → P { u with store := u.store.updateWatcher w fun watcher =>
    { watcher with value := v } }
  /-- A new watcher keeps it. -/
  newWatcher : ∀ u root expression label, labels label → P u →
    P { u with store := (u.store.newWatcher root expression label).2 }
  /-- An entry of the log keeps it. -/
  note : ∀ u e, P u → P { u with stage.log := e :: u.stage.log }
  /-- A new key keeps it. -/
  install : ∀ u m key v, writes m key v → u.store.slot? m key = none → P u →
    P { u with store := u.store.install m key v }
  /-- A write keeps it. -/
  write : ∀ u m key v slot, writes m key v → u.store.slot? m key = some slot → P u →
    P { u with store := (if v.isMapping then u.store.install m key v else u.store).write slot v }

namespace Kept

variable {P : World K (Scene K S) → Prop} {writes : MappingId → String → Value → Prop}
  {labels : K → Prop} (hP : Kept P writes labels)

include hP

theorem toKept : DataBinding.Kept P := { hP with }

theorem noteEntry (e : Entry K) : Preserves P (Program.note e) :=
  Preserves.modifyStage fun u hu => hP.note u e hu

variable {react : K → Value → Run K S Unit} (hreact : ∀ label v, Preserves P (react label v))

include hreact

theorem writing {m : MappingId} {key : String} {v : Value} (hwrite : writes m key v) :
    Preserves P (Program.write react m key v) := by
  intro u hu
  cases hslot : u.store.slot? m key with
  | none =>
    rw [write_of_none react hslot]
    exact hP.install u m key v hwrite hslot hu
  | some slot =>
    rw [write_of_some react hslot]
    refine hP.note _ _ (hP.toKept.notify hreact slot _ ?_)
    exact hP.note _ _ (hP.write u m key v slot hwrite hslot hu)

theorem notifying (m : MappingId) (key : String) :
    Preserves P (Program.notifying react m key) := by
  refine Preserves.store.bind fun s => ?_
  split
  · exact Preserves.fail _
  next slot _ => exact (hP.noteEntry _).bind fun _ => hP.toKept.notify hreact slot

/-- The operations of programs keep what their elementary changes keep. -/
theorem operable : Operable react P writes labels :=
  { hP with
    update := hP.toKept.updateWatcher hreact
    write := fun _ _ _ hwrite => hP.writing hreact hwrite
    notify := hP.notifying hreact
    watch := fun root expression label name hlabel => hP.toIndifferent.watching root expression name
      (fun u hu => hP.newWatcher u root expression label hlabel hu) hP.remember }

omit hreact

/-- Callbacks keep the property, however deep they may be nested. -/
theorem reactions {callback : K → Value → Program K S}
    (h : ∀ label v, (callback label v).Allowed P writes labels) :
    ∀ depth label v, Preserves P (Program.reactions callback depth label v)
  | 0, _, _ => Preserves.exhausted
  | depth + 1, label, v =>
    (hP.noteEntry _).bind fun _ => ((hP.operable (reactions h depth)).run _ (h label v)).bind
      fun _ => Preserves.store.bind fun _ => hP.noteEntry _

end Kept

end Program

end DataBinding
