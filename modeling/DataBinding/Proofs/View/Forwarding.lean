/-
  Forwarded properties, which never go missing.

  The properties of a view model are the keys that its data had when it was mounted.
  Keys stay in their places, so these are the first keys of the data ever after
  (`World.Forwards`), and every property can be read.

  * `World.Since`: a world that forwards properties, in which no key and no view model
    of an earlier one is lost; one lemma for every operation that calls no callback
    (`Quiet.preserves_since`);
  * `Sound`: a timeline in which each world comes since those before it; marking,
    operations and callbacks keep it so;
  * `Course.properties_forwarded`: the worlds of every run, and what properties come to
    in them.
-/
import DataBinding.Proofs.Reactive.Keys
import DataBinding.Proofs.View.Course
import DataBinding.Proofs.View.Scenario

namespace DataBinding

open Effect (Preserves)

/-! ## Worlds that forward properties -/

namespace World

/-- No mapping has a key twice, and properties are the first keys of the data. -/
structure Forwards (u : World Reaction Stage) : Prop where
  nodup : ∀ m, (u.store.keys m).Nodup
  properties : ∀ vm ∈ u.stage.viewModels, vm.properties <+: u.store.keys vm.data

/-- Keys and view models stay in their places, and new ones come after them. -/
structure Grows (u v : World Reaction Stage) : Prop where
  store : u.store.Grows v.store
  viewModels : u.stage.viewModels.toList <+: v.stage.viewModels.toList

/-- A world forwards properties, and nothing of an earlier one is lost in it. -/
structure Since (u v : World Reaction Stage) : Prop where
  forwards : v.Forwards
  grows : u.Grows v

variable {u v w : World Reaction Stage}

theorem Forwards.fresh (hmappings : u.store.mappings = #[])
    (hviewModels : u.stage.viewModels = #[]) : u.Forwards where
  nodup m := by
    rw [Store.keys, Store.members, hmappings]
    exact List.nodup_nil
  properties vm hvm := by
    rw [hviewModels] at hvm
    exact absurd hvm (Array.not_mem_empty vm)

theorem Forwards.grow {s : Store Reaction} (h : u.Forwards) (hs : u.store.Grows s) :
    Forwards { u with store := s } where
  nodup m := (hs m).2 (h.nodup m)
  properties vm hvm := (h.properties vm hvm).trans (hs vm.data).1

theorem Grows.refl (u : World Reaction Stage) : u.Grows u :=
  ⟨.refl _, List.prefix_refl _⟩

theorem Grows.trans (h : u.Grows v) (h' : v.Grows w) : u.Grows w :=
  ⟨h.store.trans h'.store, h.viewModels.trans h'.viewModels⟩

namespace Since

theorem growing (u : World Reaction Stage) : Growing (Since u) := fun _ _ hv hs =>
  ⟨hv.forwards.grow hs, hv.grows.trans ⟨hs, List.prefix_refl _⟩⟩

theorem arrange (hv : Since u v) {s : Stage} (hs : s.viewModels = v.stage.viewModels) :
    Since u { v with stage := s } where
  forwards := ⟨hv.forwards.nodup, fun vm hvm => hv.forwards.properties vm (hs ▸ hvm)⟩
  grows := hv.grows.trans ⟨.refl _, hs ▸ List.prefix_refl _⟩

/-- A view model is made. -/
theorem enlist (hv : Since u v) {vm : ViewModel} (hvm : vm.properties <+: v.store.keys vm.data) :
    Since u (Play.addViewModel vm v).2 where
  forwards := by
    refine ⟨hv.forwards.nodup, fun vm' hvm' => ?_⟩
    obtain hold | rfl := Array.mem_push.1 hvm'
    · exact hv.forwards.properties vm' hold
    · exact hvm
  grows := by
    refine hv.grows.trans ⟨.refl _, ?_⟩
    change _ <+: (v.stage.viewModels.push vm).toList
    rw [Array.toList_push]
    exact List.prefix_append _ _

end Since

end World

/-! ## Operations without callbacks -/

namespace World.Since

variable {u : World Reaction Stage}

theorem preserves_watch (root : MappingId) (expression : String) (reaction : Reaction) :
    Preserves (Since u) (Effect.watch root expression reaction) :=
  (growing u).kept.watch fun v hv => growing u v _ hv (.of_mappings rfl)

theorem preserves_documentAt (id : DocumentId) : Preserves (Since u) (Play.documentAt id) :=
  Preserves.stage.bind fun _ => Preserves.pure _

theorem preserves_edit (id : DocumentId)
    (change : Document Listener → Document.Edited Listener) :
    Preserves (Since u) (Play.edit id change) := by
  refine (preserves_documentAt id).bind fun d => Preserves.bind ?_ fun _ => ?_
  · exact Preserves.modifyStage fun v hv => hv.arrange rfl
  · split
    · exact Preserves.pure ()
    · exact Preserves.fail _

theorem preserves_rerender (id : DocumentId) (node : NodeId) (facet : Facet) (v : Value) :
    Preserves (Since u) (Play.rerender id node facet v) := by
  refine (preserves_documentAt id).bind fun d => ?_
  split
  · exact Preserves.pure ()
  · exact (preserves_edit id _).mapFault _

section

variable (vm : ViewModel) (node : NodeId)

theorem preserves_bindValue (expression : String) (facet : Facet) :
    Preserves (Since u) (Play.bindValue vm node expression facet) := by
  refine ((preserves_watch vm.data expression _).bind fun _ => ?_).mapFault _
  exact ((growing u).kept.getPath vm.data expression).bind fun v => preserves_edit vm.document _

theorem preserves_bindTemplate (template : String) (expressions : List String) :
    Preserves (Since u) (Play.bindTemplate vm node template expressions) := by
  refine (Preserves.bind (Preserves.each _ fun expression _ => ?_) fun _ => ?_).mapFault _
  · exact (preserves_watch vm.data expression _).bind fun _ => Preserves.pure ()
  · exact ((growing u).kept.content vm.data template).bind fun _ => preserves_edit vm.document _

theorem preserves_bindText (expression : String) :
    Preserves (Since u) (Play.bindText vm node expression) := by
  unfold Play.bindText
  split
  · exact preserves_bindValue vm node expression .text
  · exact preserves_bindTemplate vm node expression _

theorem preserves_bindDirective (id : ViewModelId) (expression : String) :
    ∀ directive, Preserves (Since u) (Play.bindDirective id vm node expression directive)
  | .text => preserves_bindText vm node expression
  | .html => preserves_bindValue vm node expression .html
  | .model => (preserves_bindValue vm node expression .model).bind fun _ =>
    (preserves_edit vm.document _).mapFault _
  | .bind target => preserves_bindValue vm node expression (.attribute target)
  | .on eventType => by
    rw [Play.bindDirective]
    split
    · exact Preserves.pure ()
    · exact (preserves_edit vm.document _).mapFault _

theorem preserves_compileAttribute (id : ViewModelId) (entry : String × String) :
    Preserves (Since u) (Play.compileAttribute id vm node entry) := by
  have hdirective : Preserves (Since u) (Play.directiveOf entry.1) := by
    unfold Play.directiveOf
    split
    · exact Preserves.pure _
    · exact Preserves.fail _
  refine hdirective.bind fun directive => ?_
  split
  · exact Preserves.pure ()
  · exact (preserves_bindDirective vm node id entry.2 _).bind fun _ =>
      (preserves_edit vm.document _).mapFault _

theorem preserves_compileNode (id : ViewModelId) :
    Preserves (Since u) (Play.compileNode id vm node) := by
  refine (preserves_documentAt vm.document).bind fun d => ?_
  split
  · exact Preserves.each _ fun entry _ => preserves_compileAttribute vm node id entry
  · dsimp only
    split
    · exact preserves_bindText vm node _
    · exact Preserves.pure ()
  · exact Preserves.pure ()

end

theorem preserves_compile (vm : ViewModel) (id : ViewModelId) : ∀ depth node,
    Preserves (Since u) (Play.compile id vm depth node)
  | 0, _ => Preserves.exhausted
  | depth + 1, _ => (preserves_documentAt vm.document).bind fun _ =>
    Preserves.each _ fun child _ => (preserves_compileNode vm child id).bind fun _ =>
      preserves_compile vm id depth child

theorem preserves_reactiveData {data : Json} (h : data.Proper) (mounted : Bool) :
    Preserves (Since u) (Play.reactiveData data mounted) := by
  unfold Play.reactiveData
  split
  · exact (growing u).onStore fun s => s.grows_observeMapping h
  · exact (growing u).onStore fun s => s.grows_newMapping List.nodup_nil
  · exact Preserves.fail _
  · exact (growing u).onStore fun s => s.grows_newMapping List.nodup_nil

/-- The properties are the keys that the data has at that moment. -/
theorem preserves_mount (depth : Nat) {options : Options Script} (h : options.data.Proper) :
    Preserves (Since u) (Play.mount depth options) := by
  refine (Preserves.stage.bind fun _ => Preserves.pure _).bind fun document => ?_
  refine (preserves_documentAt document).bind fun d => ?_
  refine (preserves_reactiveData h _).bind fun data => ?_
  intro v hv
  rw [Effect.bind_apply]
  dsimp only [Effect.store]
  refine Preserves.after (hv.enlist ?_) fun id => ?_
  · dsimp only
    split
    · exact List.prefix_refl _
    · exact List.nil_prefix
  · split
    · exact Preserves.pure id
    · exact (preserves_compile _ id depth _).bind fun _ => Preserves.pure id

theorem preserves_property (vm : ViewModel) (key : String) :
    Preserves (Since u) (Play.property vm key) := by
  unfold Play.property
  split
  · refine ((growing u).kept.get? vm.data key).bind fun v => ?_
    split
    · exact Preserves.pure _
    · exact Preserves.fail _
  · exact Preserves.fail _

end World.Since

open World (Forwards Since)

/-- **What calls no callback** loses no key and no view model. -/
theorem Quiet.preserves_since {u : World Reaction Stage} (depth : Nat) {α : Type} :
    ∀ o : Quiet α, Preserves (Since u) (o.perform depth)
  | get m key => (Since.growing u).kept.get? m key
  | getPath root expression => (Since.growing u).kept.getPath root expression
  | content root text => (Since.growing u).kept.content root text
  | observe _ proper => (Since.growing u).onStore (Store.grows_observe proper)
  | watch root expression reaction => Since.preserves_watch root expression reaction
  | newSet => (Since.growing u).onStore fun _ => .of_mappings rfl
  | subscribe _ _ => (Since.growing u).modifyStore fun _ => .of_mappings rfl
  | track slot => Preserves.modifyStore fun v hv => (Since.growing u).kept.track slot v hv
  | limit _ => (Since.growing u).modifyStore fun _ => .of_mappings rfl
  | mount _ proper => Since.preserves_mount depth proper
  | compile id vm node => Since.preserves_compile vm id depth node
  | bind id vm node expression directive =>
    Since.preserves_bindDirective vm node id expression directive
  | property vm key => Since.preserves_property vm key
  | value vm expression => ((Since.growing u).kept.getPath vm.data expression).mapFault _
  | arrange _ keeps => Preserves.modifyStage fun v hv => hv.arrange (keeps v.stage)

/-! ## Timelines -/

/-- Each world of a timeline forwards properties, and nothing of it is lost in a later
    one. -/
structure Sound (u : World Reaction Timeline) : Prop where
  ordered : u.stage.moments.Pairwise World.Grows
  past : ∀ w ∈ u.stage.moments, w.Forwards ∧ w.Grows u.now
  present : u.now.Forwards

namespace Sound

open Timed (plain mark react)

theorem start {u : World Reaction Stage} (h : u.Forwards) : Sound u.untimed where
  ordered := List.Pairwise.nil
  past _ hw := absurd hw List.not_mem_nil
  present := h

/-- A timeline goes on with a world that comes since the present one. -/
theorem next {u : World Reaction Timeline} (hu : Sound u) {v : World Reaction Stage}
    (hv : Since u.now v) : Sound ⟨v.store, ⟨v.stage, u.stage.moments⟩⟩ where
  ordered := hu.ordered
  past w hw := ⟨(hu.past w hw).1, (hu.past w hw).2.trans hv.grows⟩
  present := hv.forwards

/-- The worlds of a timeline, the present one included. -/
theorem moments {u : World Reaction Timeline} (hu : Sound u) :
    (u.stage.moments ++ [u.now]).Pairwise World.Grows ∧
      ∀ w ∈ u.stage.moments ++ [u.now], w.Forwards := by
  constructor
  · refine List.pairwise_append.2 ⟨hu.ordered, List.pairwise_singleton _ _, ?_⟩
    intro w hw v hv
    obtain rfl := List.mem_singleton.1 hv
    exact (hu.past w hw).2
  · intro w hw
    obtain hw | hw := List.mem_append.1 hw
    · exact (hu.past w hw).1
    · obtain rfl := List.mem_singleton.1 hw
      exact hu.present

theorem growing : Growing Sound := fun u s hu hs =>
  hu.next (v := { u.now with store := s }) (Since.growing u.now u.now s ⟨hu.present, .refl _⟩ hs)

theorem preserves_plain {α : Type} {a : Play α} (h : ∀ u, Preserves (Since u) a) :
    Preserves Sound (plain a) :=
  fun u hu => hu.next (h u.now u.now ⟨hu.present, .refl _⟩)

theorem preserves_mark : Preserves Sound mark := by
  refine fun u hu => ⟨hu.moments.1, fun w hw => ?_, hu.present⟩
  obtain hold | hnow := List.mem_append.1 hw
  · exact hu.past w hold
  · obtain rfl := List.mem_singleton.1 hnow
    exact ⟨hu.present, .refl _⟩

section

variable {call : Callback → Timed Unit} (hcall : ∀ callback, Preserves Sound (call callback))

include hcall

theorem preserves_dispatch (document : DocumentId) (node : NodeId) (event : Event) :
    Preserves Sound (Timed.dispatch call document node event) := by
  refine (preserves_plain fun _ => Since.preserves_documentAt document).bind fun d => ?_
  split
  · exact Preserves.fail _
  · exact (Preserves.each _ fun listener _ => hcall _).mapFault _

theorem preserves_runCallback : ∀ callback, Preserves Sound (Timed.runCallback call callback)
  | .reaction (.render document node facet) v =>
    preserves_plain fun _ => Since.preserves_rerender document node facet v
  | .reaction (.fill document node root template) _ =>
    (growing.kept.content root template).bind fun _ =>
      preserves_plain fun _ => Since.preserves_rerender document node .text _
  | .listener (.assign root expression) _ =>
    growing.setPath (fun _ _ => hcall _) root expression _
  | .listener (.method id body) event => hcall (.method id body event)
  | .reaction (.script _) _ | .listener (.script _) _ | .method _ _ _ => Preserves.pure ()

/-- **What may call callbacks** loses no key and no view model if these do not. -/
theorem preserves_lively : ∀ o : Lively, Preserves Sound (o.tell call)
  | .set m key v => growing.set (fun _ _ => hcall _) m key v
  | .setPath root expression v => growing.setPath (fun _ _ => hcall _) root expression v
  | .notify slot => growing.notify (fun _ _ => hcall _) slot
  | .update w => growing.kept.updateWatcher (fun _ _ => hcall _) w
  | .setProperty vm key v => by
    rw [Lively.tell]
    split
    · exact (growing.set (fun _ _ => hcall _) vm.data key v).mapFault _
    · exact Preserves.fail _
  | .assign vm expression v =>
    (growing.setPath (fun _ _ => hcall _) vm.data expression v).mapFault _
  | .callMethod id vm name event => by
    rw [Lively.tell]
    split
    · exact Preserves.fail _
    next body _ => exact hcall (.method id body event)
  | .dispatch document node event => preserves_dispatch hcall document node event
  | .input document _ _ => (preserves_plain fun _ => Since.preserves_edit document _).bind fun _ =>
    preserves_dispatch hcall document _ _

theorem preserves_tell (depth : Nat) : ∀ p : Course, Preserves Sound (p.tell depth call)
  | .done (.ok ()) => preserves_mark.bind fun _ => preserves_plain fun _ => Preserves.pure ()
  | .done (.error f) => preserves_mark.bind fun _ => preserves_plain fun _ => Preserves.fail f
  | .look next => preserves_mark.bind fun _ => fun u hu => preserves_tell depth (next u.now) u hu
  | .quiet o next => preserves_mark.bind fun _ =>
    (preserves_plain fun _ => o.preserves_since depth).attempt.bind fun r =>
      preserves_tell depth (next r)
  | .lively o next => preserves_mark.bind fun _ =>
    (preserves_lively hcall o).attempt.bind fun r => preserves_tell depth (next r)
  | .collect w body next => preserves_mark.bind fun _ =>
    (growing.kept.whileCollecting w (preserves_tell depth body)).attempt.bind fun r =>
      preserves_tell depth (next r)

end

/-- Callbacks lose no key and no view model, however deep they may be nested. -/
theorem preserves_calls (user : Callback → Course) : ∀ depth callback,
    Preserves Sound (Course.calls user depth callback)
  | 0, _ => preserves_mark.bind fun _ => Preserves.exhausted
  | depth + 1, callback => by
    refine preserves_mark.bind fun _ => ?_
    split
    · exact preserves_tell (preserves_calls user depth) depth (user callback)
    · exact preserves_runCallback (preserves_calls user depth) callback

end Sound

/-! ## Properties -/

namespace Play

variable {vm : ViewModel} {key : String} {w : World Reaction Stage}

theorem property_of_mem (hkey : key ∈ vm.properties)
    (hdata : vm.properties <+: w.store.keys vm.data) :
    ∃ slot, w.store.slot? vm.data key = some slot ∧
      property vm key w = (.ok (w.store.valueAt slot), { w with store := w.store.track slot }) := by
  obtain ⟨slot, hslot⟩ : ∃ slot, w.store.slot? vm.data key = some slot :=
    Option.isSome_iff_exists.1 (Keyed.get?_isSome_iff.2 (hdata.subset hkey))
  have hget : Effect.get? vm.data key w =
      (.ok (some (w.store.valueAt slot)), { w with store := w.store.track slot }) := by
    unfold Effect.get? Effect.onStore
    dsimp only
    rw [hslot]
  refine ⟨slot, hslot, ?_⟩
  rw [property, if_pos (by simpa using hkey), Effect.bind_apply, hget]
  rfl

theorem property_of_not_mem (hkey : key ∉ vm.properties) (w : World Reaction Stage) :
    property vm key w = (.error (.fault (.unknownProperty key)), w) := by
  rw [property, if_neg (by simpa using hkey)]
  rfl

theorem setProperty_of_not_mem (hkey : key ∉ vm.properties) (engine : Engine) (v : Value)
    (w : World Reaction Stage) :
    setProperty engine vm key v w = (.error (.fault (.unknownProperty key)), w) := by
  rw [setProperty, if_neg (by simpa using hkey)]
  rfl

end Play

namespace Course

/-- **Forwarded properties never go missing.**  Whatever a course does, in whatever
    callbacks, and however these end: of any two worlds that it comes to, the keys of a
    mapping in the earlier one are the first of its keys in the later one, and a view model
    that is there stays as it is.  In every such world no mapping has a key twice, and the
    properties of a view model are the first keys of its data; they can be read, and
    whatever else is read or written as a property is refused, and nothing changes. -/
theorem properties_forwarded {u : World Reaction Stage} (hmappings : u.store.mappings = #[])
    (hviewModels : u.stage.viewModels = #[]) (user : Callback → Course) (depth : Nat)
    (p : Course) :
    let told := p.tell depth (calls user depth) u.untimed
    let worlds := told.2.stage.moments ++ [told.2.now]
    (told.1, told.2.now) = p.run (engine user depth) u ∧
      worlds.Pairwise (fun earlier later =>
        (∀ m, earlier.store.keys m <+: later.store.keys m) ∧
          earlier.stage.viewModels.toList <+: later.stage.viewModels.toList) ∧
      ∀ w ∈ worlds, (∀ m, (w.store.keys m).Nodup) ∧
        ∀ vm ∈ w.stage.viewModels, vm.properties <+: w.store.keys vm.data ∧
          (∀ key ∈ vm.properties, ∃ slot, w.store.slot? vm.data key = some slot ∧
            Play.property vm key w =
              (.ok (w.store.valueAt slot), { w with store := w.store.track slot })) ∧
          ∀ key ∉ vm.properties,
            Play.property vm key w = (.error (.fault (.unknownProperty key)), w) ∧
              ∀ engine v, Play.setProperty engine vm key v w =
                (.error (.fault (.unknownProperty key)), w) := by
  intro told worlds
  have hrun := tell_projects (calls_projects user depth) p u.untimed
  rw [depth_engine] at hrun
  have hsound : Sound told.2 := Sound.preserves_tell (Sound.preserves_calls user depth) depth p _
    (.start (.fresh hmappings hviewModels))
  obtain ⟨hgrows, hforwards⟩ := hsound.moments
  refine ⟨hrun, ?_, fun w hw => ⟨(hforwards w hw).nodup, fun vm hvm => ?_⟩⟩
  · exact hgrows.imp fun h => ⟨fun m => (h.store m).1, h.viewModels⟩
  · have hdata := (hforwards w hw).properties vm hvm
    refine ⟨hdata, fun key hkey => Play.property_of_mem hkey hdata, fun key hkey => ?_⟩
    exact ⟨Play.property_of_not_mem hkey w, fun engine v =>
      Play.setProperty_of_not_mem hkey engine v w⟩

end Course

/-! ## A key that is added by a callback -/

namespace Added

/-- An element, before anything is mounted on it. -/
def world : World Reaction Stage where
  store := .empty
  stage := ⟨#[.parse "<div id=app></div>"], 0, #[], ⟨0, [], [], [], [], [], "", [], false⟩⟩

/-- A text under a key. -/
def data : Json := .object [("a", .string "x")]

theorem data_proper : data.Proper := ⟨List.nodup_singleton _, trivial, trivial⟩

/-- The data is mounted, and its key is watched and then written. -/
def course : Course :=
  .quiet (.mount ⟨"#app", data, []⟩ data_proper) fun _ =>
    .quiet (.watch 0 "a" (.script [])) fun _ => .lively (.set 0 "a" (.string "y")) .done

/-- The callback of the watcher writes under another key, and then fails. -/
def user (_ : Callback) : Course :=
  .lively (.set 0 "b" (.string "z")) fun _ => .done (.error (.raised "no"))

end Added

/-- A key that a callback adds is no property, whereas the one that was there before can
    still be read; the worlds are those before and after each operation, and those in the
    callback. -/
theorem Course.properties_forwarded_of_added :
    let told := Added.course.tell 2 (calls Added.user 2) Added.world.untimed
    let worlds := told.2.stage.moments ++ [told.2.now]
    (told.1, told.2.now) = Added.course.run (engine Added.user 2) Added.world ∧
      (told.1 matches .error (.fault (.raised "no"))) = true ∧
      (worlds.map fun w => w.store.keys 0) =
        [[], ["a"], ["a"], ["a"], ["a"], ["a", "b"], ["a", "b"], ["a", "b"]] ∧
      ∃ vm ∈ told.2.now.stage.viewModels, vm.properties = ["a"] ∧
        (∃ slot, Play.property vm "a" told.2.now =
          (.ok (told.2.now.store.valueAt slot),
            { told.2.now with store := told.2.now.store.track slot })) ∧
        Play.property vm "b" told.2.now = (.error (.fault (.unknownProperty "b")), told.2.now) := by
  intro told worlds
  obtain ⟨hrun, -, hworlds⟩ :=
    properties_forwarded (u := Added.world) rfl rfl Added.user 2 Added.course
  have hnow := hworlds told.2.now (List.mem_append_right _ List.mem_cons_self)
  have hfirst : (told.2.now.stage.viewModels[0]?).any (·.properties == ["a"]) = true := by
    decide +kernel
  obtain ⟨vm, hvm, hproperties⟩ := (Option.any_eq_true _ _).1 hfirst
  have hproperties := eq_of_beq hproperties
  obtain ⟨-, hread, hrefused⟩ := hnow.2 vm (Array.mem_of_getElem? hvm)
  refine ⟨hrun, by decide +kernel, by decide +kernel, vm, Array.mem_of_getElem? hvm,
    hproperties, ?_, ?_⟩
  · obtain ⟨slot, -, hslot⟩ := hread "a" (by simp [hproperties])
    exact ⟨slot, hslot⟩
  · exact (hrefused "b" (by simp [hproperties])).1

end DataBinding
