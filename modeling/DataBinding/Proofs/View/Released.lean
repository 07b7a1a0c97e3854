/-
  Bindings on released nodes are quiet.

  The documents of a stage come of markup by changes (`Stage.Grown`), and a watcher
  that renders does so to a node whose handle has been given out (`Taken`).  A world of
  which both is known has a `Chronicle`.  What is noted of a run continues it, and it
  holds whenever a callback is called (`Reported`).

  * `Play.Makes`: what an effect does to the documents is one change of one of them;
  * `Reported.mount`, `Reported.tell`, `Reported.calls`: mounting, scenarios and
    callbacks continue the chronicle;
  * `Play.runCallback_of_not_live`: rendering to a node that is gone changes nothing;
  * `Scenario.run_quiet`: a binding on a node that was released leaves the stage alone,
    and a binding that changes it does so on the node that it was made for.
-/
import DataBinding.Proofs.Document.Leaves
import DataBinding.Proofs.View.Scenario
import DataBinding.Proofs.View.Staging

namespace DataBinding

open Document (ofForest events Trace)
open Effect (Preserves mapFault)

variable {forests : Array (List Markup)} {edits : DocumentId → List (Document.Edit Listener)}

/-! ## Documents that come of markup -/

/-- The documents come of markup by changes. -/
def Stage.Grown (forests : Array (List Markup))
    (edits : DocumentId → List (Document.Edit Listener)) (s : Stage) : Prop :=
  ∀ i : Nat, s.documents[i]? = (forests[i]?).map fun forest => (ofForest forest).run (edits i)

/-- A handle of a document has been given out. -/
def Taken (forests : Array (List Markup)) (edits : DocumentId → List (Document.Edit Listener))
    (p : DocumentId × NodeId) : Prop :=
  ∃ forest, forests[p.1]? = some forest ∧ .taken p.2 ∈ events forest (edits p.1)

/-- Changes before the happenings that are noted, and those among these. -/
def followed (edits : DocumentId → List (Document.Edit Listener)) (happenings : List Happening)
    (document : DocumentId) : List (Document.Edit Listener) :=
  edits document ++ editsOf document happenings

@[simp]
theorem followed_nil : followed edits [] = edits :=
  funext fun _ => List.append_nil _

theorem followed_append (before after : List Happening) :
    followed edits (before ++ after) = followed (followed edits before) after := by
  funext document
  rw [followed, followed, followed, editsOf, editsOf, editsOf, List.filterMap_append,
    List.append_assoc]

theorem followed_called (callback : Callback) (w : World Reaction Stage) :
    followed edits [.called callback w] = edits :=
  funext fun _ => List.append_nil _

theorem followed_edited_self (document : DocumentId) (change : Document.Edit Listener) :
    followed edits [.edited document change] document = edits document ++ [change] := by
  simp [followed, editsOf]

theorem followed_edited_other {document i : DocumentId} (change : Document.Edit Listener)
    (h : document ≠ i) : followed edits [.edited document change] i = edits i := by
  simp [followed, editsOf, h]

theorem Taken.followed {p : DocumentId × NodeId} (h : Taken forests edits p)
    (happenings : List Happening) : Taken forests (followed edits happenings) p := by
  obtain ⟨forest, hforest, htaken⟩ := h
  exact ⟨forest, hforest, Document.mem_events_append _ htaken⟩

namespace Stage.Grown

variable {s : Stage}

theorem documentAt (h : s.Grown forests edits) {i : DocumentId} {forest : List Markup}
    (hi : forests[i]? = some forest) : s.documentAt i = (ofForest forest).run (edits i) := by
  rw [Stage.documentAt, h i, hi]
  rfl

/-- One more change. -/
theorem put {u : World Reaction Stage} (h : u.stage.Grown forests edits) (document : DocumentId)
    (e : Document.Edit Listener) :
    (u.put document (e.apply (u.stage.documentAt document)).2).stage.Grown forests
      (followed edits [.edited document e]) := by
  intro i
  unfold World.put
  dsimp only
  rw [Array.getElem?_setIfInBounds]
  split
  next hi =>
    subst hi
    rw [followed_edited_self]
    have hhere := h document
    cases hforest : forests[document]? with
    | none =>
      rw [hforest] at hhere
      rw [if_neg (Nat.not_lt.2 (Array.getElem?_eq_none_iff.1 hhere))]
      rfl
    | some forest =>
      rw [hforest] at hhere
      rw [if_pos (Array.getElem?_eq_some_iff.1 hhere).1, h.documentAt hforest,
        Option.map_some, Document.run_concat]
  next hi =>
    rw [followed_edited_other e hi]
    exact h i

/-- The handles of the nodes below a node have been given out. -/
theorem taken_child (h : s.Grown forests edits) {i : DocumentId} {n c : NodeId}
    (hc : c ∈ (s.documentAt i).children n) : Taken forests edits (i, c) := by
  cases hforest : forests[i]? with
  | none =>
    have hnone : s.documents[i]? = none := by rw [h i, hforest]; rfl
    rw [Stage.documentAt, hnone] at hc
    rw [Option.getD_none, Document.children_empty] at hc
    exact absurd hc List.not_mem_nil
  | some forest =>
    rw [h.documentAt hforest] at hc
    have hlinked := ((Document.joined_ofForest forest).run (edits i)).linked
    exact ⟨forest, hforest, Document.taken_of_live (Document.trace_events forest (edits i))
      (hlinked.live_child hc)⟩

end Stage.Grown

/-! ## Changes of one document -/

/-- What an effect does is a change of one document. -/
def Play.Makes {α : Type} (document : DocumentId) (e : Document.Edit Listener) (a : Play α) :
    Prop :=
  ∀ u, (a u).2 = u.put document (e.apply (u.stage.documentAt document)).2

theorem World.put_documentAt (u : World Reaction Stage) (document : DocumentId) :
    u.put document (u.stage.documentAt document) = u := by
  cases h : u.stage.documents[document]? with
  | none =>
    have hsize := Array.getElem?_eq_none_iff.1 h
    rw [put, Array.setIfInBounds_eq_of_size_le hsize]
  | some d =>
    have hd : u.stage.documentAt document = d := by rw [Stage.documentAt, h]; rfl
    rw [hd, put_eq h]

namespace Play

theorem makes_edit (document : DocumentId) (e : Document.Edit Listener) :
    Makes document e (edit document fun d => e.apply d) := by
  intro u
  unfold edit
  rw [Effect.bind_apply, show documentAt document u =
    (.ok (u.stage.documentAt document), u) from rfl]
  dsimp only
  rcases e.apply (u.stage.documentAt document) with ⟨_ | _, d⟩ <;> rfl

theorem makes_render (document : DocumentId) (node : NodeId) (facet : Facet) (v : Value) :
    Makes document (facet.edit node v) (edit document fun d => d.render node facet v) := by
  simp only [Document.render_eq_apply]
  exact makes_edit document (facet.edit node v)

/-- A node that is gone is not rendered to, and that is what the change of a document
    comes to there. -/
theorem makes_rerender (document : DocumentId) (node : NodeId) (facet : Facet) (v : Value) :
    Makes document (facet.edit node v) (rerender document node facet v) := by
  intro u
  unfold rerender
  rw [Effect.bind_apply, show documentAt document u =
    (.ok (u.stage.documentAt document), u) from rfl]
  dsimp only
  cases hnode : (u.stage.documentAt document).node? node with
  | none =>
    have hstale : (u.stage.documentAt document).Stale node :=
      Document.stale_of_not_live (by simp [Document.Live, hnode])
    have htarget : (facet.edit node v : Document.Edit Listener).target? = some node := by
      cases facet <;> rfl
    rw [hstale.kind, hstale.target _ htarget, World.put_documentAt]
    rfl
  | some m =>
    rw [show (u.stage.documentAt document).kind? node = some m.content.kind by
      rw [Document.kind?, hnode]; rfl]
    dsimp only
    rw [Effect.snd_mapFault]
    exact makes_render document node facet v u

theorem Makes.mapFault {document : DocumentId} {e : Document.Edit Listener} {a : Play Unit}
    (h : Makes document e a) (f : Fault → Fault) : Makes document e (mapFault f a) := by
  intro u
  rw [Effect.snd_mapFault]
  exact h u

end Play

/-! ## Chronicles -/

/-- The documents come of markup by changes, and watchers render to nodes whose handles
    have been given out. -/
structure Chronicle (forests : Array (List Markup))
    (edits : DocumentId → List (Document.Edit Listener)) (u : World Reaction Stage) : Prop where
  grown : u.stage.Grown forests edits
  taken : u.store.Renders (Taken forests edits)

/-- Every chronicle begins with documents of markup, before there are watchers. -/
theorem Chronicle.start {u : World Reaction Stage} (h : u.stage.documents = forests.map ofForest)
    (hwatchers : u.store.watchers = #[]) : Chronicle forests (fun _ => []) u where
  grown i := by
    rw [h, Array.getElem?_map]
    rfl
  taken w watcher hw := by
    rw [hwatchers] at hw
    exact nomatch hw

/-- The chronicle of a run that has been told so far: it goes on with the changes that
    are noted, holds of some places that their handles have been given out, and held
    whenever a callback was called. -/
structure Reported (forests : Array (List Markup))
    (edits : DocumentId → List (Document.Edit Listener)) (known : DocumentId × NodeId → Prop)
    (u : World Reaction Journal) : Prop where
  chronicle : Chronicle forests (followed edits u.stage.happenings) u.bare
  known : ∀ p, known p → Taken forests (followed edits u.stage.happenings) p
  called : ∀ before callback w after,
    u.stage.happenings = before ++ .called callback w :: after →
      w.stage.Grown forests (followed edits before) ∧
        ∀ p, callback.place? = some p → Taken forests (followed edits before) p

namespace Reported

open Account (react)

variable {known known' : DocumentId × NodeId → Prop}

theorem start {u : World Reaction Stage} (h : Chronicle forests edits u) :
    Reported forests edits (fun _ => False) u.unnoted where
  chronicle := by
    rw [show u.unnoted.stage.happenings = [] from rfl, followed_nil]
    exact h
  known _ hp := hp.elim
  called before callback w after heq := by
    rw [show u.unnoted.stage.happenings = [] from rfl] at heq
    exact absurd heq.symm (List.append_ne_nil_of_right_ne_nil _ (List.cons_ne_nil _ _))

theorem mono {u : World Reaction Journal} (h : Reported forests edits known u)
    (hknown : ∀ p, known' p → known p) : Reported forests edits known' u :=
  { h with known := fun p hp => h.known p (hknown p hp) }

/-- More is known for the time of an effect. -/
theorem preserves {α : Type} {a : Account α} {u : World Reaction Journal}
    (ha : Preserves (Reported forests edits fun p => known p ∨ known' p) a)
    (h : Reported forests edits known u)
    (hknown : ∀ p, known' p → Taken forests (followed edits u.stage.happenings) p) :
    Reported forests edits known (a u).2 :=
  (ha u { h with known := fun p hp => hp.elim (h.known p) (hknown p) }).mono fun _ => .inl

theorem kept : Kept (Reported forests edits known) where
  subscribe _ _ _ h := ⟨⟨h.chronicle.grown, h.chronicle.taken⟩, h.known, h.called⟩
  count _ w h :=
    ⟨⟨h.chronicle.grown, h.chronicle.taken.updateWatcher w fun _ => rfl⟩, h.known, h.called⟩
  collecting _ _ h := ⟨⟨h.chronicle.grown, h.chronicle.taken⟩, h.known, h.called⟩
  depth _ _ h := ⟨⟨h.chronicle.grown, h.chronicle.taken⟩, h.known, h.called⟩
  remember _ w _ h :=
    ⟨⟨h.chronicle.grown, h.chronicle.taken.updateWatcher w fun _ => rfl⟩, h.known, h.called⟩

theorem aside {α : Type} {a : Play α} (ha : a.Aside) :
    Preserves (Reported forests edits known) (Account.plain a) := by
  intro u h
  obtain ⟨hdocuments, htaken⟩ := ha u.bare.stage.documents _ u.bare ⟨rfl, h.chronicle.taken⟩
  refine ⟨⟨fun i => ?_, htaken⟩, h.known, h.called⟩
  change (a u.bare).2.stage.documents[i]? = _
  rw [hdocuments]
  exact h.chronicle.grown i

theorem editing {α : Type} {document : DocumentId} {e : Document.Edit Listener} {a : Play α}
    (ha : Play.Makes document e a) :
    Preserves (Reported forests edits known) (Account.editing document e a) := by
  intro u h
  have hresult : (Account.editing document e a u).2 = ⟨(a u.bare).2.store,
      ⟨(a u.bare).2.stage, u.stage.happenings ++ [.edited document e]⟩⟩ := rfl
  rw [hresult, ha u.bare]
  refine ⟨⟨?_, ?_⟩, fun p hp => ?_, fun before callback w after heq => ?_⟩
  · dsimp only
    rw [followed_append]
    exact h.chronicle.grown.put document e
  · dsimp only
    rw [followed_append]
    exact h.chronicle.taken.mono fun p hp => hp.followed _
  · dsimp only
    rw [followed_append]
    exact (h.known p hp).followed _
  · obtain ⟨-, hx, -⟩ | ⟨rest, -, hsplit⟩ := Document.split_concat heq
    · cases hx
    · exact h.called before callback w rest hsplit

/-- A callback is called. -/
theorem noteCall {callback : Callback} (hcallback : ∀ p, callback.place? = some p → known p) :
    Preserves (Reported forests edits known) (Account.noteCall callback) := by
  intro u h
  have hsame : followed edits (u.stage.happenings ++ [.called callback u.bare]) =
      followed edits u.stage.happenings := by rw [followed_append, followed_called]
  refine ⟨?_, ?_, fun before callback' w after heq => ?_⟩
  · change Chronicle forests (followed edits (u.stage.happenings ++ _)) u.bare
    rw [hsame]
    exact h.chronicle
  · change ∀ p, known p → Taken forests (followed edits (u.stage.happenings ++ _)) p
    rw [hsame]
    exact h.known
  · obtain ⟨hbefore, hx, -⟩ | ⟨rest, -, hsplit⟩ := Document.split_concat heq
    · obtain ⟨rfl, rfl⟩ := Happening.called.inj hx
      rw [← hbefore]
      exact ⟨h.chronicle.grown, fun p hp => h.known p (hcallback p hp)⟩
    · exact h.called before callback' w rest hsplit

/-! ### Mounting -/

/-- A watcher renders to a node whose handle has been given out. -/
theorem watch {reaction : Reaction} (h : ∀ p, reaction.place? = some p → known p)
    (root : MappingId) (expression : String) :
    Preserves (Reported forests edits known) (Effect.watch root expression reaction) := by
  refine kept.watch fun u hu => ⟨⟨hu.chronicle.grown, ?_⟩, hu.known, hu.called⟩
  exact hu.chronicle.taken.newWatcher root expression fun p hp => hu.known p (h p hp)

section

variable {vm : ViewModel} {n : NodeId} (hn : known (vm.document, n))

include hn

theorem bindValue (expression : String) (facet : Facet) :
    Preserves (Reported forests edits known) (Account.bindValue vm n expression facet) := by
  refine (Preserves.bind (watch ?_ vm.data expression) fun _ => ?_).mapFault _
  · rintro p ⟨⟩
    exact hn
  · exact (kept.getPath vm.data expression).bind fun v => editing (Play.makes_render _ n facet v)

theorem bindTemplate (template : String) (expressions : List String) :
    Preserves (Reported forests edits known) (Account.bindTemplate vm n template expressions) := by
  refine (Preserves.bind (Preserves.each _ fun expression _ => ?_) fun _ => ?_).mapFault _
  · refine (watch ?_ vm.data expression).bind fun _ => Preserves.pure ()
    rintro p ⟨⟩
    exact hn
  · exact (kept.content vm.data template).bind fun text =>
      editing (Play.makes_render _ n .text _)

theorem bindText (expression : String) :
    Preserves (Reported forests edits known) (Account.bindText vm n expression) := by
  unfold Account.bindText
  split
  · exact bindValue hn expression .text
  · exact bindTemplate hn expression _

omit hn in
theorem listen (eventType : String) (listener : Listener) :
    Preserves (Reported forests edits known) (Account.listen vm n eventType listener) :=
  editing ((Play.makes_edit vm.document (.addListener n eventType listener)).mapFault _)

theorem bindDirective (id : ViewModelId) (expression : String) : ∀ directive : Directive,
    Preserves (Reported forests edits known) (Account.bindDirective vm n id expression directive)
  | .text => bindText hn expression
  | .html => bindValue hn expression .html
  | .model => (bindValue hn expression .model).bind fun _ => listen "input" _
  | .bind target => bindValue hn expression (.attribute target)
  | .on eventType => by
    rw [Account.bindDirective]
    split
    · exact Preserves.pure ()
    · exact listen eventType _

theorem compileAttribute (id : ViewModelId) (entry : String × String) :
    Preserves (Reported forests edits known) (Account.compileAttribute vm n id entry) := by
  refine Preserves.bind (aside fun _ _ => ?_) fun directive => ?_
  · unfold Play.directiveOf
    split
    · exact Preserves.pure _
    · exact Preserves.fail _
  · split
    · exact Preserves.pure ()
    · exact (bindDirective hn id entry.2 _).bind fun _ =>
        editing ((Play.makes_edit vm.document (.removeAttribute n entry.1)).mapFault _)

theorem compileNode (id : ViewModelId) :
    Preserves (Reported forests edits known) (Account.compileNode vm n id) := by
  refine (aside (.look _)).bind fun d => ?_
  split
  · exact Preserves.each _ fun entry _ => compileAttribute hn id entry
  · split
    · exact bindText hn _
    · exact Preserves.pure ()
  · exact Preserves.pure ()

end

/-- The nodes below a node are there when they are bound, and their handles have been
    given out. -/
theorem compile {vm : ViewModel} (id : ViewModelId) : ∀ (depth : Nat) (n : NodeId)
    {known : DocumentId × NodeId → Prop},
    Preserves (Reported forests edits known) (Account.compile vm id depth n)
  | 0, _, _ => Preserves.exhausted
  | depth + 1, n, known => by
    intro u h
    let children := (u.stage.stage.documentAt vm.document).children n
    have heach : Preserves
        (Reported forests edits fun p => known p ∨ p.1 = vm.document ∧ p.2 ∈ children)
        (Effect.each (fun child => do
            Account.compileNode vm child id
            Account.compile vm id depth child) children) :=
      Preserves.each _ fun child hchild =>
        (compileNode (.inr ⟨rfl, hchild⟩) id).bind fun _ => compile id depth child
    change Reported forests edits known (Effect.each _ children u).2
    refine preserves heach h ?_
    rintro ⟨document, c⟩ ⟨rfl, hc⟩
    exact h.chronicle.grown.taken_child hc

/-- Data is made reactive beside the documents. -/
theorem aside_reactiveData (data : Json) (mounted : Bool) :
    (Play.reactiveData data mounted).Aside := by
  intro documents places
  unfold Play.reactiveData
  split
  · exact Preserves.onStore fun _ hu => ⟨hu.1, Store.observeMembers_keeps
      (P := fun s : Store Reaction => s.Renders places) (fun _ _ h => h) (fun _ _ h => h) _ hu.2⟩
  · exact Preserves.onStore fun _ hu => hu
  · exact Preserves.fail _
  · exact Preserves.onStore fun _ hu => hu

/-- A view model is made beside the documents. -/
theorem aside_addViewModel (vm : ViewModel) : (Play.addViewModel vm).Aside := by
  intro documents places
  refine Preserves.stage.bind fun _ => Preserves.bind ?_ fun _ => Preserves.pure _
  exact Effect.Aside.arrange (fun _ => rfl) documents places

theorem mount (depth : Nat) (options : Options Script) :
    Preserves (Reported forests edits known) (Account.mount depth options) := by
  refine (aside (.look _)).bind fun document => (aside (.look _)).bind fun d => ?_
  refine (aside (aside_reactiveData _ _)).bind fun data => Preserves.store.bind fun store => ?_
  refine (aside (aside_addViewModel _)).bind fun id => ?_
  split
  · exact Preserves.pure id
  · exact (compile id depth _).bind fun _ => Preserves.pure id

/-! ### Scenarios -/

section

variable {call : Callback → Account Unit}
  (hcall : ∀ (callback : Callback) (known : DocumentId × NodeId → Prop),
    (∀ p, callback.place? = some p → known p) →
      Preserves (Reported forests edits known) (call callback))

include hcall

/-- An update calls the reaction of a watcher that is there. -/
theorem updateWatcher (w : WatcherId) :
    Preserves (Reported forests edits known) (Effect.updateWatcher (react call) w) := by
  intro u h
  cases hw : u.store.watchers[w]? with
  | none =>
    rw [Effect.updateWatcher_of_none _ hw]
    exact h
  | some watcher =>
    rw [Effect.updateWatcher_of_some _ hw]
    refine preserves (a := _) ?_ h (h.chronicle.taken w watcher hw)
    refine (kept.evaluate w watcher).bind fun v => ?_
    split
    · exact Preserves.pure ()
    · refine (hcall (.reaction watcher.reaction v) _ fun p hp => .inr hp).bind fun _ => ?_
      exact Preserves.modifyStore fun u hu => kept.remember u w v hu

theorem notify (slot : SlotId) :
    Preserves (Reported forests edits known) (Effect.notify (react call) slot) :=
  kept.toSteady.notify (updateWatcher hcall) slot

theorem set (m : MappingId) (key : String) (v : Value) :
    Preserves (Reported forests edits known) (Effect.set (react call) m key v) := by
  have hwrite : ∀ (u : World Reaction Journal) (s : Store Reaction),
      s.watchers = u.store.watchers → Reported forests edits known u →
        Reported forests edits known { u with store := s } := by
    intro u s hs h
    refine ⟨⟨h.chronicle.grown, ?_⟩, h.known, h.called⟩
    unfold Store.Renders
    rw [show (World.bare { u with store := s }).store.watchers = u.bare.store.watchers from hs]
    exact h.chronicle.taken
  refine Preserves.store.bind fun s => ?_
  split
  · exact Preserves.modifyStore fun u h => hwrite u _ rfl h
  · refine (Preserves.modifyStore fun u h => hwrite u _ ?_ h).bind fun _ => notify hcall _
    split <;> rfl

theorem setPath (root : MappingId) (expression : String) (v : Value) :
    Preserves (Reported forests edits known) (Effect.setPath (react call) root expression v) :=
  (Preserves.reading fun u h => kept.trackAll _ u h).bind fun _ => set hcall _ _ v

theorem dispatch (document : DocumentId) (node : NodeId) (event : Event) :
    Preserves (Reported forests edits known) (Account.dispatch call document node event) := by
  refine (aside (.look _)).bind fun d => ?_
  split
  · exact Preserves.fail _
  · exact (Preserves.each _ fun listener _ => hcall (.listener listener _) known nofun).mapFault _

theorem runCallback (callback : Callback) :
    Preserves (Reported forests edits known) (Account.runCallback call callback) := by
  match callback with
  | .reaction (.render document node facet) v => exact editing (Play.makes_rerender _ _ _ _)
  | .reaction (.fill document node root template) _ =>
    exact (kept.content root template).bind fun text => editing (Play.makes_rerender _ _ _ _)
  | .listener (.assign root expression) event => exact setPath hcall root expression _
  | .listener (.method id body) event => exact hcall (.method id body event) known nofun
  | .reaction (.script _) _ | .listener (.script _) _ | .method _ _ _ => exact Preserves.pure ()

theorem tell (depth : Nat) : ∀ p : Scenario,
    Preserves (Reported forests edits known) (p.tell depth call)
  | .done (.ok ()) => aside fun _ _ => Preserves.pure ()
  | .done (.error f) => aside fun _ _ => Preserves.fail f
  | .aside _ ha next => (aside ha).attempt.bind fun r => tell depth (next r)
  | .edit document change next => (editing (Play.makes_edit document change)).attempt.bind fun r =>
    tell depth (next r)
  | .set m key v next => (set hcall m key v).attempt.bind fun r => tell depth (next r)
  | .setPath root expression v next => (setPath hcall root expression v).attempt.bind fun r =>
    tell depth (next r)
  | .notify slot next => (notify hcall slot).attempt.bind fun r => tell depth (next r)
  | .update w next => (updateWatcher hcall w).attempt.bind fun r => tell depth (next r)
  | .collect w body next => (kept.whileCollecting w (tell depth body)).attempt.bind fun r =>
    tell depth (next r)
  | .mount options next => (mount depth options).attempt.bind fun r => tell depth (next r)
  | .dispatch document node event next =>
    (dispatch hcall document node event).attempt.bind fun r => tell depth (next r)

end

/-- Callbacks continue the chronicle, however deep they may be nested. -/
theorem calls (user : Callback → Scenario) : ∀ (depth : Nat) (callback : Callback)
    (known : DocumentId × NodeId → Prop), (∀ p, callback.place? = some p → known p) →
      Preserves (Reported forests edits known) (Scenario.calls user depth callback)
  | 0, _, _, hcallback => (noteCall hcallback).bind fun _ => Preserves.exhausted
  | depth + 1, callback, _, hcallback => by
    refine (noteCall hcallback).bind fun _ => ?_
    split
    · exact tell (calls user depth) depth (user callback)
    · exact runCallback (calls user depth) callback

end Reported

/-! ## Quiet bindings -/

/-- Rendering to a node that is gone changes nothing on the stage. -/
theorem Play.runCallback_of_not_live {callback : Callback} {w : World Reaction Stage}
    {i : DocumentId} {n : NodeId} (hplace : callback.place? = some (i, n))
    (hn : ¬ (w.stage.documentAt i).Live n) (engine : Engine) :
    (runCallback engine callback w).2.stage = w.stage := by
  have hquiet : ∀ (facet : Facet) (v : Value) (u : World Reaction Stage), u.stage = w.stage →
      (rerender i n facet v u).2.stage = w.stage := by
    intro facet v u hu
    unfold rerender
    rw [Effect.bind_apply, show documentAt i u = (.ok (u.stage.documentAt i), u) from rfl, hu]
    dsimp only
    rw [(Document.stale_of_not_live hn).kind]
    exact hu
  match callback with
  | .reaction (.render document node facet) v =>
    obtain ⟨rfl, rfl⟩ := Prod.mk.inj (Option.some.inj hplace)
    exact hquiet facet v w rfl
  | .reaction (.fill document node root template) _ =>
    obtain ⟨rfl, rfl⟩ := Prod.mk.inj (Option.some.inj hplace)
    change ((Effect.content root template >>= fun text =>
      rerender document node .text (.string text)) w).2.stage = _
    rw [Effect.bind_apply]
    unfold Effect.content Effect.reading
    dsimp only
    rcases w.store.fill root template with ⟨_ | text, s⟩
    · rfl
    · exact hquiet .text (.string text) { w with store := s } rfl
  | .reaction (.script _) _ | .listener _ _ | .method _ _ _ => cases hplace

namespace Scenario

/-- **Bindings on released nodes are quiet.**  Whatever is done, when a callback of a
    watcher that renders is called, its document has a history, in which the handle of its
    node was given out.  While the slot of the node was not vacated very often, the
    callback leaves the stage alone if the node was released; and if it changes the stage,
    the node is there, its handle was given out once, and nothing has happened to its slot
    since then. -/
theorem run_quiet {u : World Reaction Stage} (hu : Chronicle forests edits u)
    (user : Callback → Scenario) (depth : Nat) (p : Scenario) :
    let told := p.tell depth (calls user depth) u.unnoted
    (told.1, told.2.bare) = p.run (engine user depth) u ∧
      Chronicle forests (followed edits told.2.stage.happenings) told.2.bare ∧
      ∀ before callback w after,
        told.2.stage.happenings = before ++ .called callback w :: after →
        ∀ i n, callback.place? = some (i, n) →
          ∃ forest, forests[i]? = some forest ∧
            let history := events forest (followed edits before i)
            Trace ⟨#[], []⟩ history (w.stage.documentAt i) ∧ .taken n ∈ history ∧
              (vacations n.index history < UInt32.size → ∀ engine,
                let stage := (Play.runCallback engine callback w).2.stage
                (.vacated n ∈ history → stage = w.stage) ∧
                  (stage ≠ w.stage → (w.stage.documentAt i).Live n ∧
                    ∃ earlier later, history = earlier ++ .taken n :: later ∧
                      .taken n ∉ earlier ∧ ∀ e ∈ later, e.slot ≠ n.index)) := by
  intro told
  have htold : Reported forests edits (fun _ => False) told.2 :=
    Reported.tell (Reported.calls user depth) depth p _ (.start hu)
  have hrun := Account.Tells.run (Account.Tells.calls user depth) p u.unnoted
  rw [show (engine user depth).depth = depth by cases depth <;> rfl] at hrun
  refine ⟨hrun, htold.chronicle, ?_⟩
  intro before callback w after hcalled i n hplace
  obtain ⟨hgrown, hplaces⟩ := htold.called before callback w after hcalled
  obtain ⟨forest, hforest, htaken⟩ := hplaces (i, n) hplace
  have htrace : Trace ⟨#[], []⟩ (events forest (followed edits before i))
      (w.stage.documentAt i) := by
    rw [hgrown.documentAt hforest]
    exact Document.trace_events forest _
  refine ⟨forest, hforest, htrace, htaken, fun hfew engine => ⟨fun hvacated => ?_, fun hne => ?_⟩⟩
  · exact Play.runCallback_of_not_live hplace
      (htrace.recorded.not_live_of_vacated hvacated hfew) engine
  · have hlive : (w.stage.documentAt i).Live n := by
      by_contra hn
      exact hne (Play.runCallback_of_not_live hplace hn engine)
    exact ⟨hlive, htrace.recorded.untouched htaken hfew hlive⟩

end Scenario

/-! ## A slot used again -/

namespace Swap

/-- An element whose markup is bound. -/
def markup : String := "<div id=app><p v-html=m></p></div>"

/-- The world in which it has been parsed. -/
def world : World Reaction Stage where
  store := .empty
  stage := ⟨#[.parse markup], 0, #[], ⟨0, [], [], [], [], [], "", [], false⟩⟩

theorem chronicle : Chronicle #[Markup.parseFragment markup] (fun _ => []) world := by
  refine .start ?_ rfl
  change #[ofForest (Markup.parseFragment markup)] = _
  generalize Markup.parseFragment markup = forest
  rw [List.map_toArray, List.map_singleton]

/-- Its markup has a binding when it is mounted, and is replaced; then the value of that
    binding is written. -/
def scenario : Scenario :=
  .mount ⟨"#app", .object [("m", .string "<b v-text=t></b>"), ("t", .string "x")], []⟩ fun _ =>
    .set 0 "m" (.string "<i></i>") fun _ => .set 0 "t" (.string "y") .done

/-- There are no callbacks of the user. -/
def user (_ : Callback) : Scenario := .done (.ok ())

/-- What happens. -/
def happenings : List Happening :=
  (scenario.tell 5 (Scenario.calls user 5) world.unnoted).2.stage.happenings

/-- The binding is to be rendered, while another node has the slot of its node. -/
def stray : Happening → Bool
  | .called callback w => decide (callback.place? = some (0, ⟨3, 0⟩)) &&
    ((w.stage.documentAt 0).node? ⟨3, 1⟩).isSome
  | .edited .. => false

end Swap

/-- The watcher of a node that is gone is called when another node has its slot, and
    changes nothing. -/
theorem Scenario.run_quiet_of_swap : ∃ callback w, .called callback w ∈ Swap.happenings ∧
    callback.place? = some (0, ⟨3, 0⟩) ∧ (w.stage.documentAt 0).Live ⟨3, 1⟩ ∧
    ∀ engine, (Play.runCallback engine callback w).2.stage = w.stage := by
  obtain ⟨-, -, hcalls⟩ := run_quiet Swap.chronicle Swap.user 5 Swap.scenario
  have hstray : (Swap.happenings[6]?).any Swap.stray = true := by decide +kernel
  have hvacated : .vacated ⟨3, 0⟩ ∈ events (Markup.parseFragment Swap.markup)
      (followed (fun _ => []) (Swap.happenings.take 6) 0) := by decide +kernel
  have hfew : vacations 3 (events (Markup.parseFragment Swap.markup)
      (followed (fun _ => []) (Swap.happenings.take 6) 0)) < UInt32.size := by decide +kernel
  obtain ⟨happening, hsixth, hstray⟩ := (Option.any_eq_true _ _).1 hstray
  obtain ⟨hlt, hsixth⟩ := List.getElem?_eq_some_iff.1 hsixth
  have hsplit := (List.take_append_drop 6 Swap.happenings).symm
  rw [List.drop_eq_getElem_cons hlt, hsixth] at hsplit
  cases happening with
  | edited => cases hstray
  | called callback w =>
    obtain ⟨hplace, hlive⟩ := Bool.and_eq_true_iff.1 hstray
    have hplace := of_decide_eq_true hplace
    obtain ⟨forest, hforest, -, -, hquiet⟩ := hcalls _ callback w _ hsplit 0 ⟨3, 0⟩ hplace
    obtain rfl : Markup.parseFragment Swap.markup = forest := Option.some.inj hforest
    refine ⟨callback, w, ?_, hplace, hlive, fun engine => (hquiet hfew engine).1 hvacated⟩
    rw [hsplit]
    exact List.mem_append_right _ List.mem_cons_self

end DataBinding
