/-
  Documents on the stage, read and changed.

  * `edit_apply` and `edit_refused`: a change of a document that is done puts the
    document in its place, one that is refused leaves everything as it was;
  * `rerender_apply`: a reaction renders to a node that is there;
  * `compileNode_element`, `compileNode_text`, `compileNode_other`: what binding a
    node does depends on what it is;
  * `mount_apply` and `mount_refused`: a view model is made and its template bound,
    or its data is refused.
-/
import DataBinding.View.Model
import DataBinding.Proofs.Document.Writing

namespace DataBinding

variable {R : Type}

/-- A world with another document on its stage. -/
def World.put (u : World R Stage) (id : DocumentId) (d : Document Listener) : World R Stage :=
  { u with stage.documents := u.stage.documents.setIfInBounds id d }

theorem World.documents_put {u : World R Stage} {id : DocumentId} {d : Document Listener}
    (h : u.stage.documents[id]? = some d) (d' : Document Listener) :
    (u.put id d').stage.documents[id]? = some d' := by
  obtain ⟨hlt, -⟩ := Array.getElem?_eq_some_iff.1 h
  unfold World.put
  dsimp only
  rw [Array.getElem?_setIfInBounds_self_of_lt hlt]

theorem World.put_eq {u : World R Stage} {id : DocumentId} {d : Document Listener}
    (h : u.stage.documents[id]? = some d) : u.put id d = u := by
  have hsame : u.stage.documents.setIfInBounds id d = u.stage.documents := by
    refine Array.ext_getElem? fun i => ?_
    rw [Array.getElem?_setIfInBounds]
    split
    next hi => rw [← hi, h, if_pos (Array.getElem?_eq_some_iff.1 h).1]
    next => rfl
  rw [World.put, hsame]

namespace Play

variable {u : World Reaction Stage} {id : DocumentId} {d d' : Document Listener}

theorem documentAt_apply (hd : u.stage.documents[id]? = some d) :
    documentAt id u = (.ok d, u) := by
  change (Except.ok (u.stage.documentAt id), u) = _
  rw [Stage.documentAt, hd]
  rfl

theorem edit_apply (change : Document Listener → Document.Edited Listener)
    (hd : u.stage.documents[id]? = some d) (hchange : change d = (.ok (), d')) :
    edit id change u = (.ok (), u.put id d') := by
  unfold edit
  rw [Effect.bind_apply, documentAt_apply hd]
  dsimp only
  rw [hchange]
  rfl

theorem edit_refused (change : Document Listener → Document.Edited Listener) {e : NodeError}
    (hd : u.stage.documents[id]? = some d) (hchange : change d = (.error e, d)) :
    edit id change u = (.error (.fault (.node e)), u) := by
  unfold edit
  rw [Effect.bind_apply, documentAt_apply hd]
  dsimp only
  rw [hchange]
  change (_, u.put id d) = _
  rw [World.put_eq hd]

/-- A change that answers has been done. -/
theorem edit_eq_ok {change : Document Listener → Document.Edited Listener} {u' : World Reaction Stage}
    (h : edit id change u = (.ok (), u')) (hstaged : u.stage.documents[id]? = some d) :
    ∃ d', change d = (.ok (), d') ∧ u' = u.put id d' := by
  unfold edit at h
  rw [Effect.bind_apply, documentAt_apply hstaged] at h
  rcases hchange : change d with ⟨e | ⟨⟩, d'⟩
  · dsimp only at h
    rw [hchange] at h
    cases h
  · dsimp only at h
    rw [hchange] at h
    cases h
    exact ⟨d', rfl, rfl⟩

theorem rerender_apply {node : NodeId} {facet : Facet} {v : Value}
    (hd : u.stage.documents[id]? = some d) (hnode : d.Live node)
    (hrender : d.render node facet v = (.ok (), d')) :
    rerender id node facet v u = (.ok (), u.put id d') := by
  obtain ⟨m, hm⟩ := Document.live_iff.1 hnode
  have hedit := edit_apply (fun d => d.render node facet v) hd hrender
  unfold rerender
  rw [Effect.bind_apply, documentAt_apply hd]
  dsimp only
  rw [show d.kind? node = some m.content.kind by rw [Document.kind?, hm]; rfl]
  dsimp only
  rw [Effect.mapFault, hedit]

/-! ## Binding a node -/

section

variable {vm : ViewModel} {n : NodeId} {id : ViewModelId}

/-- An element is bound by its attributes. -/
theorem compileNode_element (hstaged : u.stage.documents[vm.document]? = some d)
    {parent : Option NodeId} {children : List NodeId} {e : Element}
    {listeners : List (String × Listener)}
    (hnode : d.node? n = some ⟨parent, children, .element e, listeners⟩) :
    compileNode id vm n u = Effect.each (compileAttribute id vm n) e.attributes u := by
  unfold compileNode
  rw [Effect.bind_apply, documentAt_apply hstaged]
  dsimp only
  rw [show d.kind? n = some .element by rw [Document.kind?, hnode]; rfl,
    show d.attributes n = e.attributes by rw [Document.attributes, Document.element?, hnode]; rfl]

/-- A text is bound if it has placeholders. -/
theorem compileNode_text (hstaged : u.stage.documents[vm.document]? = some d)
    {parent : Option NodeId} {s : String} {listeners : List (String × Listener)}
    (hnode : d.node? n = some ⟨parent, [], .text s, listeners⟩) (id : ViewModelId) :
    compileNode id vm n u =
      (if Template.hasPlaceholder s then bindText vm n s else pure () : Play Unit) u := by
  unfold compileNode
  rw [Effect.bind_apply, documentAt_apply hstaged]
  dsimp only
  rw [show d.kind? n = some .text by rw [Document.kind?, hnode]; rfl]
  dsimp only
  rw [Document.textContent_text hnode]

/-- No other node is bound. -/
theorem compileNode_other (hstaged : u.stage.documents[vm.document]? = some d)
    {node : Node Listener} (hnode : d.node? n = some node) (helement : node.content.kind ≠ .element)
    (htext : node.content.kind ≠ .text) : compileNode id vm n u = (.ok (), u) := by
  unfold compileNode
  rw [Effect.bind_apply, documentAt_apply hstaged]
  dsimp only
  rw [show d.kind? n = some node.content.kind by rw [Document.kind?, hnode]; rfl]
  cases hkind : node.content.kind with
  | element => exact absurd hkind helement
  | text => exact absurd hkind htext
  | document => rfl
  | comment => rfl

end

end Play

/-! ## Making a view model -/

namespace World

/-- The view model that is made on the document in use. -/
def viewModel (u : World Reaction Stage) (options : Options Script) : ViewModel where
  document := u.stage.document
  el := (u.stage.documentAt u.stage.document).querySelector? options.el
  data := (u.store.observeMapping options.data).1
  selector := options.el
  methods := options.methods
  properties :=
    if ((u.stage.documentAt u.stage.document).querySelector? options.el).isSome then
      (u.store.observeMapping options.data).2.keys (u.store.observeMapping options.data).1
    else []

/-- Its element is the one that its selector finds in that document. -/
theorem viewModel_el {u : World Reaction Stage} {d : Document Listener}
    (hstaged : u.stage.documents[u.stage.document]? = some d) (options : Options Script) :
    (u.viewModel options).el = d.querySelector? options.el := by
  unfold viewModel Stage.documentAt
  rw [hstaged]
  rfl

/-- The world in which its template is bound. -/
def making (u : World Reaction Stage) (options : Options Script) : World Reaction Stage where
  store := (u.store.observeMapping options.data).2
  stage := { u.stage with viewModels := u.stage.viewModels.push (u.viewModel options) }

end World

namespace Play

variable {u : World Reaction Stage} {options : Options Script} {depth : Nat}

/-- Data is made reactive, or refused. -/
theorem reactiveData_cases (data : Json) (mounted : Bool) (u : World Reaction Stage) :
    reactiveData data mounted u = (.ok (u.store.observeMapping data).1,
        { u with store := (u.store.observeMapping data).2 }) ∨
      ∃ f, reactiveData data mounted u = (.error (.fault f), u) := by
  cases data <;> cases mounted <;> first | exact .inl rfl | exact .inr ⟨_, rfl⟩

/-- A mapping is made reactive. -/
theorem reactiveData_object {data : Json} {members : List (String × Json)}
    (hdata : data = .object members) {mounted : Bool} :
    reactiveData data mounted u = (.ok (u.store.observeMapping data).1,
      { u with store := (u.store.observeMapping data).2 }) := by
  subst hdata
  rfl

/-- Making a view model comes to binding what is below its element, if there is
    one. -/
theorem mount_apply (h : reactiveData options.data (u.viewModel options).el.isSome u =
      (.ok (u.store.observeMapping options.data).1,
        { u with store := (u.store.observeMapping options.data).2 })) :
    mount depth options u =
      match (u.viewModel options).el with
      | none => (.ok u.stage.viewModels.size, u.making options)
      | some node =>
        (compile u.stage.viewModels.size (u.viewModel options) depth node >>= fun _ =>
          pure u.stage.viewModels.size) (u.making options) := by
  unfold World.viewModel at h
  dsimp only at h
  unfold mount
  rw [Effect.bind_apply, show current u = (.ok u.stage.document, u) from rfl]
  dsimp only
  rw [Effect.bind_apply, show documentAt u.stage.document u =
    (.ok (u.stage.documentAt u.stage.document), u) from rfl]
  dsimp only
  rw [Effect.bind_apply, h]
  dsimp only
  rw [Effect.bind_apply]
  dsimp only [Effect.store]
  rw [Effect.bind_apply]
  dsimp only [addViewModel, Effect.stage, Effect.modifyStage]
  unfold World.making World.viewModel
  dsimp only
  cases (u.stage.documentAt u.stage.document).querySelector? options.el <;> rfl

/-- Data that is refused makes no view model. -/
theorem mount_refused {f : Fault} (h : reactiveData options.data (u.viewModel options).el.isSome u =
      (.error (.fault f), u)) : mount depth options u = (.error (.fault f), u) := by
  unfold World.viewModel at h
  dsimp only at h
  unfold mount
  rw [Effect.bind_apply, show current u = (.ok u.stage.document, u) from rfl]
  dsimp only
  rw [Effect.bind_apply, show documentAt u.stage.document u =
    (.ok (u.stage.documentAt u.stage.document), u) from rfl]
  dsimp only
  rw [Effect.bind_apply, h]

end Play

end DataBinding
