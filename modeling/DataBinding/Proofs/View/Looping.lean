/-
  Binding below a node that is below itself.

  It does not answer: each turn around reads the nodes on the way once more, and a
  directive that replaces what is below one of them releases the element whose attribute
  is then to be dropped.

  * `compileAttribute_loops`: an attribute that is bound leaves the element below itself;
  * `compile_looped`: so binding below it does not answer, by induction on the bound on
    the depth;
  * `compile_readable`: binding that answers was below a node that can be read.
-/
import DataBinding.Proofs.Document.Looped
import DataBinding.Proofs.View.Stripping

namespace DataBinding

open Effect (mapFault each)
open Document (Looped Looping)

namespace Play

variable {u u' : World Reaction Stage} {vm : ViewModel} {id : ViewModelId} {d : Document Listener}
  {n : NodeId}

/-! ## Binding an element -/

/-- Binding a value to an element below itself leaves it there, or it is gone. -/
theorem bindValue_loops {a : Play Value} {b : Effect Reaction Unit Value} (hab : Effect.Consults a b)
    {facet : Facet}
    (hrun : (a >>= fun v => mapFault .binding (edit vm.document fun d => d.render n facet v)) u =
      (.ok (), u'))
    (hstaged : u.stage.documents[vm.document]? = some d) (h : d.Looping n) :
    ∃ d', u'.stage.documents[vm.document]? = some d' ∧ (d'.Looping n ∨ ¬ d'.Live n) := by
  obtain ⟨v, u₁, hread, hedit⟩ := Effect.bind_eq_ok.1 hrun
  have hstage : u₁.stage = u.stage := by
    obtain ⟨r, s', ha, -⟩ := hab u.store u.stage ()
    obtain ⟨-, rfl⟩ := Prod.mk.inj (hread.symm.trans ha)
    rfl
  have hstaged₁ : u₁.stage.documents[vm.document]? = some d := by rw [hstage, hstaged]
  obtain ⟨d', hd', rfl⟩ := edit_eq_ok (Effect.mapFault_eq_ok.1 hedit) hstaged₁
  have hrender := h.render facet v
  rw [hd'] at hrender
  exact ⟨d', World.documents_put hstaged₁ d', hrender⟩

/-- So does adding a listener. -/
theorem listen_loops {eventType : String} {listener : Listener}
    (hrun : mapFault .binding (listen vm.document n eventType listener) u = (.ok (), u'))
    (hstaged : u.stage.documents[vm.document]? = some d) (h : d.Looping n ∨ ¬ d.Live n) :
    ∃ d', u'.stage.documents[vm.document]? = some d' ∧ (d'.Looping n ∨ ¬ d'.Live n) := by
  obtain ⟨d', hd', rfl⟩ := edit_eq_ok (Effect.mapFault_eq_ok.1 hrun) hstaged
  refine ⟨d', World.documents_put hstaged d', ?_⟩
  rcases h with h | hgone
  · have hlooping := h.addListener eventType listener
    rw [hd'] at hlooping
    exact .inl hlooping
  · have hrefused := (Document.stale_of_not_live hgone).target (.addListener n eventType listener) rfl
    cases hrefused.symm.trans hd'

theorem bindDirective_loops {expression : String} {directive : Directive}
    (hrun : bindDirective id vm n expression directive u = (.ok (), u'))
    (hstaged : u.stage.documents[vm.document]? = some d) (h : d.Looping n) :
    ∃ d', u'.stage.documents[vm.document]? = some d' ∧ (d'.Looping n ∨ ¬ d'.Live n) := by
  cases directive with
  | text =>
    rw [bindDirective, bindText_reads] at hrun
    exact bindValue_loops (readText_consults vm n expression) hrun hstaged h
  | html =>
    rw [bindDirective, bindValue_reads] at hrun
    exact bindValue_loops (readValue_consults vm n expression _) hrun hstaged h
  | bind target =>
    rw [bindDirective, bindValue_reads] at hrun
    exact bindValue_loops (readValue_consults vm n expression _) hrun hstaged h
  | model =>
    obtain ⟨⟨⟩, u₁, hvalue, hlisten⟩ := Effect.bind_eq_ok.1 hrun
    rw [bindValue_reads] at hvalue
    obtain ⟨d₁, hstaged₁, h₁⟩ :=
      bindValue_loops (readValue_consults vm n expression _) hvalue hstaged h
    exact listen_loops hlisten hstaged₁ h₁
  | on eventType =>
    unfold bindDirective at hrun
    cases hmethod : Keyed.get? vm.methods expression with
    | none =>
      rw [hmethod] at hrun
      cases hrun
      exact ⟨d, hstaged, .inl h⟩
    | some body =>
      rw [hmethod] at hrun
      exact listen_loops hrun hstaged (.inl h)

/-- **An attribute** that is bound leaves the element below itself: it could not be
    dropped otherwise. -/
theorem compileAttribute_loops {entry : String × String}
    (hrun : compileAttribute id vm n entry u = (.ok (), u'))
    (hstaged : u.stage.documents[vm.document]? = some d) (h : d.Looping n) :
    ∃ d', u'.stage.documents[vm.document]? = some d' ∧ d'.Looping n := by
  obtain ⟨-, rfl⟩ | ⟨directive, u₁, -, hbind, hdrop⟩ := compileAttribute_eq_ok hrun
  · exact ⟨d, hstaged, h⟩
  · obtain ⟨d₁, hstaged₁, h₁⟩ := bindDirective_loops hbind hstaged h
    obtain ⟨d', hd', rfl⟩ := edit_eq_ok hdrop hstaged₁
    refine ⟨d', World.documents_put hstaged₁ d', ?_⟩
    rcases h₁ with h₁ | hgone
    · have hlooping := h₁.updateElement .removeAttribute
        fun e => { e with attributes := Keyed.erase e.attributes entry.1 }
      rw [show d₁.updateElement n .removeAttribute _ = (.ok (), d') from hd'] at hlooping
      exact hlooping
    · have hrefused := (Document.stale_of_not_live hgone).target (.removeAttribute n entry.1) rfl
      cases hrefused.symm.trans hd'

theorem compileAttributes_loop : ∀ {entries : List (String × String)} {u : World Reaction Stage}
    {d : Document Listener}, each (compileAttribute id vm n) entries u = (.ok (), u') →
    u.stage.documents[vm.document]? = some d → d.Looping n →
    ∃ d', u'.stage.documents[vm.document]? = some d' ∧ d'.Looping n
  | [], u, d, hrun, hstaged, h => by
    cases hrun
    exact ⟨d, hstaged, h⟩
  | entry :: rest, u, d, hrun, hstaged, h => by
    obtain ⟨u₁, hfirst, hrest⟩ := Effect.each_cons_eq_ok.1 hrun
    obtain ⟨d₁, hstaged₁, h₁⟩ := compileAttribute_loops hfirst hstaged h
    exact compileAttributes_loop hrest hstaged₁ h₁

/-! ## Binding what is below -/

/-- A node that is bound stays below itself. -/
theorem compileNode_loops (hrun : compileNode id vm n u = (.ok (), u'))
    (hstaged : u.stage.documents[vm.document]? = some d) (hjoined : d.Joined) (hleafy : d.Leafy)
    (h : d.Looped n) :
    ∃ d', u'.stage.documents[vm.document]? = some d' ∧ d'.Joined ∧ d'.Leafy ∧ d'.Looped n := by
  obtain ⟨⟨parent, children, content, listeners⟩, hnode⟩ := Document.live_iff.1 h.live
  obtain ⟨c, hc, -⟩ := Relation.TransGen.head'_iff.1 h
  rw [Document.Child, Document.children_eq hnode] at hc
  cases content with
  | element e =>
    rw [compileNode_element hstaged hnode] at hrun
    obtain ⟨d', hstaged', h'⟩ := compileAttributes_loop hrun hstaged
      ⟨hjoined, hleafy, h, by rw [Document.kind?, hnode]; rfl⟩
    exact ⟨d', hstaged', h'.joined, h'.leafy, h'.looped⟩
  | document =>
    have helement : NodeContent.document.kind ≠ .element := by decide
    have htext : NodeContent.document.kind ≠ .text := by decide
    rw [compileNode_other hstaged hnode helement htext] at hrun
    cases hrun
    exact ⟨d, hstaged, hjoined, hleafy, h⟩
  | text s | comment s =>
    obtain rfl : children = [] := (hleafy _ _ hnode rfl).1
    cases hc

/-- Binding a node that is gone does nothing. -/
theorem visit_gone {depth : Nat} (hrun : visit id vm depth n u = (.ok (), u'))
    (hstaged : u.stage.documents[vm.document]? = some d) (hgone : ¬ d.Live n) : u' = u := by
  have hstale := Document.stale_of_not_live hgone
  have hself : compileNode id vm n u = (.ok (), u) := by
    unfold compileNode
    rw [Effect.bind_apply, documentAt_apply hstaged]
    dsimp only
    rw [hstale.kind]
    rfl
  obtain ⟨⟨⟩, u₁, hnode, hbelow⟩ := Effect.bind_eq_ok.1 hrun
  cases hself.symm.trans hnode
  cases depth with
  | zero => cases hbelow
  | succ depth =>
    rw [compile_succ hstaged, hstale.children] at hbelow
    cases hbelow
    rfl

/-- Binding a node that can be read leaves the nodes that are below themselves. -/
theorem visit_keeps {depth : Nat} {o : Outline} (hrun : visit id vm depth o.id u = (.ok (), u'))
    (hstaged : u.stage.documents[vm.document]? = some d) (hjoined : d.Joined) (hleafy : d.Leafy)
    (ho : d.Reads o) :
    ∃ d', u'.stage.documents[vm.document]? = some d' ∧ d'.Joined ∧ d'.Leafy ∧
      ∀ x, d.Looped x → d'.Looped x := by
  have hlaid : d.Laid [o] := ⟨hjoined, hleafy, List.forall_mem_singleton.2 ho⟩
  have hnodup : (Outline.preorderAll [o]).Nodup := by
    rw [Outline.preorderAll, Outline.preorderAll, List.append_nil]
    exact ho.nodup_preorder hjoined.linked
  obtain ⟨d', os', hbecome, -, hr, -⟩ := eachVisit_strips (s := u.store) (K := fun _ => True)
    (fun _ _ _ _ _ _ => trivial) depth [o] (fun _ _ => trivial) (.refl _) hstaged hlaid hnodup
    (Effect.each_cons_eq_ok.2 ⟨u', hrun, rfl⟩)
  refine ⟨d', hbecome ▸ World.documents_become hstaged _ _, hr.joined, hr.leafy, fun x hx => ?_⟩
  refine hx.congr fun y hy => ?_
  have hnot : y ∉ Outline.preorderAll [o] := fun hmem => by
    rw [Outline.preorderAll, Outline.preorderAll, List.append_nil] at hmem
    exact ho.acyclic hmem hy
  rw [Document.children, hr.elsewhere y hy.live hnot, Document.children]

/-- **Binding below a node that is below itself** does not answer. -/
theorem compile_looped (depth : Nat) : ∀ {u u' : World Reaction Stage} {d : Document Listener}
    {n : NodeId}, u.stage.documents[vm.document]? = some d → d.Joined → d.Leafy → d.Looped n →
    compile id vm depth n u ≠ (.ok (), u') := by
  induction depth with
  | zero =>
    intro u u' d n _ _ _ _ hrun
    cases hrun
  | succ depth ih =>
    -- a child that is below itself is bound again, after others that are not
    have hall : ∀ (cs : List NodeId) {u u' : World Reaction Stage} {d : Document Listener},
        u.stage.documents[vm.document]? = some d → d.Joined → d.Leafy → (∃ c ∈ cs, d.Looped c) →
        each (visit id vm depth) cs u ≠ (.ok (), u') := by
      intro cs
      induction cs with
      | nil =>
        intro u u' d _ _ _ ⟨c, hc, _⟩
        cases hc
      | cons c rest ihcs =>
        intro u u' d hstaged hjoined hleafy ⟨x, hx, hloop⟩ hrun
        obtain ⟨u₁, hfirst, hrest⟩ := Effect.each_cons_eq_ok.1 hrun
        by_cases hc : d.Looped c
        · obtain ⟨⟨⟩, u₂, hnode, hbelow⟩ := Effect.bind_eq_ok.1 hfirst
          obtain ⟨d₂, hstaged₂, hjoined₂, hleafy₂, hc₂⟩ :=
            compileNode_loops hnode hstaged hjoined hleafy hc
          exact ih hstaged₂ hjoined₂ hleafy₂ hc₂ hbelow
        · have hin : x ∈ rest := (List.mem_cons.1 hx).resolve_left fun heq => hc (heq ▸ hloop)
          by_cases hlive : d.Live c
          · obtain ⟨o, ho⟩ := Option.ne_none_iff_exists'.1
              fun hnone => hc (Document.looped_of_outline? hjoined.linked hnone)
            obtain ⟨hreads, rfl⟩ := hjoined.linked.reads hlive ho
            obtain ⟨d₁, hstaged₁, hjoined₁, hleafy₁, hkeep⟩ :=
              visit_keeps hfirst hstaged hjoined hleafy hreads
            exact ihcs hstaged₁ hjoined₁ hleafy₁ ⟨x, hin, hkeep x hloop⟩ hrest
          · obtain rfl := visit_gone hfirst hstaged hlive
            exact ihcs hstaged hjoined hleafy ⟨x, hin, hloop⟩ hrest
    intro u u' d n hstaged hjoined hleafy hloop hrun
    rw [compile_succ hstaged] at hrun
    obtain ⟨c, hc, hcn⟩ := Relation.TransGen.head'_iff.1 hloop
    exact hall _ hstaged hjoined hleafy ⟨c, hc, hloop.of_reach hjoined.linked hcn⟩ hrun

/-- Binding that answers was below a node that can be read. -/
theorem compile_readable {depth : Nat} (hstaged : u.stage.documents[vm.document]? = some d)
    (hjoined : d.Joined) (hleafy : d.Leafy) (hrun : compile id vm depth n u = (.ok (), u')) :
    ∃ o, d.outline? n = some o :=
  Option.ne_none_iff_exists'.1 fun hnone =>
    compile_looped depth hstaged hjoined hleafy (Document.looped_of_outline? hjoined.linked hnone) hrun

end Play

end DataBinding
