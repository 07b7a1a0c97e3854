/-
  The elements of parsed markup.

  Each rule of a mode keeps a condition on the attributes of all elements, also
  when its token is to be taken again (`Outcome.Bears`).

  * `everyOf_parseFragment`: a condition that holds of what start tags are read
    to holds of every element that markup is parsed to.
-/
import DataBinding.Proofs.Markup.Construction
import DataBinding.Markup.Construction.Rules

namespace DataBinding.Markup

variable {A : List (String × String) → Prop}

namespace Construction

/-- A condition on the attributes of all elements after a token. -/
def Outcome.Bears (A : List (String × String) → Prop) (outcome : Outcome) : Prop :=
  outcome.1.Bears A

theorem Outcome.Bears.ite {c : Prop} [Decidable c] {outcome outcome' : Outcome}
    (h : outcome.Bears A) (h' : outcome'.Bears A) : Outcome.Bears A (if c then outcome else outcome') := by
  split
  · exact h
  · exact h'

namespace Bears

variable {b : Construction} {tag : Tag} {t : Token}

theorem done (h : b.Bears A) : (Construction.done b).Bears A := h

theorem again (h : b.Bears A) (mode : Mode) : (Construction.again mode b).Bears A := h.of_eq rfl rfl

theorem resetMode (h : b.Bears A) : b.resetMode.Bears A := h.of_eq rfl rfl

/-! ## Tables -/

theorem charInTable (h : b.Bears A) (hA : Lexical A) (c : Char) : (b.charInTable c).Bears A :=
  .ite (h.of_eq rfl rfl) (h.fosterInBody hA (.char c)).done

theorem openInTable (h : b.Bears A) (hA : Lexical A) (ht : A tag.attributes) :
    (b.openInTable tag).Bears A := by
  have hp := h.popTo ["html", "table", "template"]
  unfold Construction.openInTable
  dsimp only
  -- parts of the table
  refine .ite ((hp.markFormatting.insertTag ht).of_eq rfl rfl) ?_
  refine .ite ((hp.insertTag ht).of_eq rfl rfl) (.ite ((hp.insertImplied hA _).again _) ?_)
  refine .ite ((hp.insertTag ht).of_eq rfl rfl) (.ite ((hp.insertImplied hA _).again _) ?_)
  -- other elements
  refine .ite (.ite ((h.closeInnermost _).resetMode.again _) h.done) ?_
  refine .ite (h.openCommon ht).done (.ite (h.insertVoid ht).done ?_)
  refine .ite (.ite h.done ((h.insertVoid ht).of_eq rfl rfl)) ?_
  exact (h.fosterInBody hA fun _ heq => Token.opening.inj heq ▸ ht).done

theorem closeInTable (h : b.Bears A) (hA : Lexical A) (name : String) :
    (b.closeInTable name).Bears A := by
  unfold Construction.closeInTable
  refine .ite (.ite (h.closeInnermost _).resetMode.done h.done) (.ite h.done ?_)
  exact .ite h.closeTemplate.done (h.fosterInBody hA (.closing name)).done

theorem inTable (h : b.Bears A) (hA : Lexical A) (ht : t.Bears A) : (b.inTable t).Bears A := by
  cases t with
  | char c => exact h.charInTable hA c
  | comment s => exact (h.insertComment s).done
  | opening tag => exact h.openInTable hA (ht tag rfl)
  | closing name => exact h.closeInTable hA name
  | omitted => exact h.done
  | finish => exact h.done

theorem foldl {α : Type} {f : Construction → α → Construction} :
    ∀ {xs : List α} {b : Construction}, b.Bears A →
      (∀ {b : Construction}, b.Bears A → ∀ x ∈ xs, (f b x).Bears A) → (xs.foldl f b).Bears A
  | [], _, h, _ => h
  | x :: xs, b, h, hf => by
    rw [List.foldl_cons]
    exact foldl (hf h x List.mem_cons_self) fun h y hy => hf h y (List.mem_cons_of_mem x hy)

theorem flushTableText (h : b.Bears A) (hA : Lexical A) : b.flushTableText.Bears A := by
  have hstart : ({ b with tableText := [] } : Construction).Bears A := h.of_eq rfl rfl
  exact ite (hstart.foldl fun h c _ => h.insertChar c)
    (hstart.foldl fun h c _ => h.fosterInBody hA (.char c))

theorem inTableText (h : b.Bears A) (hA : Lexical A) (t : Token) : (b.inTableText t).Bears A := by
  cases t with
  | char c => exact ite h (h.of_eq rfl rfl)
  | omitted => exact h.done
  | _ => exact (h.flushTableText hA).again _

theorem closeCaption (h : b.Bears A) : b.closeCaption.Bears A :=
  ((h.closeImplied _).closeInnermost _).clearFormatting

theorem inCaption (h : b.Bears A) (hA : Lexical A) (ht : t.Bears A) : (b.inCaption t).Bears A := by
  have hc := h.closeCaption
  have hbody := (h.inBody hA ht).done
  unfold Construction.inCaption
  dsimp only
  split
  · exact .ite (.ite (hc.again _) h.done) hbody
  · refine .ite (.ite (hc.of_eq rfl rfl) h.done) (.ite (.ite (hc.again _) h.done) ?_)
    exact .ite h.done hbody
  · exact hbody

theorem leaveColumnGroup (h : b.Bears A) : b.leaveColumnGroup.Bears A :=
  .ite (h.pop.again _) h.done

theorem inColumnGroup (h : b.Bears A) (ht : t.Bears A) : (b.inColumnGroup t).Bears A := by
  have hleave := h.leaveColumnGroup
  cases t with
  | char c => exact .ite (h.insertChar c).done hleave
  | comment s => exact (h.insertComment s).done
  | opening tag =>
    refine .ite h.done (.ite (h.insertVoid (ht tag rfl)).done ?_)
    exact .ite (h.openCommon (ht tag rfl)).done hleave
  | closing name =>
    have hclosed : ({ b.pop with mode := .inTable } : Construction).Bears A := h.of_eq rfl rfl
    exact .ite (ite hclosed h).done (.ite h.done (.ite h.closeTemplate.done hleave))
  | omitted => exact h.done
  | finish => exact h.done

theorem toTableBody (h : b.Bears A) : b.toTableBody.Bears A := h.popTo _

theorem toRow (h : b.Bears A) : b.toRow.Bears A := h.popTo _

theorem leaveTableBody (h : b.Bears A) : b.leaveTableBody.Bears A :=
  .ite (h.toTableBody.pop.again _) h.done

theorem inTableBody (h : b.Bears A) (hA : Lexical A) (ht : t.Bears A) :
    (b.inTableBody t).Bears A := by
  have hbody := h.toTableBody
  have hleave := h.leaveTableBody
  have htable := h.inTable hA ht
  unfold Construction.inTableBody
  dsimp only
  split
  · refine .ite ((hbody.insertTag (ht _ rfl)).of_eq rfl rfl) ?_
    exact .ite ((hbody.insertImplied hA _).again _) (.ite hleave htable)
  · refine .ite (.ite (hbody.pop.of_eq rfl rfl) h.done) (.ite hleave ?_)
    exact .ite h.done htable
  · exact htable

theorem leaveRow (h : b.Bears A) : b.leaveRow.Bears A :=
  .ite (h.toRow.pop.again _) h.done

theorem inRow (h : b.Bears A) (hA : Lexical A) (ht : t.Bears A) : (b.inRow t).Bears A := by
  have hrow := h.toRow
  have hleave := h.leaveRow
  have htable := h.inTable hA ht
  unfold Construction.inRow
  dsimp only
  split
  · refine .ite ((hrow.insertTag (ht _ rfl)).markFormatting.of_eq rfl rfl) ?_
    exact .ite hleave htable
  · refine .ite (.ite (hrow.pop.of_eq rfl rfl) h.done) (.ite hleave ?_)
    exact .ite (.ite hleave h.done) (.ite h.done htable)
  · exact htable

theorem closeCell (h : b.Bears A) : b.closeCell.Bears A :=
  ((h.closeImplied _).popThrough _).clearFormatting

theorem inCell (h : b.Bears A) (hA : Lexical A) (ht : t.Bears A) : (b.inCell t).Bears A := by
  have hleave := h.closeCell.again .inRow
  have hbody := (h.inBody hA ht).done
  unfold Construction.inCell
  dsimp only
  split
  next => exact .ite (.ite hleave h.done) hbody
  next name =>
    have hclosed := ((h.closeImplied impliedTags).closeInnermost name).clearFormatting
    refine .ite (.ite (hclosed.of_eq rfl rfl) h.done) (.ite h.done ?_)
    exact .ite (.ite hleave h.done) hbody
  next => exact hbody

/-! ## Selections -/

theorem endOptions (h : b.Bears A) : b.endOptions.Bears A := by
  have hended := ite (c := b.currentIn ["option"]) h.pop h
  exact ite hended.pop hended

theorem closeSelect (h : b.Bears A) : b.closeSelect.Bears A :=
  (h.closeInnermost _).resetMode

theorem openInSelect (h : b.Bears A) (ht : A tag.attributes) : (b.openInSelect tag).Bears A := by
  unfold Construction.openInSelect
  dsimp only
  refine .ite ((ite h.pop h).insertTag ht).done (.ite (h.endOptions.insertTag ht).done ?_)
  refine .ite (h.endOptions.insertVoid ht).done (.ite (ite h.closeSelect h).done ?_)
  exact .ite (.ite (h.closeSelect.again _) h.done) (.ite (h.openCommon ht).done h.done)

theorem closeInSelect (h : b.Bears A) (name : String) : (b.closeInSelect name).Bears A := by
  unfold Construction.closeInSelect
  dsimp only
  refine ite ?_ (ite (ite h.pop h) (ite (ite h.closeSelect h) (ite h.closeTemplate h)))
  split
  · exact ite h.pop.pop h.pop
  · exact ite h.pop h

theorem inSelect (h : b.Bears A) (ht : t.Bears A) : (b.inSelect t).Bears A := by
  cases t with
  | char c => exact (ite h (h.insertChar c)).done
  | comment s => exact (h.insertComment s).done
  | opening tag => exact h.openInSelect (ht tag rfl)
  | closing name => exact (h.closeInSelect name).done
  | omitted => exact h.done
  | finish => exact h.done

theorem inSelectInTable (h : b.Bears A) (ht : t.Bears A) : (b.inSelectInTable t).Bears A := by
  have hleave := h.closeSelect.again b.closeSelect.mode
  have hselect := h.inSelect ht
  unfold Construction.inSelectInTable
  dsimp only
  split
  · exact .ite hleave hselect
  · exact .ite (.ite hleave h.done) hselect
  · exact hselect

/-! ## Templates and texts -/

theorem retemplate (h : b.Bears A) (mode : Mode) : (Construction.retemplate mode b).Bears A :=
  h.of_eq rfl rfl

theorem inTemplate (h : b.Bears A) (hA : Lexical A) (ht : t.Bears A) :
    (b.inTemplate t).Bears A := by
  unfold Construction.inTemplate
  split
  · refine .ite (h.openCommon (ht _ rfl)).done (.ite (h.retemplate _) (.ite (h.retemplate _) ?_))
    exact .ite (h.retemplate _) (.ite (h.retemplate _) (h.retemplate _))
  · exact (ite h.closeTemplate h).done
  · exact (h.inBody hA ht).done

theorem inText (h : b.Bears A) (t : Token) : (b.inText t).Bears A := by
  cases t with
  | char c => exact (h.insertChar c).done
  | closing name => exact h.of_eq rfl rfl
  | finish => exact h.pop.again _
  | _ => exact h.done

theorem byMode (h : b.Bears A) (hA : Lexical A) (ht : t.Bears A) : (b.byMode t).Bears A := by
  unfold Construction.byMode
  cases b.mode with
  | inBody => exact (h.inBody hA ht).done
  | inText => exact h.inText t
  | inTable => exact h.inTable hA ht
  | inTableText => exact h.inTableText hA t
  | inCaption => exact h.inCaption hA ht
  | inColumnGroup => exact h.inColumnGroup ht
  | inTableBody => exact h.inTableBody hA ht
  | inRow => exact h.inRow hA ht
  | inCell => exact h.inCell hA ht
  | inSelect => exact h.inSelect ht
  | inSelectInTable => exact h.inSelectInTable ht
  | inTemplate => exact h.inTemplate hA ht

/-! ## Foreign elements -/

theorem leaveForeign (h : b.Bears A) : b.leaveForeign.Bears A := h.of_eq rfl rfl

theorem closeForeign (h : b.Bears A) (hA : Lexical A) (name : String) :
    ∀ (first : Bool) (stack : List Nat), (b.closeForeign name first stack).Bears A
  | _, [] => h.done
  | _, [_] => h.done
  | first, i :: j :: outer => by
    unfold Construction.closeForeign
    refine .ite (h.byMode hA (.closing name)) (.ite (h.of_eq rfl rfl) ?_)
    exact h.closeForeign hA name false (j :: outer)

theorem inForeign (h : b.Bears A) (hA : Lexical A) (ht : t.Bears A) : (b.inForeign t).Bears A := by
  cases t with
  | char c => exact (h.insertChar _).done
  | comment s => exact (h.insertComment s).done
  | opening tag => exact .ite (h.leaveForeign.byMode hA ht) (h.foreignStart hA (ht tag rfl)).done
  | closing name => exact .ite (h.leaveForeign.byMode hA ht) (h.closeForeign hA name true b.stack)
  | omitted => exact h.done
  | finish => exact h.done

/-! ## Texts -/

theorem takeRounds (hA : Lexical A) (ht : t.Bears A) : ∀ (n : Nat) {b : Construction},
    b.Bears A → (Construction.takeRounds n b t).Bears A
  | 0, _, h => h
  | n + 1, b, h => by
    have hnext : Outcome.Bears A (if b.isForeign t then b.inForeign t else b.byMode t) :=
      .ite (h.inForeign hA ht) (h.byMode hA ht)
    unfold Construction.takeRounds
    split
    next b' again heq =>
    rw [heq] at hnext
    split
    · exact takeRounds hA ht n hnext
    · exact hnext

theorem take (h : b.Bears A) (hA : Lexical A) (ht : t.Bears A) : (b.take t).Bears A := by
  have hstart : ({ b with skipsNewline := false } : Construction).Bears A := h.of_eq rfl rfl
  exact ite hstart (takeRounds hA ht _ hstart)

theorem takeText (hA : Lexical A) : ∀ (fuel : Nat) {b : Construction} (cs : List Char),
    b.Bears A → (Construction.takeText fuel b cs).Bears A
  | 0, _, _, h => h
  | fuel + 1, b, cs, h => by
    unfold Construction.takeText
    refine ite h ?_
    exact takeText hA fuel _ (h.foldl fun h t ht => h.take hA (bears_lex hA _ _ _ t ht))

end Bears

theorem bears_start (hA : Lexical A) : start.Bears A := by
  refine ⟨Draft.Bears.add (fun _ _ hnode => ?_) fun _ _ heq => ?_, nofun⟩
  · simp at hnode
  · cases heq
    exact hA.none

end Construction

/-- **A condition on what start tags are read to holds of every element that
    markup is parsed to.** -/
theorem everyOf_parseFragment (hA : Lexical A) (markup : String) :
    EveryOf A (parseFragment markup) := by
  unfold parseFragment
  dsimp only
  exact ((Construction.Bears.takeText hA _ _ (Construction.bears_start hA)).take hA
    .finish).draft.forest 0

end DataBinding.Markup
