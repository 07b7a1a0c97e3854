/-
  The elements of a tree construction.

  The rules keep that a condition on attributes holds of all elements and of all
  formatting elements (`Construction.Bears`): one lemma for each move and for
  each rule, up to `Bears.take` and `everyOf_parseFragment`.
-/
import DataBinding.Proofs.Markup.Attributes

namespace DataBinding.Markup

namespace Construction

variable {A : List (String × String) → Prop}

/-- A condition on the attributes of the formatting elements. -/
def BearsAll (A : List (String × String) → Prop) (entries : List Formatting) : Prop :=
  ∀ node tag, Formatting.element node tag ∈ entries → A tag.attributes

/-- A condition on the attributes of all elements, the formatting elements
    included. -/
structure Bears (A : List (String × String) → Prop) (b : Construction) : Prop where
  draft : b.draft.Bears A
  formatting : BearsAll A b.formatting

namespace BearsAll

variable {entries entries' : List Formatting}

theorem sub (h : BearsAll A entries) (hsub : ∀ e ∈ entries', e ∈ entries) : BearsAll A entries' :=
  fun node tag hm => h node tag (hsub _ hm)

theorem cons (h : BearsAll A entries) {node : Nat} {tag : Tag} (ht : A tag.attributes) :
    BearsAll A (.element node tag :: entries) := by
  intro node' tag' hm
  rcases List.mem_cons.1 hm with heq | hm
  · cases heq
    exact ht
  · exact h node' tag' hm

end BearsAll

namespace Bears

variable {b b' : Construction} {tag : Tag}

/-- Only the draft and the formatting elements matter. -/
theorem of_eq (h : b.Bears A) (hd : b'.draft = b.draft) (hf : b'.formatting = b.formatting) :
    b'.Bears A :=
  ⟨hd ▸ h.draft, hf ▸ h.formatting⟩

/-- Whichever way a rule goes. -/
theorem ite {c : Prop} [Decidable c] (h : b.Bears A) (h' : b'.Bears A) :
    (if c then b else b').Bears A := by
  split
  · exact h
  · exact h'

/-! ## Moves -/

theorem pop (h : b.Bears A) : b.pop.Bears A := h.of_eq rfl rfl

theorem popThrough (h : b.Bears A) (target : Nat → Bool) : (b.popThrough target).Bears A :=
  h.of_eq rfl rfl

theorem popTo (h : b.Bears A) (tags : List String) : (b.popTo tags).Bears A := h.of_eq rfl rfl

theorem closeInnermost (h : b.Bears A) (name : String) : (b.closeInnermost name).Bears A :=
  h.popThrough _

theorem closeImplied (h : b.Bears A) (tags : List String) : (b.closeImplied tags).Bears A :=
  h.of_eq rfl rfl

theorem closeImpliedExcept (h : b.Bears A) (name : String) : (b.closeImpliedExcept name).Bears A :=
  h.closeImplied _

theorem closeParagraph (h : b.Bears A) : b.closeParagraph.Bears A :=
  (h.closeImpliedExcept "p").closeInnermost "p"

theorem endParagraph (h : b.Bears A) : b.endParagraph.Bears A := ite h.closeParagraph h

theorem putAt (h : b.Bears A) (place : Place) (node : Nat) : (b.putAt place node).Bears A := by
  unfold Construction.putAt
  split
  · exact ⟨h.draft.append _ _, h.formatting⟩
  · split
    · exact ⟨h.draft.insertBefore _ _, h.formatting⟩
    · exact ⟨h.draft.append _ _, h.formatting⟩

theorem create (h : b.Bears A) (name : ElementName) {attributes : List (String × String)}
    (ha : A attributes) : (b.create name attributes).Bears A :=
  ⟨h.draft.add fun _ _ heq => by cases heq; exact ha, h.formatting⟩

theorem insertClosed (h : b.Bears A) (name : ElementName) {attributes : List (String × String)}
    (ha : A attributes) : (b.insertClosed name attributes).Bears A :=
  (h.create name ha).putAt _ _

theorem insert (h : b.Bears A) (name : ElementName) {attributes : List (String × String)}
    (ha : A attributes) : (b.insert name attributes).Bears A :=
  (h.insertClosed name ha).of_eq rfl rfl

theorem insertTag (h : b.Bears A) (ht : A tag.attributes) : (b.insertTag tag).Bears A :=
  h.insert _ ht

theorem insertVoid (h : b.Bears A) (ht : A tag.attributes) : (b.insertVoid tag).Bears A :=
  h.insertClosed _ ht

theorem insertImplied (h : b.Bears A) (hA : Lexical A) (name : String) :
    (b.insertImplied name).Bears A :=
  h.insertTag hA.none

theorem insertComment (h : b.Bears A) (s : String) : (b.insertComment s).Bears A := by
  have hdraft : Draft.Bears A (b.draft.add (.comment s)) := h.draft.add fun _ _ heq => by cases heq
  have hcreate : ({ b with draft := b.draft.add (.comment s) } : Construction).Bears A :=
    ⟨hdraft, h.formatting⟩
  exact hcreate.putAt _ _

theorem insertChar (h : b.Bears A) (c : Char) : (b.insertChar c).Bears A := by
  unfold Construction.insertChar
  split
  · exact ⟨h.draft.appendChar _ _, h.formatting⟩
  · split
    · exact ⟨h.draft.insertCharBefore _ _, h.formatting⟩
    · exact ⟨h.draft.appendChar _ _, h.formatting⟩

theorem insertTextual (h : b.Bears A) (ht : A tag.attributes) (lexing : Lexing) :
    (b.insertTextual tag lexing).Bears A :=
  (h.insertTag ht).of_eq rfl rfl

/-! ## Formatting elements -/

theorem dropFormatting (h : b.Bears A) (i : Nat) : (b.dropFormatting i).Bears A :=
  ⟨h.draft, h.formatting.sub fun _ he => List.mem_of_mem_filter he⟩

theorem clearFormatting (h : b.Bears A) : b.clearFormatting.Bears A :=
  ⟨h.draft, h.formatting.sub fun _ he =>
    (List.dropWhile_suffix _).subset (List.mem_of_mem_drop he)⟩

theorem markFormatting (h : b.Bears A) : b.markFormatting.Bears A := by
  refine ⟨h.draft, fun node tag hm => ?_⟩
  rcases List.mem_cons.1 hm with heq | hm
  · cases heq
  · exact h.formatting node tag hm

theorem liveFormatting_go {A : List (String × String) → Prop} : ∀ {entries : List Formatting},
    BearsAll A entries → ∀ entry ∈ liveFormatting.go entries, A entry.2.attributes
  | [], _ => nofun
  | .marker :: _, _ => nofun
  | .element i tag :: rest, h => by
    intro entry hentry
    rcases List.mem_cons.1 hentry with rfl | hentry
    · exact h i tag List.mem_cons_self
    · exact liveFormatting_go (h.sub fun _ he => List.mem_cons_of_mem _ he) entry hentry

theorem liveFormatting (h : b.Bears A) : ∀ entry ∈ b.liveFormatting, A entry.2.attributes :=
  liveFormatting_go h.formatting

theorem cutFormatting (stack : List Nat) : ∀ {entries : List Formatting}, BearsAll A entries →
    (∀ entry ∈ (Construction.cutFormatting stack entries).1, A entry.2.attributes) ∧
      BearsAll A (Construction.cutFormatting stack entries).2
  | [], h => ⟨nofun, h⟩
  | .marker :: _, h => ⟨nofun, h⟩
  | .element i tag :: rest, h => by
    unfold Construction.cutFormatting
    split
    · exact ⟨nofun, h⟩
    · obtain ⟨hcut, hkept⟩ := cutFormatting stack (h.sub fun _ he =>
        List.mem_cons_of_mem _ he)
      exact ⟨List.forall_mem_cons.2 ⟨h i tag List.mem_cons_self, hcut⟩, hkept⟩

theorem reopen (h : b.Bears A) : b.reopen.Bears A := by
  obtain ⟨hcut, hkept⟩ := cutFormatting b.stack h.formatting
  have hstart : ({ b with formatting := (Construction.cutFormatting b.stack b.formatting).2 }
    : Construction).Bears A := ⟨h.draft, hkept⟩
  unfold Construction.reopen
  dsimp only
  generalize Construction.cutFormatting b.stack b.formatting = found at hcut hstart
  have hcut' : ∀ entry ∈ found.1.reverse, A entry.2.attributes := fun entry he =>
    hcut entry (List.mem_reverse.1 he)
  generalize found.1.reverse = cut at hcut'
  generalize ({ b with formatting := found.2 } : Construction) = b' at hstart
  induction cut generalizing b' with
  | nil => exact hstart
  | cons entry cut ih =>
    obtain ⟨ht, hcut'⟩ := List.forall_mem_cons.1 hcut'
    exact ih hcut' _ ⟨(hstart.insertTag ht).draft, hstart.formatting.cons ht⟩

theorem insertFormatting (h : b.Bears A) (ht : A tag.attributes) :
    (b.insertFormatting tag).Bears A := by
  unfold Construction.insertFormatting
  dsimp only
  split
  · split
    · exact ⟨((h.dropFormatting _).insertTag ht).draft, (h.dropFormatting _).formatting.cons ht⟩
    · exact ⟨(h.insertTag ht).draft, h.formatting.cons ht⟩
  · exact ⟨(h.insertTag ht).draft, h.formatting.cons ht⟩

/-! ## End tags of formatting elements -/

theorem closeGeneric (h : b.Bears A) (tag : String) : (b.closeGeneric tag).Bears A := by
  unfold Construction.closeGeneric
  dsimp only
  split
  · exact h
  · split
    · exact h.of_eq rfl rfl
    · exact h

theorem entryTag? {node : Nat} : ∀ {entries : List Formatting} {tag : Tag}, BearsAll A entries →
    Construction.entryTag? node entries = some tag → A tag.attributes
  | .marker :: _, _, h, htag =>
    entryTag? (h.sub fun _ he => List.mem_cons_of_mem _ he) htag
  | .element i tag' :: _, _, h, htag => by
    rw [Construction.entryTag?] at htag
    split at htag
    · obtain rfl := Option.some.inj htag
      exact h i _ List.mem_cons_self
    · exact entryTag? (h.sub fun _ he => List.mem_cons_of_mem _ he) htag

theorem replaceEntry {entries : List Formatting} (h : BearsAll A entries) (node copy : Nat)
    (ht : A tag.attributes) :
    BearsAll A (Construction.replaceEntry node (.element copy tag) entries) := by
  intro node' tag' hm
  obtain ⟨e, he, heq⟩ := List.mem_map.1 hm
  split at heq
  · cases heq
    exact ht
  · exact h node' tag' (heq ▸ he)

theorem insertEntryAfter (node copy : Nat) (ht : A tag.attributes) :
    ∀ {entries : List Formatting}, BearsAll A entries →
      BearsAll A (Construction.insertEntryAfter node (.element copy tag) entries)
  | [], h => h.cons ht
  | e :: rest, h => by
    unfold Construction.insertEntryAfter
    split
    · exact h.cons ht
    · have hrest := insertEntryAfter node copy ht (h.sub fun _ he =>
        List.mem_cons_of_mem e he)
      intro node' tag' hm
      rcases List.mem_cons.1 hm with rfl | hm
      · exact h node' tag' List.mem_cons_self
      · exact hrest node' tag' hm

theorem wrap {w : Wrapping} (h : w.state.Bears A) (block count node : Nat) :
    (Construction.wrap block count w node).state.Bears A := by
  unfold Construction.wrap
  split
  · exact h
  next tag htag =>
    have ht := entryTag? h.formatting htag
    split
    · exact h.dropFormatting node
    · exact ⟨(h.create _ ht).draft.append _ _, replaceEntry h.formatting _ _ ht⟩

theorem wrapAll (block : Nat) : ∀ {nodes : List Nat} {w : Wrapping} (count : Nat),
    w.state.Bears A → (Construction.wrapAll block w count nodes).state.Bears A
  | [], _, _, h => h
  | node :: _, _, count, h => wrapAll block (count + 1) (h.wrap block count node)

theorem cut (h : b.Bears A) (ht : A tag.attributes) (node block : Nat)
    (inner between outer : List Nat) : (b.cut node tag block inner between outer).Bears A := by
  have hw : (Construction.wrapAll block ⟨b, block, none, []⟩ 1 between).state.Bears A :=
    wrapAll block 1 h
  unfold Construction.cut
  dsimp only
  generalize Construction.wrapAll block ⟨b, block, none, []⟩ 1 between = w at hw
  have hdetached : ({ w.state with draft := w.state.draft.detach w.last } : Construction).Bears A :=
    ⟨hw.draft.detach _, hw.formatting⟩
  have hput := hdetached.putAt (Construction.place { w.state with
    draft := w.state.draft.detach w.last } (outer.headD 0)) w.last
  generalize Construction.putAt { w.state with draft := w.state.draft.detach w.last } _ w.last =
    state at hput
  have hnew := hput.create ⟨.html, tag.name⟩ ht
  refine ⟨Draft.Bears.append (hnew.draft.moveChildren _ _) _ _, ?_⟩
  dsimp only
  split
  · exact replaceEntry hnew.formatting _ _ ht
  · exact (insertEntryAfter _ _ ht hnew.formatting).sub fun _ he => List.mem_of_mem_filter he

theorem adoptOnce (h : b.Bears A) (subject : String) : (b.adoptOnce subject).1.Bears A := by
  unfold Construction.adoptOnce
  split
  · exact h.closeGeneric subject
  next node tag hfound =>
    have ht := h.liveFormatting _ (List.mem_of_find?_eq_some hfound)
    split
    · exact h.dropFormatting node
    · split
      · exact h
      · dsimp only
        split
        · exact (h.dropFormatting node).of_eq rfl rfl
        · exact h.cut ht _ _ _ _ _

theorem adoptRounds (subject : String) : ∀ (n : Nat) {b : Construction}, b.Bears A →
    (Construction.adoptRounds subject n b).Bears A
  | 0, _, h => h
  | n + 1, b, h => by
    unfold Construction.adoptRounds
    have honce := h.adoptOnce subject
    dsimp only
    split
    · exact adoptRounds subject n honce
    · exact honce

theorem adopt (h : b.Bears A) (subject : String) : (b.adopt subject).Bears A := by
  unfold Construction.adopt
  dsimp only
  split
  · exact h.of_eq rfl rfl
  · exact adoptRounds subject 8 h

theorem endLink (h : b.Bears A) : b.endLink.Bears A := by
  unfold Construction.endLink
  split
  · exact h
  · exact ((h.adopt "a").dropFormatting _).of_eq rfl rfl

/-! ## Ordinary content -/

theorem insertForeign (h : b.Bears A) (hA : Lexical A) (vocabulary : Vocabulary)
    (ht : A tag.attributes) : (b.insertForeign vocabulary tag).Bears A := by
  have hforeign := hA.foreign vocabulary ht
  unfold Construction.insertForeign
  dsimp only
  split
  · exact h.insertClosed _ hforeign
  · exact h.insert _ hforeign

theorem foreignStart (h : b.Bears A) (hA : Lexical A) (ht : A tag.attributes) :
    (b.foreignStart tag).Bears A := by
  unfold Construction.foreignStart
  split
  · exact h.insertForeign hA _ ht
  · exact h.insertForeign hA _ ht

theorem openCommon (h : b.Bears A) (ht : A tag.attributes) : (b.openCommon tag).Bears A := by
  unfold Construction.openCommon
  refine ite (h.insertTextual ht _) (ite (h.insertTextual ht _) (ite (h.insertTextual ht _) ?_))
  exact ite ((h.insertTag ht).markFormatting.of_eq rfl rfl) (h.insertVoid ht)

theorem closeTemplate (h : b.Bears A) : b.closeTemplate.Bears A := by
  have hclosed := (h.closeImplied thoroughlyImpliedTags).closeInnermost "template"
  exact ite (hclosed.clearFormatting.of_eq rfl rfl) h

theorem openItem (h : b.Bears A) (items : List String) (ht : A tag.attributes) :
    (b.openItem items tag).Bears A := by
  unfold Construction.openItem
  refine (endParagraph ?_).insertTag ht
  split
  · exact ite ((h.closeImpliedExcept _).closeInnermost _) h
  · exact h

theorem openForm (h : b.Bears A) (ht : A tag.attributes) : (b.openForm tag).Bears A :=
  ite h ((h.endParagraph.insertTag ht).of_eq rfl rfl)

theorem openSelect (h : b.Bears A) (ht : A tag.attributes) : (b.openSelect tag).Bears A :=
  (h.reopen.insertTag ht).of_eq rfl rfl

theorem openButton (h : b.Bears A) (ht : A tag.attributes) : (b.openButton tag).Bears A :=
  (ite ((h.closeImplied _).closeInnermost _) h).reopen.insertTag ht

theorem openInBody (h : b.Bears A) (hA : Lexical A) (ht : A tag.attributes) :
    (b.openInBody tag).Bears A := by
  have hp := h.endParagraph
  have hr := h.reopen
  have himage : A ({ tag with name := "img" } : Tag).attributes := ht
  unfold Construction.openInBody
  dsimp only
  refine ite (h.openCommon ht) (ite h (ite (hp.insertTag ht) ?_))
  -- headings, texts, forms and items
  refine ite ((ite hp.pop hp).insertTag ht) (ite ((hp.insertTag ht).of_eq rfl rfl) ?_)
  refine ite (h.openForm ht) (ite (h.openItem _ ht) (ite (h.openItem _ ht) ?_))
  refine ite ((hp.insertTag ht).of_eq rfl rfl) (ite (h.openButton ht) ?_)
  -- formatting
  refine ite (h.endLink.reopen.insertFormatting ht) ?_
  refine ite ((ite (hr.adopt _).reopen hr).insertFormatting ht) (ite (hr.insertFormatting ht) ?_)
  refine ite (hr.insertTag ht).markFormatting (ite ((hp.insertTag ht).of_eq rfl rfl) ?_)
  -- elements without content, or with text only
  refine ite (hr.insertVoid ht) (ite (hr.insertVoid himage) ?_)
  refine ite (h.insertVoid ht) (ite (hp.insertVoid ht) ?_)
  refine ite ((h.insertTextual ht (.escapable tag.name)).of_eq rfl rfl) ?_
  refine ite (hp.reopen.insertTextual ht _) (ite (h.insertTextual ht _) (ite (h.openSelect ht) ?_))
  -- options, annotations and foreign elements
  refine ite ((ite h.pop h).reopen.insertTag ht) ?_
  refine ite ((ite (h.closeImplied _) h).insertTag ht) ?_
  refine ite ((ite (h.closeImpliedExcept _) h).insertTag ht) ?_
  refine ite (hr.insertForeign hA _ ht) (ite (hr.insertForeign hA _ ht) ?_)
  exact ite h (hr.insertTag ht)

theorem closeForm (h : b.Bears A) : b.closeForm.Bears A := by
  unfold Construction.closeForm
  split
  · exact ite ((h.closeImplied _).closeInnermost _) h
  · split
    · exact h
    · exact ite (h.of_eq rfl rfl) (h.of_eq rfl rfl)

theorem closeHeading (h : b.Bears A) : b.closeHeading.Bears A :=
  ite ((h.closeImplied _).popThrough _) h

theorem closeInBody (h : b.Bears A) (hA : Lexical A) (name : String) :
    (b.closeInBody name).Bears A := by
  have himplied := (h.closeImplied impliedTags).closeInnermost name
  have hitem := ((h.closeImpliedExcept name).closeInnermost name)
  unfold Construction.closeInBody
  refine ite h.closeTemplate (ite h (ite (ite himplied h) (ite h.closeForm ?_)))
  refine ite (ite h (h.insertImplied hA _)).closeParagraph (ite (ite hitem h) (ite (ite hitem h) ?_))
  refine ite h.closeHeading (ite (h.adopt name) (ite (ite himplied.clearFormatting h) ?_))
  exact ite (h.reopen.insertVoid hA.none) (h.closeGeneric name)

theorem inBody (h : b.Bears A) (hA : Lexical A) {t : Token} (ht : t.Bears A) :
    (b.inBody t).Bears A := by
  cases t with
  | char c => exact ite h (h.reopen.insertChar c)
  | comment s => exact h.insertComment s
  | opening tag => exact h.openInBody hA (ht tag rfl)
  | closing name => exact h.closeInBody hA name
  | omitted => exact h
  | finish => exact h

theorem fosterInBody (h : b.Bears A) (hA : Lexical A) {t : Token} (ht : t.Bears A) :
    (b.fosterInBody t).Bears A := by
  have hfostering : ({ b with fostering := true } : Construction).Bears A := h.of_eq rfl rfl
  exact (hfostering.inBody hA ht).of_eq rfl rfl

end Bears

end Construction

end DataBinding.Markup
