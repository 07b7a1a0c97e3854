/-
  What rendering to an element changes.

  Rendering replaces what is below the element, by a text or by nodes of markup, or
  leaves it as it is (`Facet.forest?`).  A document is `Reworked` below an element if
  other outlines are there, and everything outside is as it was.

  * `render_reworked`: rendering to an element succeeds, and what is below it then
    stands for what was rendered;
  * `Reworked.trans`: so does one rendering after the other.
-/
import DataBinding.View.Stage
import DataBinding.Proofs.Document.Graft
import DataBinding.Proofs.Document.Leaves

namespace DataBinding

variable {L : Type}

/-- What is below an element once a value has been rendered to it, if that replaces
    what was there. -/
def Facet.forest? (facet : Facet) (v : Value) : Option (List Markup) :=
  match facet with
  | .text => some (Markup.ofText (facet.shown v))
  | .html => some (Markup.parseFragment (facet.shown v))
  | .model | .attribute _ => none

namespace Document

open Outline (preorderAll mem_preorder mem_preorderAll)

variable {d d' d'' : Document L} {n : NodeId} {os os' os'' : List Outline}
  {c c' : Option (List Markup)}

/-! ## Elements and what is below them -/

/-- An element is there, with some outlines below it. -/
structure Bears (d : Document L) (n : NodeId) (os : List Outline) : Prop where
  joined : d.Joined
  leafy : d.Leafy
  here : ∃ parent e listeners,
    d.node? n = some ⟨parent, os.map Outline.id, .element e, listeners⟩
  reads : ∀ o ∈ os, d.Reads o

namespace Bears

theorem live (h : d.Bears n os) : d.Live n := by
  obtain ⟨parent, e, listeners, hn⟩ := h.here
  exact .of_eq hn

theorem children_eq (h : d.Bears n os) : d.children n = os.map Outline.id := by
  obtain ⟨parent, e, listeners, hn⟩ := h.here
  exact Document.children_eq hn

/-- The element is not below itself. -/
theorem not_mem (h : d.Bears n os) : n ∉ preorderAll os := by
  obtain ⟨parent, e, listeners, hn⟩ := h.here
  exact (Reads.node hn h.reads).not_mem_children

theorem mem_of_under (h : d.Bears n os) {x : NodeId} (hx : d.Under n x) : x ∈ preorderAll os :=
  Reads.mem_of_under h.reads h.children_eq hx

theorem not_under (h : d.Bears n os) : ¬ d.Under n n := fun hn => h.not_mem (h.mem_of_under hn)

theorem nodup (h : d.Bears n os) : (preorderAll os).Nodup := by
  obtain ⟨parent, e, listeners, hn⟩ := h.here
  have hnodup := (Reads.node hn h.reads).nodup_preorder h.joined.linked
  rw [Outline.preorder] at hnodup
  exact (List.nodup_cons.1 hnodup).2

end Bears

/-- A document in which other outlines are below an element, and everything outside
    is as it was; what has been put there, if anything, stands for `c`. -/
structure Reworked (d d' : Document L) (n : NodeId) (os os' : List Outline)
    (c : Option (List Markup)) : Prop where
  bears : d'.Bears n os'
  /-- Other nodes are as they were. -/
  elsewhere : ∀ x, d.Live x → x ≠ n → x ∉ preorderAll os → d'.node? x = d.node? x
  /-- The outlines are of nodes that were there, or of new ones. -/
  inside : ∀ x ∈ preorderAll os', x ∈ preorderAll os ∨ ¬ d.Live x
  /-- They are the same, or stand for what has been put there. -/
  content : c.elim (os' = os) fun forest => Outline.StandAll os' forest

namespace Reworked

theorem refl (h : d.Bears n os) : Reworked d d n os os none :=
  ⟨h, fun _ _ _ _ => rfl, fun _ => .inl, rfl⟩

theorem trans (h : Reworked d d' n os os' c) (h' : Reworked d' d'' n os' os'' c') :
    Reworked d d'' n os os'' (c'.or c) where
  bears := h'.bears
  elsewhere x hlive hn hx := by
    have hsame := h.elsewhere x hlive hn hx
    have hlive' : d'.Live x := by rwa [Live, hsame]
    have hx' : x ∉ preorderAll os' := fun hmem =>
      (h.inside x hmem).elim hx fun hnot => hnot hlive
    rw [h'.elsewhere x hlive' hn hx', hsame]
  inside x hx := by
    by_contra hout
    rw [not_or, not_not] at hout
    obtain ⟨hx', hlive⟩ := hout
    rcases h'.inside x hx with hmem | hnot
    · exact (h.inside x hmem).elim hx' fun hnot => hnot hlive
    · have hn : x ≠ n := fun heq => hnot (heq ▸ h.bears.live)
      exact hnot (by rwa [Live, h.elsewhere x hlive hn hx'])
  content := by
    have hcontent := h'.content
    cases c' with
    | some forest => exact hcontent
    | none =>
      rw [Option.none_or]
      rw [Option.elim_none] at hcontent
      rw [hcontent]
      exact h.content

end Reworked

/-- The element changed in its place. -/
theorem Bears.altered (h : d.Bears n os) (hleafy : d'.Leafy) {parent : Option NodeId}
    {e : Element} {listeners : List (String × L)}
    (ha : Altered d d' n ⟨parent, os.map Outline.id, .element e, listeners⟩) :
    Reworked d d' n os os none where
  bears := by
    refine ⟨ha.joined, hleafy, ⟨parent, e, listeners, ha.here⟩, fun o ho => ?_⟩
    refine (h.reads o ho).congr fun x hx => ha.elsewhere x ?_
    rintro rfl
    exact h.not_mem (mem_preorderAll.2 ⟨o, ho, hx⟩)
  elsewhere x _ hn _ := ha.elsewhere x hn
  inside _ := .inl
  content := rfl

theorem updateElement_reworked (h : d.Bears n os) (operation : NodeOperation)
    (f : Element → Element) :
    ∃ d', d.updateElement n operation f = (.ok (), d') ∧ Reworked d d' n os os none := by
  obtain ⟨parent, e, listeners, hn⟩ := h.here
  obtain ⟨d', hd', ha⟩ := updateElement_altered h.joined hn operation f
  refine ⟨d', hd', h.altered ?_ ha⟩
  have := h.leafy.updateElement h.joined n operation f
  rwa [hd'] at this

theorem addListener_reworked (h : d.Bears n os) (eventType : String) (listener : L) :
    ∃ d', d.addListener n eventType listener = (.ok (), d') ∧ Reworked d d' n os os none := by
  obtain ⟨parent, e, listeners, hn⟩ := h.here
  obtain ⟨d', hd', ha⟩ := addListener_altered h.joined hn eventType listener
  refine ⟨d', hd', h.altered ?_ ha⟩
  have := h.leafy.addListener h.joined n eventType listener
  rwa [hd'] at this

/-- The empty text leaves nothing below an element. -/
theorem setText_empty {parent : Option NodeId} {children : List NodeId} {e : Element}
    {listeners : List (String × L)}
    (hn : d.node? n = some ⟨parent, children, .element e, listeners⟩) :
    d.setText n "" = (.ok (), d.clearChildren n) := by
  rw [setText, hn]
  dsimp only
  split <;> rfl

/-- A text in the place of what is below the element. -/
theorem setText_reworked (h : d.Bears n os) (s : String) :
    ∃ d' os', d.setText n s = (.ok (), d') ∧ Reworked d d' n os os' (some (Markup.ofText s)) := by
  obtain ⟨parent, e, listeners, hn⟩ := h.here
  obtain ⟨d', hd', hjoined, ⟨children, hhere, honly, hwas⟩, helse⟩ := setText_element h.joined hn
    h.not_under (fun c _ m hm => h.leafy c m hm) s
  have hleafy := h.leafy.setText h.joined n s
  rw [hd'] at hleafy
  have hout : ∀ x, x ∉ preorderAll os → ¬ d.Under n x := fun x hx hu => hx (h.mem_of_under hu)
  rcases honly with ⟨rfl, rfl⟩ | ⟨c, rfl, hc⟩
  · refine ⟨d', [], hd', ⟨hjoined, hleafy, ⟨parent, e, listeners, hhere⟩, ?_⟩, ?_, ?_, trivial⟩
    · exact fun o ho => absurd ho List.not_mem_nil
    · exact fun x hlive hxn hx => helse x hlive hxn (hout x hx)
    · exact fun x hx => absurd hx List.not_mem_nil
  · have hs : s ≠ "" := by
      rintro rfl
      rw [setText_empty hn] at hd'
      obtain rfl : d.clearChildren n = d' := congrArg Prod.snd hd'
      have hcleared := (h.joined.clearChildren hn h.not_under).2.1
      rw [hhere, Option.some.injEq, Node.mk.injEq] at hcleared
      exact List.cons_ne_nil _ _ hcleared.2.1
    have hforest : Markup.ofText s = [.text s] := if_neg (by rwa [String.isEmpty_iff])
    refine ⟨d', [.node c (some (.text s)) []], hd',
      ⟨hjoined, hleafy, ⟨parent, e, listeners, hhere⟩, ?_⟩, ?_, ?_, ?_⟩
    · exact List.forall_mem_singleton.2 (.node hc fun o ho => absurd ho List.not_mem_nil)
    · exact fun x hlive hxn hx => helse x hlive hxn (hout x hx)
    · intro x hx
      obtain rfl : x = c := by simpa [preorderAll, Outline.preorder] using hx
      by_cases hlive : d.Live x
      · exact .inl (h.mem_of_under (hwas x (List.mem_singleton_self x) hlive))
      · exact .inr hlive
    · rw [Option.elim_some, hforest]
      exact ⟨⟨rfl, rfl⟩, trivial⟩

/-- Nodes of markup in the place of what is below the element. -/
theorem setInner_reworked (h : d.Bears n os) (forest : List Markup) :
    ∃ d' os', d.setInner n forest = (.ok (), d') ∧ Reworked d d' n os os' (some forest) := by
  obtain ⟨parent, e, listeners, hn⟩ := h.here
  obtain ⟨hjoined, hhere, hdead, -, helse⟩ := h.joined.clearChildren hn h.not_under
  obtain ⟨d', os', hd', hg, hstand⟩ := insertForest_grafted forest hjoined hhere rfl
  have hset : d.setInner n forest = (.ok (), d') := by
    rw [setInner, hn]
    exact hd'
  have hleafy := h.leafy.setInner h.joined n forest
  rw [hset] at hleafy
  have hsame : ∀ x, x ≠ n → x ∉ preorderAll os → (d.clearChildren n).node? x = d.node? x :=
    fun x hxn hx => helse x hxn fun hu => hx (h.mem_of_under hu)
  refine ⟨d', os', hset, ⟨hg.joined, hleafy, ⟨parent, e, listeners, hg.here⟩, ?_⟩, ?_, ?_, hstand⟩
  · exact fun o ho => (hg.fresh o ho).reads
  · intro x hlive hxn hx
    have hlive' : (d.clearChildren n).Live x := by rwa [Live, hsame x hxn hx]
    rw [hg.elsewhere x hlive' hxn, hsame x hxn hx]
  · intro x hx
    by_contra hout
    rw [not_or, not_not] at hout
    have hnew := hg.new x hx
    have hxn : x ≠ n := by
      rintro rfl
      exact hnew (.of_eq hhere)
    exact hnew (by rw [Live, hsame x hxn hout.1]; exact hout.2)

/-- **Rendering to an element** succeeds, and what is below it then stands for what
    was rendered. -/
theorem render_reworked (h : d.Bears n os) (facet : Facet) (v : Value) :
    ∃ d' os', d.render n facet v = (.ok (), d') ∧ Reworked d d' n os os' (facet.forest? v) := by
  cases facet with
  | text => exact setText_reworked h _
  | html => exact setInner_reworked h _
  | model =>
    obtain ⟨d', hd', hr⟩ := updateElement_reworked h .setValue _
    exact ⟨d', os, hd', hr⟩
  | «attribute» name =>
    obtain ⟨d', hd', hr⟩ := updateElement_reworked h .setAttribute _
    exact ⟨d', os, hd', hr⟩

/-- The text of a node that may have children is the one that is below it. -/
theorem textContent_of_outline? {content : NodeContent} {s : String}
    (ho : d.outline? n = some (.node n (some content) os)) (hholds : content.holdsChildren = true)
    (hos : Outline.TextOnly os s) : d.textContent n = s := by
  have hchars : Markup.allTextChars (Outline.markupAll os) = s.toList := by
    rcases hos with ⟨rfl, rfl⟩ | ⟨c, rfl⟩ <;>
      simp [Outline.markup, Outline.markupAll, Markup.allTextChars, Markup.textChars]
  rw [textContent, markup, ho, Option.elim_some]
  cases content with
  | document => rw [Outline.markup, hchars, String.ofList_toList]
  | element e =>
    rw [Outline.markup, Markup.allTextChars, Markup.textChars, Markup.allTextChars, List.append_nil,
      hchars, String.ofList_toList]
  | text t | comment t => cases hholds

theorem Reads.textContent_eq {e : Element} {s : String}
    (h : d.Reads (.node n (some (.element e)) os)) (hos : Outline.TextOnly os s) :
    d.textContent n = s := by
  have hsize : 1 ≤ d.slots.size := Nat.zero_lt_of_lt (index_lt h.live)
  have hheight : Outline.height (.node n (some (.element e)) os) ≤ d.slots.size + 1 := by
    rcases hos with ⟨-, rfl⟩ | ⟨c, rfl⟩
    · simp [Outline.height, Outline.heightAll]
    · simpa [Outline.height, Outline.heightAll] using hsize
  have houtline : d.outline? n = some (.node n (some (.element e)) os) :=
    h.outlineWithin?_eq hheight
  exact textContent_of_outline? houtline rfl hos

/-! ## Outlines renewed -/

/-- A document in which some outlines are. -/
structure Laid (d : Document L) (os : List Outline) : Prop where
  joined : d.Joined
  leafy : d.Leafy
  reads : ∀ o ∈ os, d.Reads o

/-- A document in which other outlines, of the same nodes, are in the place of some,
    and everything outside is as it was. -/
structure Renewed (d d' : Document L) (os os' : List Outline) : Prop extends Laid d' os' where
  /-- The same nodes are at the top. -/
  ids : os'.map Outline.id = os.map Outline.id
  /-- Other nodes are as they were. -/
  elsewhere : ∀ x, d.Live x → x ∉ preorderAll os → d'.node? x = d.node? x
  /-- The outlines are of nodes that were there, or of new ones. -/
  inside : ∀ x ∈ preorderAll os', x ∈ preorderAll os ∨ ¬ d.Live x

/-- An element that the document reads as something bears what is below it. -/
theorem Bears.of_reads {o : Outline} (hjoined : d.Joined) (hleafy : d.Leafy) (h : d.Reads o)
    (hkind : d.kind? o.id = some .element) : ∃ os, d.Bears o.id os := by
  obtain @⟨n, parent, content, os, listeners, hnode, hchildren⟩ := h
  rw [Outline.id, kind?, hnode, Option.map_some, Option.some.injEq] at hkind
  cases content with
  | element e => exact ⟨os, hjoined, hleafy, ⟨parent, e, listeners, hnode⟩, hchildren⟩
  | _ => cases hkind

theorem Bears.laid (h : d.Bears n os) : d.Laid os := ⟨h.joined, h.leafy, h.reads⟩

namespace Laid

variable {o : Outline}

/-- An element that is laid bears what is below it. -/
theorem bears {e : Element} (h : d.Laid (.node n (some (.element e)) os' :: os)) :
    d.Bears n os' := by
  obtain @⟨_, parent, _, _, listeners, hnode, hchildren⟩ := h.reads _ List.mem_cons_self
  exact ⟨h.joined, h.leafy, ⟨parent, e, listeners, hnode⟩, hchildren⟩

/-- There is nothing below a text. -/
theorem leaf {content : NodeContent} (h : d.Laid (.node n (some content) os' :: os))
    (hcontent : content.holdsChildren = false) : os' = [] := by
  obtain @⟨_, parent, _, _, listeners, hnode, -⟩ := h.reads _ List.mem_cons_self
  exact List.map_eq_nil_iff.1 (h.leafy n _ hnode hcontent).1

theorem refl (h : d.Laid os) : Renewed d d os os :=
  ⟨h, rfl, fun _ _ _ => rfl, fun _ => .inl⟩

theorem live (h : d.Laid os) {x : NodeId} (hx : x ∈ preorderAll os) : d.Live x := by
  obtain ⟨o, ho, hxo⟩ := mem_preorderAll.1 hx
  exact (h.reads o ho).live_of_mem hxo

/-- The first outline by itself. -/
theorem head (h : d.Laid (o :: os)) : d.Laid [o] :=
  ⟨h.joined, h.leafy, List.forall_mem_singleton.2 (h.reads o List.mem_cons_self)⟩

/-- The outlines that follow are still there. -/
theorem rest (h : d.Laid (o :: os)) (hnodup : (preorderAll (o :: os)).Nodup)
    (h' : Renewed d d' [o] os') : d'.Laid os := by
  refine ⟨h'.joined, h'.leafy, fun o' ho' => ?_⟩
  refine (h.reads o' (List.mem_cons_of_mem _ ho')).congr fun x hx => ?_
  have hrest : x ∈ preorderAll os := mem_preorderAll.2 ⟨o', ho', hx⟩
  refine h'.elsewhere x (h.live ?_) ?_
  · exact List.mem_append_right _ hrest
  · rw [Outline.preorderAll_singleton]
    rw [preorderAll, List.nodup_append'] at hnodup
    exact fun hxo => hnodup.2.2 hxo hrest

end Laid

namespace Renewed

variable {o o' : Outline} {d₁ d₂ : Document L} {os₁ os₂ : List Outline}

/-- One outline becomes one. -/
theorem single (h : Renewed d d' [o] os') : ∃ o', os' = [o'] := by
  have hlength := congrArg List.length h.ids
  rw [List.length_map, List.length_map, List.length_singleton] at hlength
  exact List.length_eq_one_iff.1 hlength

/-- One outline is renewed, and then those that follow. -/
theorem cons (hd : d.Laid (o :: os)) (hnodup : (preorderAll (o :: os)).Nodup)
    (h : Renewed d d₁ [o] [o']) (h' : Renewed d₁ d₂ os os') :
    Renewed d d₂ (o :: os) (o' :: os') := by
  have hone : ∀ {x o}, x ∈ preorderAll [o] ↔ x ∈ o.preorder := fun {x o} => by
    rw [Outline.preorderAll_singleton]
  have hlive : ∀ x, d.Live x → x ∉ o.preorder → d₁.Live x := fun x hx hxo => by
    rwa [Live, h.elsewhere x hx (mt hone.1 hxo)]
  refine ⟨⟨h'.joined, h'.leafy, List.forall_mem_cons.2 ⟨?_, h'.reads⟩⟩, ?_, ?_, ?_⟩
  · have ho' := h.reads o' List.mem_cons_self
    refine ho'.congr fun x hx => h'.elsewhere x (ho'.live_of_mem hx) fun hxos => ?_
    have hxlive : d.Live x := hd.live (List.mem_append_right _ hxos)
    rcases h.inside x (hone.2 hx) with hxo | hnot
    · rw [preorderAll, List.nodup_append'] at hnodup
      exact hnodup.2.2 (hone.1 hxo) hxos
    · exact hnot hxlive
  · have hid := h.ids
    rw [List.map_singleton, List.map_singleton, List.singleton_inj] at hid
    rw [List.map_cons, List.map_cons, hid, h'.ids]
  · intro x hx hout
    rw [preorderAll, List.mem_append, not_or] at hout
    rw [h'.elsewhere x (hlive x hx hout.1) hout.2, h.elsewhere x hx (mt hone.1 hout.1)]
  · intro x hx
    rw [preorderAll, List.mem_append] at hx ⊢
    by_cases hxo : x ∈ o.preorder
    · exact .inl (.inl hxo)
    rcases hx with hx | hx
    · exact (h.inside x (hone.2 hx)).imp_left fun hmem => .inl (hone.1 hmem)
    · rcases h'.inside x hx with hmem | hnot
      · exact .inl (.inr hmem)
      · exact .inr fun hxlive => hnot (hlive x hxlive hxo)

/-- What is below a node has been put there, and is renewed then. -/
theorem node {parent : Option NodeId} {content : Option NodeContent} {content' : NodeContent}
    {listeners : List (String × L)}
    (hn : d₁.node? n = some ⟨parent, os₁.map Outline.id, content', listeners⟩)
    (hnot : n ∉ preorderAll os₁)
    (helse : ∀ x, d.Live x → x ≠ n → x ∉ preorderAll os → d₁.node? x = d.node? x)
    (hinside : ∀ x ∈ preorderAll os₁, x ∈ preorderAll os ∨ ¬ d.Live x)
    (h : Renewed d₁ d₂ os₁ os₂) :
    Renewed d d₂ [.node n content os] [.node n (some content') os₂] := by
  have hn₂ : d₂.node? n = some ⟨parent, os₂.map Outline.id, content', listeners⟩ := by
    rw [h.elsewhere n (.of_eq hn) hnot, hn, h.ids]
  have hone : ∀ {x content os}, x ∈ preorderAll [.node n content os] ↔
      x = n ∨ x ∈ preorderAll os := fun {x content os} => by
    rw [Outline.preorderAll_singleton, Outline.preorder, List.mem_cons]
  refine ⟨⟨h.joined, h.leafy, List.forall_mem_singleton.2 (.node hn₂ h.reads)⟩, rfl, ?_, ?_⟩
  · intro x hx hout
    rw [hone, not_or] at hout
    have hsame := helse x hx hout.1 hout.2
    have hx₁ : x ∉ preorderAll os₁ := fun hmem => (hinside x hmem).elim hout.2 fun hnot => hnot hx
    rw [h.elsewhere x (by rwa [Live, hsame]) hx₁, hsame]
  · intro x hx
    rw [hone] at hx ⊢
    by_contra hout
    rw [not_or, not_or, not_not] at hout
    obtain ⟨⟨hxn, hxos⟩, hlive⟩ := hout
    rcases h.inside x (hx.resolve_left hxn) with hmem | hnot
    · exact (hinside x hmem).elim hxos fun hnot => hnot hlive
    · exact hnot (by rwa [Live, helse x hlive hxn hxos])

/-- What is below an element is reworked, and then renewed. -/
theorem element {e : Element} (h : Reworked d d₁ n os os₁ c) (h' : Renewed d₁ d₂ os₁ os₂) :
    ∃ e', Renewed d d₂ [.node n (some (.element e)) os] [.node n (some (.element e')) os₂] := by
  obtain ⟨parent, e', listeners, hn⟩ := h.bears.here
  exact ⟨e', .node hn h.bears.not_mem h.elsewhere h.inside h'⟩

/-- A text is rewritten. -/
theorem text {s : String} {children : List Outline}
    (h : d.Laid (.node n (some (.text s)) children :: os)) (t : String) :
    ∃ d', d.setText n t = (.ok (), d') ∧
      Renewed d d' [.node n (some (.text s)) children] [.node n (some (.text t)) children] := by
  obtain @⟨_, parent, _, _, listeners, hn, hchildren⟩ := h.reads _ List.mem_cons_self
  obtain ⟨d', hd', ha⟩ := setText_altered h.joined hn t
  have hleafy := h.leafy.setText h.joined n t
  rw [hd'] at hleafy
  have hnot := Reads.not_mem_children (.node hn hchildren)
  refine ⟨d', hd', ⟨ha.joined, hleafy, List.forall_mem_singleton.2 (.node ha.here fun o ho => ?_)⟩,
    rfl, fun x _ hx => ha.elsewhere x ?_, fun x hx => .inl hx⟩
  · refine (hchildren o ho).congr fun x hx => ha.elsewhere x ?_
    rintro rfl
    exact hnot (mem_preorderAll.2 ⟨o, ho, hx⟩)
  · rintro rfl
    exact hx (mem_preorderAll.2 ⟨_, List.mem_cons_self, mem_preorder.2 (.inl rfl)⟩)

end Renewed

end Document

end DataBinding
