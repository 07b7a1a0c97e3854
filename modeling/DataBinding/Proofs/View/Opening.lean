/-
  Binding one element.

  While the attributes of an element are bound one after the other, some of its
  bindings are made, and the nodes below it are still to be bound, unless its
  text has replaced them (`Opened`).

  * `Fitted.open`: an element that is to be bound can be opened;
  * `Opened.text`, `Opened.model`, `Opened.named`: a directive makes its binding;
  * `Opened.erase`: the directive attribute is dropped;
  * `Fitted.interpolate`: a piece of text is bound at once.
-/
import DataBinding.Proofs.View.Fitting

namespace DataBinding

open Document (Altered Retexted)
open Outline (preorderAll)

/-- Whether the text of a node is bound. -/
def Binding.textual (own : List Binding) : Bool :=
  own.any fun b => b.facet.isText

theorem Binding.textual_eq_false {own : List Binding} :
    textual own = false ↔ ∀ b ∈ own, b.facet ≠ .text := by
  rw [textual, List.any_eq_false]
  refine forall₂_congr fun b _ => not_congr ?_
  cases b.facet <;> simp [Facet.isText]

/-- What is to be bound below an element with some bindings made. -/
def Outline.unbound (own : List Binding) (children : List Outline) : List Outline :=
  if Binding.textual own then [] else children

/-- A document in which some bindings `own` of an element are made. -/
structure Opened (d : Document Listener) (root : MappingId) (bs own : List Binding) (n : NodeId)
    (children os : List Outline) : Prop where
  /-- All bindings are in order. -/
  fitted : Fitted d root (bs ++ own) (Outline.unbound own children ++ os)
  /-- They are at the element. -/
  here : ∀ b ∈ own, b.node = n
  /-- The earlier ones are elsewhere. -/
  others : ∀ b ∈ bs, b.node ≠ n
  /-- The element is not below itself, nor to be bound again. -/
  pending : n ∉ preorderAll (children ++ os)
  /-- It is not the text of another element. -/
  inner : ∀ b ∈ bs, b.facet.isText = true → n ∉ d.children b.node
  /-- It is as it was, as far as it is not bound. -/
  element : ∃ parent kids e listeners, d.node? n = some ⟨parent, kids, .element e, listeners⟩ ∧
    (Binding.textual own = false → kids = children.map Outline.id) ∧
    ((∀ b ∈ own, b.facet ≠ .model) → listeners = [])

variable {d d' : Document Listener} {root : MappingId} {bs own : List Binding} {n : NodeId}
  {children os : List Outline}

/-- An element that is to be bound can be opened. -/
theorem Fitted.open {e : Element}
    (h : Fitted d root bs (.node n (some (.element e)) children :: os)) :
    Opened d root bs [] n children os := by
  obtain ⟨hnode, -, hchildren⟩ := h.fresh _ List.mem_cons_self
  have hcons : preorderAll (.node n (some (.element e)) children :: os) =
      n :: preorderAll (children ++ os) := by
    rw [preorderAll, Outline.preorder, Outline.preorderAll_append, List.cons_append]
  have hmem : n ∈ preorderAll (.node n (some (.element e)) children :: os) :=
    hcons ▸ List.mem_cons_self
  refine ⟨?_, fun _ hb => absurd hb List.not_mem_nil, fun b hb hbn => h.bound b hb (hbn ▸ hmem), ?_, fun b hb htext hc =>
    (h.secluded b hb htext n hc).1 hmem, ⟨_, _, e, [], hnode, fun _ => rfl, fun _ => rfl⟩⟩
  · rw [List.append_nil]
    refine h.fewer ?_ (hcons ▸ List.sublist_cons_self _ _)
    rw [Outline.unbound, if_neg (by decide)]
    exact List.forall_mem_append.2 ⟨hchildren, fun o ho => h.fresh o (List.mem_cons_of_mem _ ho)⟩
  · have := h.nodup
    rw [hcons] at this
    exact (List.nodup_cons.1 this).1

namespace Opened

theorem aside (h : Opened d root bs own n children os) :
    Fitted.Aside d (bs ++ own) (Outline.unbound own children ++ os) n where
  pending hm := by
    rw [Outline.preorderAll_append, List.mem_append] at hm
    refine h.pending ?_
    rw [Outline.preorderAll_append, List.mem_append]
    refine hm.imp_left fun hm => ?_
    unfold Outline.unbound at hm
    split at hm
    · cases hm
    · exact hm
  inner b hb htext hne :=
    h.inner b ((List.mem_append.1 hb).resolve_right fun hb => hne (h.here b hb)) htext

variable {e e' : Element} {parent : Option NodeId} {kids : List NodeId}
  {listeners listeners' : List (String × Listener)}

/-- The element is changed in its place, and its bindings display what they
    did. -/
theorem changed (h : Opened d root bs own n children os)
    (hn : d.node? n = some ⟨parent, kids, .element e, listeners⟩)
    (ha : Altered d d' n ⟨parent, kids, .element e', listeners'⟩)
    (hlisteners : ∀ b ∈ own, b.facet = .model → listeners' = listeners)
    (hdisplays : ∀ b ∈ own, ∀ t, Displays d b t → Displays d' b t) :
    Fitted d' root (bs ++ own) (Outline.unbound own children ++ os) ∧
      (∀ b ∈ bs, b.facet.isText = true → n ∉ d'.children b.node) ∧
      ∀ b ∈ bs ++ own, ∀ t, Displays d b t → Displays d' b t := by
  have hall : ∀ b ∈ bs ++ own, ∀ t, Displays d b t → Displays d' b t := by
    intro b hb t ht
    rcases List.mem_append.1 hb with hbs | hown
    · exact Fitted.displays_frame h.aside (fun x hx _ => ha.elsewhere x hx) hb (h.others b hbs) ht
    · exact hdisplays b hown t ht
  refine ⟨h.fitted.altered hn ha h.aside (fun b hb hbn => ?_) fun b hb _ => ?_,
    fun b hb htext hc => ?_, hall⟩
  · exact hlisteners b ((List.mem_append.1 hb).resolve_left fun hb => h.others b hb hbn)
  · obtain ⟨t, ht⟩ := h.fitted.displays b hb
    exact ⟨t, hall b hb t ht⟩
  · refine h.inner b hb htext ?_
    rwa [Document.children, ha.elsewhere _ (h.others b hb)] at hc

/-- A directive attribute of the element is dropped. -/
theorem erase (h : Opened d root bs own n children os) (name : String)
    (hname : ∀ b ∈ own, b.facet ≠ .attribute name) :
    ∃ d', d.removeAttribute n name = (.ok (), d') ∧ Opened d' root bs own n children os ∧
      ∀ b ∈ bs ++ own, ∀ t, Displays d b t → Displays d' b t := by
  obtain ⟨parent, kids, e, listeners, hn, hkids, hlisteners⟩ := h.element
  obtain ⟨d', hd', ha⟩ := Document.updateElement_altered h.fitted.joined hn .removeAttribute
    fun e => { e with attributes := Keyed.erase e.attributes name }
  obtain ⟨hfitted, hinner, hall⟩ := h.changed hn ha (fun _ _ _ => rfl) fun b hb t ht =>
    h.fitted.displays_altered hn ha (List.mem_append_right _ hb) (h.here b hb) ht (fun _ => rfl)
      fun name' hname' => Keyed.get?_erase_other _ fun heq => hname b hb (heq ▸ hname')
  exact ⟨d', hd', ⟨hfitted, h.here, h.others, h.pending, hinner,
    ⟨_, _, _, _, ha.here, hkids, hlisteners⟩⟩, hall⟩

theorem textual_append (b : Binding) :
    Binding.textual (own ++ [b]) = (Binding.textual own || b.facet.isText) := by
  simp [Binding.textual]

/-- A binding is made by a change of the element in its place. -/
theorem make (h : Opened d root bs own n children os)
    (hn : d.node? n = some ⟨parent, kids, .element e, listeners⟩)
    (ha : Altered d d' n ⟨parent, kids, .element e', listeners'⟩)
    (hdisplays : ∀ b ∈ own, ∀ t, Displays d b t → Displays d' b t) {b : Binding} {t : String}
    (hb : b.node = n) (hfacet : b.facet.isText = false) (ht : Displays d' b t)
    (hlistens : Listens d' root b) (hlisteners : b.facet ≠ .model → listeners' = listeners)
    (hnew : ∀ b' ∈ own, b'.facet ≠ b.facet) :
    Opened d' root bs (own ++ [b]) n children os ∧
      ∀ b' ∈ bs ++ own, ∀ t, Displays d b' t → Displays d' b' t := by
  obtain ⟨parent', kids', e'', listeners'', hn', hkids, hlisteners'⟩ := h.element
  rw [hn, Option.some.injEq, Node.mk.injEq] at hn'
  obtain ⟨rfl, rfl, -, rfl⟩ := hn'
  obtain ⟨hfitted, hinner, hall⟩ := h.changed hn ha
    (fun b' hb' hmodel => hlisteners fun hm => hnew b' hb' (hmodel.trans hm.symm)) hdisplays
  have htextual : Binding.textual (own ++ [b]) = Binding.textual own := by
    rw [textual_append, hfacet, Bool.or_false]
  have haside : Fitted.Aside d' (bs ++ own) (Outline.unbound own children ++ os) n :=
    ⟨h.aside.pending, fun b' hb' htext hne =>
      hinner b' ((List.mem_append.1 hb').resolve_right fun hb' => hne (h.here b' hb')) htext⟩
  refine ⟨⟨?_, ?_, h.others, h.pending, hinner, ⟨_, _, _, _, ha.here, fun htext => ?_,
    fun hmodel => ?_⟩⟩, hall⟩
  · rw [← List.append_assoc, Outline.unbound, htextual]
    refine hfitted.add ht hlistens (fun b' hb' hbn => ?_) (hb ▸ haside) fun htext => ?_
    · refine hnew b' ((List.mem_append.1 hb').resolve_left fun hb' => ?_)
      exact h.others b' hb' (hbn.trans hb)
    · rw [hfacet] at htext
      cases htext
  · simp only [List.forall_mem_append, List.forall_mem_singleton]
    exact ⟨h.here, hb⟩
  · exact hkids (htextual ▸ htext)
  · simp only [List.forall_mem_append, List.forall_mem_singleton] at hmodel
    rw [hlisteners hmodel.2, hlisteners' hmodel.1]

/-- The binding for an attribute is made. -/
theorem named (h : Opened d root bs own n children os) {name : String} (source : String)
    (hnew : ∀ b ∈ own, b.facet ≠ .attribute name) (v : Value) :
    ∃ d', d.render n (.attribute name) v = (.ok (), d') ∧
      Opened d' root bs (own ++ [⟨n, .attribute name, source⟩]) n children os ∧
      Displays d' ⟨n, .attribute name, source⟩ ((Facet.attribute name).shown v) ∧
      ∀ b ∈ bs ++ own, ∀ t, Displays d b t → Displays d' b t := by
  obtain ⟨parent, kids, e, listeners, hn, -⟩ := h.element
  obtain ⟨d', hd', ha⟩ := Document.updateElement_altered h.fitted.joined hn .setAttribute
    fun e => { e with attributes := Keyed.put e.attributes name ((Facet.attribute name).shown v) }
  have hshows : Displays d' ⟨n, .attribute name, source⟩ ((Facet.attribute name).shown v) :=
    .named ha.here (Keyed.get?_put_self _ _ _)
  obtain ⟨h', hall⟩ := h.make hn ha (fun b hb t ht => h.fitted.displays_altered hn ha
    (List.mem_append_right _ hb) (h.here b hb) ht (fun _ => rfl) fun name' hname' =>
      Keyed.get?_put_other _ _ fun heq => hnew b hb (heq ▸ hname')) rfl rfl hshows nofun
    (fun _ => rfl) hnew
  exact ⟨d', hd', h', hshows, hall⟩

/-- The binding for the current value is made, and then input is listened for. -/
theorem model (h : Opened d root bs own n children os) (source : String)
    (hnew : ∀ b ∈ own, b.facet ≠ .model) (v : Value) :
    ∃ d₁, d.render n .model v = (.ok (), d₁) ∧
      (Displays d₁ ⟨n, .model, source⟩ (Facet.model.shown v) ∧
        ∀ b ∈ bs ++ own, ∀ t, Displays d b t → Displays d₁ b t) ∧
      ∃ d₂, d₁.addListener n "input" (.assign root source) = (.ok (), d₂) ∧
        Opened d₂ root bs (own ++ [⟨n, .model, source⟩]) n children os ∧
        ∀ b t, Displays d₁ b t → Displays d₂ b t := by
  obtain ⟨parent, kids, e, listeners, hn, -, hlisteners⟩ := h.element
  obtain rfl := hlisteners hnew
  obtain ⟨d₁, hd₁, ha₁⟩ := Document.updateElement_altered h.fitted.joined hn .setValue
    fun e => { e with value := some (Facet.model.shown v) }
  obtain ⟨d₂, hd₂, ha₂⟩ := Document.addListener_altered ha₁.joined ha₁.here "input"
    (.assign root source)
  have ha := ha₁.trans ha₂
  have hkeep : ∀ b t, Displays d₁ b t → Displays d₂ b t := fun b t ht => ht.listening ha₁.here ha₂
  have hown : ∀ b ∈ own, ∀ t, Displays d b t → Displays d₁ b t := fun b hb t ht =>
    h.fitted.displays_altered hn ha₁ (List.mem_append_right _ hb) (h.here b hb) ht
      (fun hmodel => absurd hmodel (hnew b hb)) fun _ _ => rfl
  obtain ⟨-, -, hall⟩ := h.changed hn ha₁ (fun _ _ _ => rfl) hown
  have hshows : Displays d₁ ⟨n, .model, source⟩ (Facet.model.shown v) := .model ha₁.here rfl
  obtain ⟨h', -⟩ := h.make hn ha (fun b hb t ht => hkeep b t (hown b hb t ht)) rfl rfl
    (hkeep _ _ hshows) (fun _ => ⟨_, ha.here, rfl⟩) (absurd rfl) hnew
  exact ⟨d₁, hd₁, ⟨hshows, hall⟩, d₂, hd₂, h', hkeep⟩

/-- While its text is not bound, all that is below the element is still to be bound. -/
theorem fitted_of_plain (h : Opened d root bs own n children os)
    (hnew : ∀ b ∈ own, b.facet ≠ .text) : Fitted d root (bs ++ own) (children ++ os) := by
  have hfitted := h.fitted
  rwa [Outline.unbound, if_neg (ne_true_of_eq_false (Binding.textual_eq_false.2 hnew))] at hfitted

theorem mem_of_under (h : Opened d root bs own n children os) (hnew : ∀ b ∈ own, b.facet ≠ .text)
    {x : NodeId} (hx : d.Under n x) : x ∈ preorderAll children := by
  obtain ⟨parent, kids, e, listeners, hn, hkids, -⟩ := h.element
  obtain rfl := hkids (Binding.textual_eq_false.2 hnew)
  refine Document.Reads.mem_of_under (fun o ho => ?_) (Document.children_eq hn) hx
  exact ((h.fitted_of_plain hnew).fresh o (List.mem_append_left _ ho)).reads

theorem not_under_self (h : Opened d root bs own n children os)
    (hnew : ∀ b ∈ own, b.facet ≠ .text) : ¬ d.Under n n := fun hself => by
  refine h.pending ?_
  rw [Outline.preorderAll_append]
  exact List.mem_append_left _ (h.mem_of_under hnew hself)

/-- No binding, and no other outline, looks at what is below the element. -/
theorem not_seen_of_under (h : Opened d root bs own n children os)
    (hnew : ∀ b ∈ own, b.facet ≠ .text) {x : NodeId} (hx : d.Under n x) :
    ¬ Fitted.Seen d (bs ++ own) os n x := by
  have hfitted := h.fitted_of_plain hnew
  have hnodup := hfitted.nodup
  rw [Outline.preorderAll_append] at hnodup
  have hmem : x ∈ preorderAll (children ++ os) := by
    rw [Outline.preorderAll_append]
    exact List.mem_append_left _ (h.mem_of_under hnew hx)
  rintro (⟨b, hb, rfl⟩ | hm | ⟨b, hb, htext, -, hc⟩)
  · exact hfitted.bound b hb hmem
  · exact List.disjoint_of_nodup_append hnodup (h.mem_of_under hnew hx) hm
  · exact (hfitted.secluded b hb htext x hc).1 hmem

/-- The text of the element is set, in the place of what is below it. -/
theorem setText (h : Opened d root bs own n children os) (hnew : ∀ b ∈ own, b.facet ≠ .text)
    (hn : d.node? n = some ⟨parent, kids, .element e, listeners⟩) (s : String) :
    ∃ d', d.setText n s = (.ok (), d') ∧
      Retexted d d' n ⟨parent, kids, .element e, listeners⟩ s := by
  have hfitted := h.fitted_of_plain hnew
  refine Document.setText_element hfitted.joined hn (h.not_under_self hnew)
    (fun c hc m hm hleaf => ?_) s
  obtain ⟨_, _, _, _, hn', hkids, -⟩ := h.element
  rw [hn, Option.some.injEq, Node.mk.injEq] at hn'
  obtain ⟨-, rfl, -, -⟩ := hn'
  rw [hkids (Binding.textual_eq_false.2 hnew)] at hc
  obtain ⟨o, ho, rfl⟩ := List.mem_map.1 hc
  obtain ⟨hnode, hnil, -⟩ := hfitted.fresh o (List.mem_append_left _ ho)
  rw [Outline.id, hnode, Option.some.injEq] at hm
  subst hm
  exact ⟨by rw [hnil hleaf]; rfl, rfl⟩

/-- The binding for the text is made, and what was below the element is gone. -/
theorem text (h : Opened d root bs own n children os) (source : String)
    (hnew : ∀ b ∈ own, b.facet ≠ .text) (v : Value) :
    ∃ d', d.render n .text v = (.ok (), d') ∧
      Opened d' root bs (own ++ [⟨n, .text, source⟩]) n children os ∧
      Displays d' ⟨n, .text, source⟩ (Facet.text.shown v) ∧
      ∀ b ∈ bs ++ own, ∀ t, Displays d b t → Displays d' b t := by
  obtain ⟨parent, kids, e, listeners, hn, -, hlisteners⟩ := h.element
  have hfitted := h.fitted_of_plain hnew
  have hplain := Binding.textual_eq_false.2 hnew
  obtain ⟨d', hd', hr⟩ := h.setText hnew hn (Facet.text.shown v)
  have haside : Fitted.Aside d (bs ++ own) os n := by
    refine ⟨fun hm => h.pending ?_, h.aside.inner⟩
    rw [Outline.preorderAll_append]
    exact List.mem_append_right _ hm
  obtain ⟨hfitted', hsame, hother, hshows⟩ :=
    hfitted.drop.retexted hn hr haside fun _ => h.not_seen_of_under hnew
  obtain ⟨kids', hn', -, hinto⟩ := hr.here
  have hnotext : ∀ b ∈ own, b.facet.isText = false := by
    simpa [Binding.textual] using hplain
  have hinner : ∀ b ∈ bs, b.facet.isText = true → n ∉ d'.children b.node := by
    intro b hb htext
    have hb' := List.mem_append_left own hb
    rw [Document.children, hr.elsewhere _ (hfitted.live hb') (h.others b hb) fun hu =>
      h.not_seen_of_under hnew hu (.inl ⟨b, hb', rfl⟩)]
    exact h.inner b hb htext
  have hall : ∀ b ∈ bs ++ own, ∀ t, Displays d b t → Displays d' b t := by
    intro b hb t ht
    rcases List.mem_append.1 hb with hbs | hown
    · exact hother b hb (h.others b hbs) t ht
    · exact hsame b hb (h.here b hown) (hnotext b hown) t ht
  have htextual : Binding.textual (own ++ [⟨n, .text, source⟩]) = true := by
    rw [textual_append]
    exact Bool.or_true _
  refine ⟨d', hd', ⟨?_, ?_, h.others, h.pending, hinner, ⟨_, _, _, _, hn', fun hnot => ?_,
    fun hmodel => ?_⟩⟩, (hshows source).1, hall⟩
  · rw [← List.append_assoc, Outline.unbound, if_pos htextual]
    refine hfitted'.add (hshows source).1 (fun hmodel => by cases hmodel) (fun b hb hbn hfacet => ?_)
      ⟨haside.pending, fun b hb htext hne => ?_⟩ fun htext c hc => ?_
    · exact hnew b ((List.mem_append.1 hb).resolve_left fun hb => h.others b hb hbn) hfacet
    · exact hinner b ((List.mem_append.1 hb).resolve_right fun hb => hne (h.here b hb)) htext
    · obtain ⟨hc', hbs⟩ := (hshows source).2 htext c hc
      refine ⟨hc', ?_⟩
      simp only [List.forall_mem_append, List.forall_mem_singleton] at hbs ⊢
      refine ⟨hbs, ?_⟩
      rintro rfl
      rw [Document.children_eq hn'] at hc
      exact h.not_under_self hnew (hinto _ hc (.of_eq hn))
  · simp only [List.forall_mem_append, List.forall_mem_singleton]
    exact ⟨h.here, trivial⟩
  · rw [htextual] at hnot
    cases hnot
  · exact hlisteners fun b hb => hmodel b (List.mem_append_left _ hb)

end Opened

/-! ## Pieces of text -/

/-- The binding of a piece of text is made. -/
theorem Fitted.interpolate {s : String}
    (h : Fitted d root bs (.node n (some (.text s)) children :: os)) (source : String)
    (v : Value) :
    ∃ d', d.render n .text v = (.ok (), d') ∧
      (Fitted d' root (bs ++ [⟨n, .text, source⟩]) os ∧ d'.children n = []) ∧
      Displays d' ⟨n, .text, source⟩ (Facet.text.shown v) ∧
      ∀ b ∈ bs, ∀ t, Displays d b t → Displays d' b t := by
  obtain ⟨hn, hleaf, -⟩ := h.fresh _ List.mem_cons_self
  obtain rfl := hleaf rfl
  have hcons : preorderAll (.node n (some (.text s)) [] :: os) = n :: preorderAll os := rfl
  have hmem : n ∈ preorderAll (.node n (some (.text s)) [] :: os) := List.mem_cons_self
  have hnodup := h.nodup
  rw [hcons, List.nodup_cons] at hnodup
  have hothers : ∀ b ∈ bs, b.node ≠ n := fun b hb hbn => h.bound b hb (hbn ▸ hmem)
  have haside : Aside d bs os n :=
    ⟨hnodup.1, fun b hb htext _ hc => (h.secluded b hb htext n hc).1 hmem⟩
  obtain ⟨d', hd', ha⟩ := Document.setText_altered h.joined hn (Facet.text.shown v)
  have hfitted : Fitted d root bs os :=
    h.fewer (fun o ho => h.fresh o (List.mem_cons_of_mem _ ho)) (List.sublist_cons_self _ _)
  have hshows : Displays d' ⟨n, .text, source⟩ (Facet.text.shown v) := .interpolation ha.here
  refine ⟨d', hd', ⟨?_, Document.children_eq ha.here⟩, hshows, fun b hb t =>
    displays_frame haside (fun x hx _ => ha.elsewhere x hx) hb (hothers b hb)⟩
  have hfitted' := hfitted.frame ha.joined haside (fun x hx _ => ha.elsewhere x hx) fun b hb hbn =>
    absurd hbn (hothers b hb)
  refine hfitted'.add hshows nofun (fun b hb hbn => absurd hbn (hothers b hb))
    ⟨hnodup.1, fun b hb htext hne hc => ?_⟩ fun _ c hc => ?_
  · refine haside.inner b hb htext hne ?_
    rwa [Document.children, ha.elsewhere _ hne] at hc
  · rw [Document.children_eq ha.here] at hc
    cases hc

end DataBinding
