/-
  The nodes that a construction adds to a draft.

  Nodes are numbered in the order of their creation, so what is below a node has greater
  numbers, and what has been finished is never touched again.

  * `Draft.Stands`: a node of a draft, with everything below it, is a node of markup;
  * `Draft.Grafted`: nodes of markup have been put at the end of a node, and nothing else
    of the draft has changed;
  * `Draft.Grafted.forest_eq`: a draft reads as what has been put into it.
-/
import DataBinding.Proofs.Document.Graft
import DataBinding.Proofs.Markup.Spelling

namespace DataBinding.Markup.Draft

variable {d d' d'' : Draft} {lo i top : Nat} {m : Markup} {ms ms' : List Markup}

/-! ## Nodes of markup -/

mutual

/-- A node, numbered from `lo` on, is that of markup, with everything below it. -/
def Stands (d : Draft) (lo i : Nat) : Markup → Prop
  | .text s => lo ≤ i ∧ ∃ parent, d[i]? = some ⟨.text s, parent, []⟩
  | .comment s => lo ≤ i ∧ ∃ parent, d[i]? = some ⟨.comment s, parent, []⟩
  | .element tag attributes forest => lo ≤ i ∧ tag ≠ "template" ∧ ∃ parent children,
      d[i]? = some ⟨.element ⟨.html, tag⟩ attributes, parent, children⟩ ∧
        StandAll d (i + 1) children forest

/-- Nodes, numbered from `lo` on, are those of markup. -/
def StandAll (d : Draft) (lo : Nat) : List Nat → List Markup → Prop
  | [], [] => True
  | i :: is, m :: ms => Stands d lo i m ∧ StandAll d lo is ms
  | [], _ :: _ | _ :: _, [] => False

end

theorem Stands.le (h : d.Stands lo i m) : lo ≤ i := by
  cases m <;> exact h.1

mutual

/-- Only the nodes from `lo` on matter. -/
theorem Stands.congr : ∀ {m : Markup} {lo i : Nat},
    (∀ j, lo ≤ j → j < d.size → d'[j]? = d[j]?) → d.Stands lo i m → d'.Stands lo i m
  | .text _, _, _, hsame, ⟨hle, parent, hi⟩ =>
    ⟨hle, parent, (hsame _ hle (Array.getElem?_eq_some_iff.1 hi).1).trans hi⟩
  | .comment _, _, _, hsame, ⟨hle, parent, hi⟩ =>
    ⟨hle, parent, (hsame _ hle (Array.getElem?_eq_some_iff.1 hi).1).trans hi⟩
  | .element _ _ _, _, _, hsame, ⟨hle, htag, parent, children, hi, hbelow⟩ =>
    ⟨hle, htag, parent, children, (hsame _ hle (Array.getElem?_eq_some_iff.1 hi).1).trans hi,
      hbelow.congr fun j hj => hsame j (by omega)⟩

theorem StandAll.congr : ∀ {ms : List Markup} {lo : Nat} {is : List Nat},
    (∀ j, lo ≤ j → j < d.size → d'[j]? = d[j]?) → d.StandAll lo is ms → d'.StandAll lo is ms
  | [], _, [], _, _ => trivial
  | _ :: _, _, _ :: _, hsame, ⟨h, hrest⟩ => ⟨h.congr hsame, hrest.congr hsame⟩

end

theorem Stands.mono {lo' : Nat} (hle : lo' ≤ lo) (h : d.Stands lo i m) : d.Stands lo' i m := by
  cases m <;> exact ⟨Nat.le_trans hle h.1, h.2⟩

theorem StandAll.mono {lo' : Nat} (hle : lo' ≤ lo) : ∀ {is : List Nat} {ms : List Markup},
    d.StandAll lo is ms → d.StandAll lo' is ms
  | [], [], _ => trivial
  | _ :: _, _ :: _, ⟨h, hrest⟩ => ⟨h.mono hle, hrest.mono hle⟩

theorem StandAll.append : ∀ {is is' : List Nat} {ms ms' : List Markup}, d.StandAll lo is ms →
    d.StandAll lo is' ms' → d.StandAll lo (is ++ is') (ms ++ ms')
  | [], _, [], _, _, h' => h'
  | _ :: _, _, _ :: _, _, ⟨h, hrest⟩, h' => ⟨h, hrest.append h'⟩

mutual

/-- A node of markup reads as such. -/
theorem Stands.tree_eq : ∀ {m : Markup} {lo i fuel : Nat}, d.Stands lo i m →
    d.size ≤ fuel + i → d.tree fuel i = m
  | .text _, _, i, 0, ⟨_, _, hi⟩, hfuel | .comment _, _, i, 0, ⟨_, _, hi⟩, hfuel
  | .element _ _ _, _, i, 0, ⟨_, _, _, _, hi, _⟩, hfuel => by
    have := (Array.getElem?_eq_some_iff.1 hi).1
    omega
  | .text _, _, _, _ + 1, ⟨_, _, hi⟩, _ => by rw [tree, hi]
  | .comment _, _, _, _ + 1, ⟨_, _, hi⟩, _ => by rw [tree, hi]
  | .element tag attributes forest, _, i, fuel + 1, ⟨_, htag, _, children, hi, hbelow⟩, hfuel => by
    have hname : (⟨.html, tag⟩ : ElementName) ≠ ⟨.html, "template"⟩ := fun heq =>
      htag (congrArg ElementName.tag heq)
    rw [tree, hi]
    dsimp only
    rw [if_neg hname, hbelow.map_tree_eq (by omega)]

theorem StandAll.map_tree_eq : ∀ {ms : List Markup} {lo fuel : Nat} {is : List Nat},
    d.StandAll lo is ms → d.size ≤ fuel + lo → is.map (d.tree fuel) = ms
  | [], _, _, [], _, _ => rfl
  | _ :: _, _, _, _ :: _, ⟨h, hrest⟩, hfuel => by
    have := h.le
    rw [List.map_cons, h.tree_eq (by omega), hrest.map_tree_eq hfuel]

end

/-! ## Nodes put at the end of a node -/

/-- A draft with one more node, without children, at the end of a node. -/
structure Placed (d d' : Draft) (top : Nat) (content : DraftContent) : Prop where
  /-- There is one more node. -/
  size : d'.size = d.size + 1
  /-- It is at the end of the node. -/
  here : d'[top]? =
    d[top]?.map fun node => { node with children := node.children ++ [d.size] }
  /-- Its content is as given. -/
  new : d'[d.size]? = some ⟨content, some top, []⟩
  /-- The other nodes are as they were. -/
  elsewhere : ∀ j, j ≠ top → j < d.size → d'[j]? = d[j]?

/-- A draft with nodes of markup at the end of a node. -/
structure Grafted (d d' : Draft) (top : Nat) (ms : List Markup) : Prop where
  /-- No node is gone. -/
  size : d.size ≤ d'.size
  /-- The node has more children, which are new. -/
  here : ∃ children, d'.StandAll d.size children ms ∧ d'[top]? =
    d[top]?.map fun node => { node with children := node.children ++ children }
  /-- The other nodes are as they were. -/
  elsewhere : ∀ j, j ≠ top → j < d.size → d'[j]? = d[j]?

/-- No text stands at the end of a node. -/
def NoText (d : Draft) (i : Nat) : Prop :=
  ∀ last ∈ (d.children i).getLast?, d.isText last = false

theorem children_of_getElem? {node : DraftNode} (h : d[i]? = some node) :
    d.children i = node.children := by
  rw [Draft.children, h]
  rfl

/-! ### One node -/

theorem placed_append_add (htop : top < d.size) (content : DraftContent) :
    Placed d ((d.add content).append top d.size) top content := by
  have hne : top ≠ d.size := Nat.ne_of_lt htop
  have hnew : (d.add content)[d.size]? = some ⟨content, none, []⟩ := by simp [add]
  have hold : ∀ j, j < d.size → (d.add content)[j]? = d[j]? := fun j hj => by
    simp [add, Array.getElem?_push_lt hj, Array.getElem?_eq_getElem hj]
  have hdetach : (d.add content).detach d.size = d.add content := by
    rw [detach, parent?, hnew]
    rfl
  have hother : ∀ j, ((d.add content).append top d.size)[j]? =
      if top = j then (if d.size = j then (d.add content)[j]?.map
          fun node => { node with parent := some top } else (d.add content)[j]?).map
            fun node => { node with children := node.children ++ [d.size] }
      else if d.size = j then (d.add content)[j]?.map fun node => { node with parent := some top }
      else (d.add content)[j]? := fun j => by
    rw [append, hdetach, Array.getElem?_modify, Array.getElem?_modify]
  refine ⟨?_, ?_, ?_, fun j hj hlt => ?_⟩
  · rw [append, hdetach, Array.size_modify, Array.size_modify, add, Array.size_push]
  · rw [hother, if_pos rfl, if_neg hne.symm, hold top htop]
  · rw [hother, if_neg hne, if_pos rfl, hnew]
    rfl
  · rw [hother, if_neg (Ne.symm hj), if_neg (Nat.ne_of_gt hlt), hold j hlt]

namespace Placed

variable {content : DraftContent}

theorem lt (h : Placed d d' top content) (htop : top < d.size) : top < d'.size := by
  rw [h.size]
  omega

theorem grafted (h : Placed d d' top content) (hm : d'.Stands d.size d.size m) :
    Grafted d d' top [m] :=
  ⟨h.size ▸ Nat.le_succ _, ⟨[d.size], ⟨hm, trivial⟩, h.here⟩, h.elsewhere⟩

theorem text {s : String} (h : Placed d d' top (.text s)) : Grafted d d' top [.text s] :=
  h.grafted ⟨Nat.le_refl _, _, h.new⟩

theorem comment {s : String} (h : Placed d d' top (.comment s)) : Grafted d d' top [.comment s] :=
  h.grafted ⟨Nat.le_refl _, _, h.new⟩

/-- A new element, and what is put into it. -/
theorem element {tag : String} {attributes : List (String × String)}
    (h : Placed d d' top (.element ⟨.html, tag⟩ attributes)) (htag : tag ≠ "template")
    (htop : top < d.size) (hg : Grafted d' d'' d.size ms) :
    Grafted d d'' top [.element tag attributes ms] := by
  have hsize : d.size ≤ d''.size := Nat.le_trans (h.size ▸ Nat.le_succ _) hg.size
  obtain ⟨children, hchildren, hnode⟩ := hg.here
  rw [h.new] at hnode
  refine ⟨hsize, ⟨[d.size], ⟨⟨Nat.le_refl _, htag, some top, children, hnode, ?_⟩, trivial⟩, ?_⟩,
    fun j hj hlt => ?_⟩
  · rwa [← h.size]
  · rw [hg.elsewhere top (Nat.ne_of_lt htop) (h.lt htop), h.here]
  · rw [hg.elsewhere j (Nat.ne_of_lt hlt) (by rw [h.size]; omega), h.elsewhere j hj hlt]

/-- There is no text in a new node. -/
theorem noText (h : Placed d d' top content) : d'.NoText d.size := by
  rw [NoText, children_of_getElem? h.new]
  nofun

/-- A new element has its name. -/
theorem name_new {name : ElementName} {attributes : List (String × String)}
    (h : Placed d d' top (.element name attributes)) : d'.name d.size = name := by
  rw [Draft.name, h.new]

end Placed

/-! ### Text -/

/-- The characters of a text, put at the end of a node. -/
def appendChars (d : Draft) (top : Nat) (cs : List Char) : Draft :=
  cs.foldl (fun d c => d.appendChar top c) d

/-- The first character of a text is a new node. -/
theorem appendChar_of_noText (h : d.NoText top) (c : Char) :
    d.appendChar top c = (d.add (.text (String.singleton c))).append top d.size := by
  unfold appendChar
  split
  next last hlast => rw [h last hlast, if_neg Bool.false_ne_true]
  next => rfl

/-- Each further character is put at its end. -/
theorem Placed.appendChar {s : String} (h : Placed d d' top (.text s)) (htop : top < d.size)
    (c : Char) : Placed d (d'.appendChar top c) top (.text (s.push c)) := by
  have hne : top ≠ d.size := Nat.ne_of_lt htop
  -- the text is the last child, so it is the one that grows
  have hlast : (d'.children top).getLast? = some d.size := by
    rw [children_of_getElem? (h.here.trans (congrArg _ (Array.getElem?_eq_getElem htop))),
      List.getLast?_append_of_ne_nil _ (List.cons_ne_nil _ _)]
    rfl
  have htext : d'.isText d.size = true := by
    rw [isText, h.new]
  have hpush : d'.appendChar top c = d'.pushChar d.size c := by
    rw [Draft.appendChar, hlast]
    exact if_pos htext
  have hother : ∀ j, j ≠ d.size → (d'.pushChar d.size c)[j]? = d'[j]? := fun j hj => by
    rw [pushChar, Array.getElem?_modify, if_neg (Ne.symm hj)]
  rw [hpush]
  refine ⟨?_, (hother top hne).trans h.here, ?_, fun j hj hlt => ?_⟩
  · rw [pushChar, Array.size_modify, h.size]
  · rw [pushChar, Array.getElem?_modify, if_pos rfl, h.new]
    rfl
  · rw [hother j (Nat.ne_of_lt hlt), h.elsewhere j hj hlt]

theorem Placed.appendChars (htop : top < d.size) : ∀ (cs : List Char) {d' : Draft} {s : String},
    Placed d d' top (.text s) →
    Placed d (d'.appendChars top cs) top (.text (String.ofList (s.toList ++ cs)))
  | [], _, s, h => by
    rw [List.append_nil, String.ofList_toList]
    exact h
  | c :: cs, d', s, h => by
    have hrest := Placed.appendChars htop cs (h.appendChar htop c)
    rwa [String.toList_push, List.append_assoc] at hrest

/-! ### Several nodes -/

namespace Grafted

theorem refl (d : Draft) (top : Nat) : Grafted d d top [] :=
  ⟨Nat.le_refl _, ⟨[], trivial, by simp⟩, fun _ _ _ => rfl⟩

/-- More nodes after the first. -/
theorem trans (htop : top < d.size) (h : Grafted d d' top ms) (h' : Grafted d' d'' top ms') :
    Grafted d d'' top (ms ++ ms') := by
  obtain ⟨children, hchildren, hhere⟩ := h.here
  obtain ⟨children', hchildren', hhere'⟩ := h'.here
  refine ⟨Nat.le_trans h.size h'.size, ⟨children ++ children', ?_, ?_⟩, fun j hj hlt => ?_⟩
  · refine (hchildren.congr fun j hj hlt => ?_).append (hchildren'.mono h.size)
    exact h'.elsewhere j (Nat.ne_of_gt (Nat.lt_of_lt_of_le htop hj)) hlt
  · rw [hhere', hhere, Option.map_map]
    simp only [Function.comp_def, List.append_assoc]
  · rw [h'.elsewhere j hj (Nat.lt_of_lt_of_le hlt h.size), h.elsewhere j hj hlt]

/-- Names stay. -/
theorem name_eq (h : Grafted d d' top ms) {j : Nat} (hj : j < d.size) : d'.name j = d.name j := by
  by_cases heq : j = top
  · obtain ⟨children, -, hhere⟩ := h.here
    rw [heq, name, name, hhere]
    cases d[top]? with
    | none => rfl
    | some node => cases node with | mk content => cases content <;> rfl
  · rw [name, name, h.elsewhere j heq hj]

/-- After another node there is no text at the end. -/
theorem noText (h : Grafted d d' top [m]) (htop : top < d.size) (hm : m.isText = false) :
    d'.NoText top := by
  obtain ⟨children, hchildren, hhere⟩ := h.here
  rcases children with _ | ⟨k, _ | ⟨l, children⟩⟩
  · exact hchildren.elim
  · intro last hlast
    rw [Array.getElem?_eq_getElem htop, Option.map_some] at hhere
    rw [children_of_getElem? hhere,
      List.getLast?_append_of_ne_nil _ (List.cons_ne_nil _ _)] at hlast
    obtain rfl : k = last := Option.some.inj hlast
    cases m with
    | text s => cases hm
    | comment s =>
      obtain ⟨-, parent, hk⟩ := hchildren.1
      rw [isText, hk]
    | element tag attributes forest =>
      obtain ⟨-, -, parent, below, hk, -⟩ := hchildren.1
      rw [isText, hk]
  · exact hchildren.2.elim

/-- **A draft reads as what has been put into it.** -/
theorem forest_eq (h : Grafted d d' top ms) (hempty : d.children top = []) (htop : top < d.size) :
    d'.forest top = ms := by
  obtain ⟨children, hchildren, hhere⟩ := h.here
  rw [Array.getElem?_eq_getElem htop, Option.map_some] at hhere
  rw [children_of_getElem? (Array.getElem?_eq_getElem htop)] at hempty
  rw [forest, children_of_getElem? hhere]
  dsimp only
  rw [hempty, List.nil_append]
  exact hchildren.map_tree_eq (by omega)

end Grafted

/-- **Characters make one text**, or nothing if there are none. -/
theorem grafted_appendChars (htop : top < d.size) (h : d.NoText top) (cs : List Char) :
    Grafted d (d.appendChars top cs) top (ofText (String.ofList cs)) := by
  cases cs with
  | nil => exact .refl d top
  | cons c cs =>
    have hfirst := placed_append_add htop (.text (String.singleton c))
    rw [← appendChar_of_noText h] at hfirst
    have hall := (Placed.appendChars htop cs hfirst).text
    rw [String.toList_singleton, List.singleton_append] at hall
    rw [ofText, if_neg]
    · exact hall
    · simp

end DataBinding.Markup.Draft
