/-
  What a suppressed update leaves on view.

  A watcher does not react to a value that is equal to the one it saw last, whose text
  stays on view.  Equal values need not look alike: `-0.0` is equal to `0`, and a double to
  every integer that it is nearest to.

  * `Value.figures`: the signs and magnitudes of the numbers that are shown in a value;
  * `Value.display_eq_iff`: equal values have the same text exactly if they have the same
    figures;
  * `Value.shown_eq_iff`: this decides whether they are shown alike by every facet and on
    every element, and so whether a suppressed update leaves what it would have written.
-/
import DataBinding.Proofs.Number.Figure
import DataBinding.Proofs.Reactive.Watching
import DataBinding.Proofs.Document.Slots
import DataBinding.View.Stage

namespace DataBinding

/-! ## The text of a sequence -/

/-- Lists that differ, whatever follows. -/
def Diverge {α : Type} (xs ys : List α) : Prop :=
  ∀ us vs, xs ++ us ≠ ys ++ vs

namespace Diverge

variable {α : Type} {xs ys : List α}

theorem ne (h : Diverge xs ys) : xs ≠ ys := fun heq => h [] [] (by rw [heq])

theorem cons {x y : α} (h : x ≠ y) : Diverge (x :: xs) (y :: ys) :=
  fun _ _ heq => h (List.cons.inj heq).1

theorem append (h : Diverge xs ys) (us vs : List α) : Diverge (xs ++ us) (ys ++ vs) := by
  intro us' vs' heq
  rw [List.append_assoc, List.append_assoc] at heq
  exact h _ _ heq

theorem append_left (h : Diverge xs ys) (ps : List α) : Diverge (ps ++ xs) (ps ++ ys) := by
  intro us vs heq
  rw [List.append_assoc, List.append_assoc] at heq
  exact h us vs (List.append_cancel_left heq)

end Diverge

/-- Numbers that are the same as plain data are one number, or zeros with texts that
    diverge. -/
theorem Number.display_of_same_cases {m n : Number} (h : m.same n = true) :
    m = n ∨ Diverge [m.figure] [n.figure] ∧ Diverge m.display.toList n.display.toList := by
  cases m with
  | int m hm =>
    cases n with
    | int n hn =>
      obtain rfl : m = n := beq_iff_eq.1 h
      exact .inl rfl
    | float y => cases h
  | float x =>
    cases n with
    | int n hn => cases h
    | float y =>
      refine (Double.eq_or_zero_of_value_eq (equal_float_iff.1 h)).imp (congrArg float) ?_
      rintro ⟨hsign, hx, hy⟩
      have hfigure : ∀ {z : Double}, z.units = 0 → (float z).figure = (z.negative, 0 * twoTo 1074) :=
        fun hz => figure_float (hz.trans (Nat.zero_mul _).symm)
      rw [display_of_figure (hfigure hx) (tenTo_pos 21), display_of_figure (hfigure hy) (tenTo_pos 21)]
      refine ⟨.cons fun heq => ?_, ?_⟩
      · have := congrArg Prod.fst heq
        cases hy' : y.negative <;> simp [figure, hsign, hy'] at this
      · rw [hsign]
        cases y.negative
        · exact .cons (by decide)
        · exact .cons (by decide)

namespace Json

mutual

/-- The figures of the numbers that are shown in an item, in order: an object shows
    none. -/
def figures : Json → List (Bool × Nat)
  | .number n => [n.figure]
  | .array items => figuresAll items
  | _ => []

/-- The figures of the numbers that are shown in the items of a sequence. -/
def figuresAll : List Json → List (Bool × Nat)
  | [] => []
  | item :: rest => figures item ++ figuresAll rest

end

theorem itemsText_cons_cons (x y : Json) (ys : List Json) :
    itemsText (x :: y :: ys) = itemText x ++ "," ++ itemsText (y :: ys) := rfl

/-- The text of a sequence is that of its first item with something after it. -/
theorem itemsText_cons (x : Json) (xs : List Json) :
    ∃ rest, (itemsText (x :: xs)).toList = (itemText x).toList ++ rest := by
  cases xs with
  | nil => exact ⟨[], (List.append_nil _).symm⟩
  | cons x' xs =>
    exact ⟨_, by rw [itemsText_cons_cons, String.append_assoc, String.toList_append]⟩

mutual

/-- Items that are the same have the same text, or diverge in a figure and in the text. -/
theorem itemText_cases : ∀ {x y : Json}, x.same y = true →
    x.figures = y.figures ∧ x.itemText = y.itemText ∨
      Diverge x.figures y.figures ∧ Diverge x.itemText.toList y.itemText.toList
  | .null, y, h => by
    cases y with
    | null => exact .inl ⟨rfl, rfl⟩
    | _ => cases h
  | .bool a, y, h => by
    cases y with
    | bool b =>
      obtain rfl : a = b := beq_iff_eq.1 h
      exact .inl ⟨rfl, rfl⟩
    | _ => cases h
  | .number m, y, h => by
    cases y with
    | number n =>
      rcases Number.display_of_same_cases h with rfl | hdiverge
      · exact .inl ⟨rfl, rfl⟩
      · exact .inr hdiverge
    | _ => cases h
  | .string s, y, h => by
    cases y with
    | string t =>
      obtain rfl : s = t := beq_iff_eq.1 h
      exact .inl ⟨rfl, rfl⟩
    | _ => cases h
  | .array xs, y, h => by
    cases y with
    | array ys => exact itemsText_cases h
    | _ => cases h
  | .object xs, y, h => by
    cases y with
    | object ys => exact .inl ⟨rfl, rfl⟩
    | _ => cases h

theorem itemsText_cases : ∀ {xs ys : List Json}, sameItems xs ys = true →
    figuresAll xs = figuresAll ys ∧ itemsText xs = itemsText ys ∨
      Diverge (figuresAll xs) (figuresAll ys) ∧
        Diverge (itemsText xs).toList (itemsText ys).toList
  | [], ys, h => by
    cases ys with
    | nil => exact .inl ⟨rfl, rfl⟩
    | cons => cases h
  | x :: xs, ys, h => by
    cases ys with
    | nil => cases h
    | cons y ys =>
      rw [sameItems, Bool.and_eq_true] at h
      rw [figuresAll, figuresAll]
      rcases itemText_cases h.1 with ⟨hfigures, htext⟩ | ⟨hfigures, htext⟩
      · rw [hfigures]
        cases xs with
        | nil =>
          cases ys with
          | nil => exact .inl ⟨rfl, htext⟩
          | cons => cases h.2
        | cons x' xs =>
          cases ys with
          | nil => cases h.2
          | cons y' ys =>
            rw [itemsText_cons_cons, itemsText_cons_cons, htext]
            simp only [String.toList_append]
            refine (itemsText_cases h.2).imp (fun hrest => ?_) fun hrest => ?_
            · rw [hrest.1, hrest.2]
              exact ⟨rfl, rfl⟩
            · exact ⟨hrest.1.append_left _, hrest.2.append_left _⟩
      · obtain ⟨us, hus⟩ := itemsText_cons x xs
        obtain ⟨vs, hvs⟩ := itemsText_cons y ys
        rw [hus, hvs]
        exact .inr ⟨hfigures.append _ _, htext.append _ _⟩

end

end Json

/-! ## The text of a value -/

namespace Value

/-- The figures of the numbers that are shown in a value, in order. -/
def figures : Value → List (Bool × Nat)
  | number n => [n.figure]
  | array items => Json.figuresAll items
  | _ => []

variable {v w : Value}

/-- **Equal values have the same text** exactly if the numbers in them have the same
    figures. -/
theorem display_eq_iff (h : v.equal w = true) : v.display = w.display ↔ v.figures = w.figures := by
  cases v with
  | null =>
    cases w with
    | null => exact iff_of_true rfl rfl
    | _ => cases h
  | undefined =>
    cases w with
    | undefined => exact iff_of_true rfl rfl
    | _ => cases h
  | bool a =>
    cases w with
    | bool b =>
      obtain rfl : a = b := beq_iff_eq.1 h
      exact iff_of_true rfl rfl
    | _ => cases h
  | number m =>
    cases w with
    | number n => exact (Number.display_eq_iff h).trans List.singleton_inj.symm
    | _ => cases h
  | string s =>
    cases w with
    | string t =>
      obtain rfl : s = t := beq_iff_eq.1 h
      exact iff_of_true rfl rfl
    | _ => cases h
  | array xs =>
    cases w with
    | array ys =>
      rcases Json.itemsText_cases h with ⟨hfigures, htext⟩ | ⟨hfigures, htext⟩
      · exact iff_of_true htext hfigures
      · exact iff_of_false (fun heq => htext.ne (congrArg String.toList heq)) hfigures.ne
    | _ => cases h
  | mapping a =>
    cases w with
    | mapping b => exact iff_of_true rfl rfl
    | _ => cases h

/-- Equal values are absent alike. -/
theorem absent_of_equal (h : v.equal w = true) :
    v.isNull = w.isNull ∧ v.isNullish = w.isNullish := by
  cases v <;> cases w <;> first | exact ⟨rfl, rfl⟩ | cases h

/-- Equal values are shown alike by every facet exactly if they have the same text. -/
theorem shown_eq_iff_display_eq (h : v.equal w = true) :
    (∀ facet : Facet, facet.shown v = facet.shown w) ↔ v.display = w.display := by
  obtain ⟨hnull, hnullish⟩ := absent_of_equal h
  refine ⟨fun hshown => hshown (.attribute ""), fun hdisplay facet => ?_⟩
  cases facet with
  | text => simp only [Facet.shown, hnullish, hdisplay]
  | html => simp only [Facet.shown, hnull, hdisplay]
  | model => simp only [Facet.shown, hnull, hdisplay]
  | «attribute» name => exact hdisplay

end Value

/-! ## Suppressed updates -/

section

variable {L : Type} {d : Document L} {id : NodeId}

/-- An attribute that a value is bound to has the text of the value. -/
theorem Document.attribute?_render {e : Element} (he : d.element? id = some e) (name : String)
    (v : Value) :
    (d.render id (.attribute name) v).2.attribute? id name = some v.display := by
  obtain ⟨⟨parent, children, content, listeners⟩, hnode, hcontent⟩ := Option.bind_eq_some_iff.1 he
  cases content with
  | element e' =>
    rw [render, setAttribute, updateElement, hnode]
    simp [attribute?, attributes, element?, node?_update, hnode, NodeContent.element?,
      Keyed.get?_put_self, Facet.shown]
  | _ => cases hcontent

end

namespace Value

/-- **Equal values are shown alike**, by every facet and on every element, exactly if the
    numbers in them have the same figures.  An update from one to the other is suppressed in
    any case: the stage stays as it is. -/
theorem shown_eq_iff {v w : Value} (h : v.equal w = true) :
    (v.display = w.display ↔ v.figures = w.figures) ∧
      ((∀ facet : Facet, facet.shown v = facet.shown w) ↔ v.figures = w.figures) ∧
      (∀ (d : Document Listener) (id : NodeId) (e : Element), d.element? id = some e →
        ((∀ facet, d.render id facet v = d.render id facet w) ↔ v.figures = w.figures)) ∧
      ∀ (react : Reaction → Value → Play Unit) (u : World Reaction Stage) (k : WatcherId)
        (watcher : Watcher Reaction), u.store.watchers[k]? = some watcher → watcher.value = w →
        (u.store.resolve watcher.root watcher.expression).2 = .ok v →
        ∃ s, Effect.updateWatcher react k u = (.ok (), { u with store := s }) := by
  have hdisplay := display_eq_iff h
  have hshown := (shown_eq_iff_display_eq h).trans hdisplay
  refine ⟨hdisplay, hshown, fun d id e he => ⟨fun hrender => ?_, fun hfigures facet => ?_⟩, ?_⟩
  · have htext := Document.attribute?_render he "" v
    rw [hrender, Document.attribute?_render he] at htext
    exact hdisplay.1 (Option.some.inj htext).symm
  · simp only [Document.render, hshown.2 hfigures]
  · rintro react u k watcher hwatcher rfl hv
    exact ⟨_, Effect.updateWatcher_of_equal react hwatcher hv h⟩

/-- The integer and the double `2` have the same figure. -/
theorem shown_eq_of_two :
    let v : Value := .number (.int 2 (by decide))
    let w : Value := .number (.float ⟨false, 0x10000000000000, 1023, by decide⟩)
    v.equal w = true ∧ v.figures = w.figures ∧ v.display = w.display ∧
      ∀ facet : Facet, facet.shown v = facet.shown w := by
  intro v w
  have h : v.equal w = true := by decide +kernel
  have hfigures : v.figures = w.figures := by decide +kernel
  obtain ⟨hdisplay, hshown, -, -⟩ := shown_eq_iff h
  exact ⟨h, hfigures, hdisplay.2 hfigures, hshown.2 hfigures⟩

/-- Zero is equal to negative zero, which is written with its sign. -/
theorem shown_ne_of_zero :
    let v : Value := .number (.int 0 (by decide))
    let w : Value := .number (.float (Double.zero true))
    v.equal w = true ∧ v.display = "0" ∧ w.display = "-0" ∧
      Facet.text.shown v ≠ Facet.text.shown w := by
  decide +kernel

end Value

end DataBinding
