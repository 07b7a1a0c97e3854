/-
  Plain templates.

  An attribute name is `Marked` as a directive if it begins with `v-`.  The
  attributes of an element are `Plain` if their directives bind text, the value
  or attributes that are not marked, the text and the value once at most.

  * `Plain.nodup`: if no marked name occurs twice, no two directives bind the
    same place;
  * `Document.planted_parse`: in parsed markup no marked name occurs twice.
-/
import Mathlib.Data.List.Nodup
import DataBinding.Proofs.Markup.Rules
import DataBinding.Proofs.View.Bindings

namespace DataBinding

namespace Directive

/-- The name begins with `v-`. -/
def Marked (name : String) : Prop := ['v', '-'] <+: name.toList

instance (name : String) : Decidable (Marked name) := inferInstanceAs (Decidable (_ <+: _))

/-- No directive at all, or one for text, for the value or for an attribute that
    is not marked. -/
def Allowed : Option Directive → Prop
  | none | some text | some model => True
  | some (bind target) => ¬ Marked target
  | some html | some (on _) => False

instance : DecidablePred Allowed
  | none | some text | some model => .isTrue trivial
  | some (bind target) => inferInstanceAs (Decidable (¬ Marked target))
  | some html | some (on _) => .isFalse id

instance (name : String) :
    Decidable (∃ directive, parse name = .ok directive ∧ Allowed directive) :=
  match _h : parse name with
  | .ok directive =>
    decidable_of_iff (Allowed directive) ⟨fun ha => ⟨directive, rfl, ha⟩, fun ⟨_, heq, ha⟩ =>
      Except.ok.inj heq ▸ ha⟩
  | .error _ => .isFalse nofun

theorem parse_of_not_marked {name : String} (h : ¬ Marked name) : parse name = .ok none := by
  unfold parse
  split
  next body hbody => exact absurd ⟨body, hbody.symm⟩ h
  next => rfl

theorem parse_eq {name : String} {body : List Char} (h : name.toList = 'v' :: '-' :: body) :
    parse name = (ofParts (String.ofList body) (String.ofList (body.takeWhile (· ≠ ':')))
      (String.ofList ((body.dropWhile (· ≠ ':')).drop 1))).map some := by
  unfold parse
  rw [h]
  rfl

theorem ofParts_eq_bind {body name argument target : String}
    (h : ofParts body name argument = .ok (bind target)) :
    name = "bind" ∧ argument = target ∧ argument.isEmpty = false := by
  unfold ofParts at h
  dsimp only at h
  split at h
  · cases h
  split at h
  · cases h
  split at h
  · cases h
  split at h
  next hname =>
    split at h
    · cases h
    next hempty =>
      cases h
      exact ⟨hname, rfl, eq_false_of_ne_true hempty⟩
  next =>
    split at h
    · split at h <;> cases h
    · cases h

/-- Only one name binds an attribute. -/
theorem eq_of_parse_bind {name target : String} (h : parse name = .ok (some (bind target))) :
    name = "v-bind:" ++ target := by
  by_cases hmarked : Marked name
  · obtain ⟨body, hbody⟩ := hmarked
    have hbody' : name.toList = 'v' :: '-' :: body := hbody.symm
    rw [parse_eq hbody'] at h
    cases hparts : ofParts (String.ofList body) (String.ofList (body.takeWhile (· ≠ ':')))
      (String.ofList ((body.dropWhile (· ≠ ':')).drop 1)) with
    | error e =>
      rw [hparts] at h
      cases h
    | ok directive =>
      rw [hparts] at h
      cases h
      obtain ⟨hname, hargument, hempty⟩ := ofParts_eq_bind hparts
      have hsplit := List.takeWhile_append_dropWhile (p := fun c => decide (c ≠ ':')) (l := body)
      have hfront : body.takeWhile (fun c => decide (c ≠ ':')) = "bind".toList := by
        rw [← hname, String.toList_ofList]
      cases hback : body.dropWhile fun c => decide (c ≠ ':') with
      | nil =>
        rw [hback] at hempty
        cases hempty
      | cons c rest =>
        have hc := List.head?_dropWhile_not (fun c => decide (c ≠ ':')) body
        rw [hback] at hc hargument hsplit
        obtain rfl : c = ':' := by simpa using hc
        rw [List.drop_one, List.tail_cons] at hargument
        rw [← String.toList_inj, ← hbody, ← hsplit, hfront, ← hargument]
        simp
  · rw [parse_of_not_marked hmarked] at h
    cases h

end Directive

/-! ## Attributes -/

/-- The directives of an element bind text, the value or attributes, the text
    and the value once at most. -/
structure Plain (attributes : List (String × String)) : Prop where
  /-- There are no other directives. -/
  allowed : ∀ entry ∈ attributes, ∃ directive, Directive.parse entry.1 = .ok directive ∧
    Directive.Allowed directive
  /-- The text is bound once at most. -/
  text : (attributes.countP fun entry => Directive.of? entry.1 == some .text) ≤ 1
  /-- The value is bound once at most. -/
  model : (attributes.countP fun entry => Directive.of? entry.1 == some .model) ≤ 1

instance : DecidablePred Plain := fun _ =>
  decidable_of_iff (_ ∧ _ ∧ _)
    ⟨fun ⟨ha, ht, hm⟩ => ⟨ha, ht, hm⟩, fun h => ⟨h.allowed, h.text, h.model⟩⟩

/-- No name of a directive occurs twice. -/
def Unrepeated (attributes : List (String × String)) : Prop :=
  ((attributes.map Prod.fst).filter Directive.Marked).Nodup

namespace Plain

variable {attributes : List (String × String)}

theorem of?_bind {name target : String} (h : Directive.of? name = some (.bind target)) :
    name = "v-bind:" ++ target := by
  unfold Directive.of? at h
  split at h
  next directive hparse =>
    subst h
    exact Directive.eq_of_parse_bind hparse
  next => cases h

/-- No two directives of an element are the same. -/
theorem nodup_directives (h : Plain attributes) (hunrepeated : Unrepeated attributes) :
    (attributes.filterMap fun entry => Directive.of? entry.1).Nodup := by
  rw [List.nodup_iff_count_le_one]
  intro directive
  rw [List.count_filterMap]
  have hnone : ∀ d, ¬ Directive.Allowed (some d) →
      (attributes.countP fun entry => Directive.of? entry.1 == some d) ≤ 1 := by
    intro d hd
    rw [List.countP_eq_zero.2 fun entry hentry hof => ?_]
    · exact Nat.zero_le 1
    obtain ⟨directive, hparse, hallowed⟩ := h.allowed entry hentry
    rw [Directive.of?_of_parse hparse, beq_iff_eq] at hof
    exact hd (hof ▸ hallowed)
  cases directive with
  | text => exact h.text
  | model => exact h.model
  | html => exact hnone _ id
  | on eventType => exact hnone _ id
  | bind target =>
    have hle : (attributes.countP fun entry => Directive.of? entry.1 == some (.bind target)) ≤
        (attributes.map Prod.fst).count ("v-bind:" ++ target) := by
      rw [List.count_eq_countP, List.countP_map]
      refine List.countP_mono_left fun entry _ hof => ?_
      exact beq_iff_eq.2 (of?_bind (beq_iff_eq.1 hof))
    refine Nat.le_trans hle ?_
    have hmarked : Directive.Marked ("v-bind:" ++ target) := ⟨"bind:".toList ++ target.toList, by simp⟩
    rw [← List.count_filter (p := fun name => decide (Directive.Marked name)) (by simpa using hmarked)]
    exact List.nodup_iff_count_le_one.1 hunrepeated _

/-- Directives that show data in the same place are the same. -/
theorem facet?_inj {x y : Directive} {facet : Facet} (hx : x.facet? = some facet)
    (hy : y.facet? = some facet) : x = y := by
  cases x <;> cases hx <;> cases y <;> cases hy <;> rfl

/-- **No two bindings of an element are in the same place.** -/
theorem nodup (h : Plain attributes) (hunrepeated : Unrepeated attributes) (n : NodeId) :
    ((Binding.ofAttributes n attributes).map Binding.facet).Nodup := by
  have hfacets : (Binding.ofAttributes n attributes).map Binding.facet =
      (attributes.filterMap fun entry => Directive.of? entry.1).filterMap Directive.facet? := by
    rw [Binding.ofAttributes, List.map_filterMap, List.filterMap_filterMap]
    refine List.filterMap_congr fun entry _ => ?_
    rw [Binding.ofAttribute, Option.map_map]
    exact Option.map_id'
  rw [hfacets]
  exact List.Nodup.filterMap (fun _ _ _ => facet?_inj) (h.nodup_directives hunrepeated)

end Plain

/-! ## Parsed attributes -/

namespace Directive

/-- A change of names that neither changes a marked name nor makes one. -/
def Spares (f : String → String) : Prop :=
  ∀ name, f name = name ∨ ¬ Marked name ∧ ¬ Marked (f name)

theorem Spares.comp {f g : String → String} (hg : Spares g) (hf : Spares f) : Spares (g ∘ f) := by
  intro name
  rw [Function.comp_apply]
  obtain heq | ⟨hname, hf⟩ := hf name
  · rw [heq]
    exact hg name
  · obtain heq | ⟨-, hg⟩ := hg (f name)
    · exact .inr ⟨hname, heq.symm ▸ hf⟩
    · exact .inr ⟨hname, hg⟩

theorem spares_respell {spellings : List String}
    (h : ∀ s ∈ spellings, ¬ Marked s ∧ ¬ Marked (Text.lower s)) :
    Spares (Markup.respell spellings) := by
  intro name
  unfold Markup.respell
  cases hfound : spellings.find? fun s => Text.lower s == name with
  | none => exact .inl rfl
  | some s =>
    obtain ⟨hs, hlower⟩ := h s (List.mem_of_find?_eq_some hfound)
    obtain rfl : Text.lower s = name := by simpa using List.find?_some hfound
    exact .inr ⟨hlower, hs⟩

theorem spares_find (entries : List (String × String))
    (h : ∀ entry ∈ entries, ¬ Marked entry.1 ∧ ¬ Marked entry.2) :
    Spares fun name => (entries.find? (·.1 == name)).elim name Prod.snd := by
  intro name
  dsimp only
  cases hfound : entries.find? (·.1 == name) with
  | none => exact .inl rfl
  | some entry =>
    obtain ⟨hfirst, hsecond⟩ := h entry (List.mem_of_find?_eq_some hfound)
    obtain rfl : entry.1 = name := by simpa using List.find?_some hfound
    exact .inr ⟨hfirst, hsecond⟩

theorem spares_foreignAttribute (vocabulary : Markup.Vocabulary) :
    Spares (Markup.foreignAttribute vocabulary) := by
  have hqualified := spares_find Markup.qualifiedAttributes (by decide +kernel)
  cases vocabulary with
  | html => exact hqualified
  | svg =>
    have hsvg : Spares Markup.svgAttribute := spares_respell (by decide +kernel)
    exact hqualified.comp hsvg
  | mathml =>
    have hmathml : Spares fun name => if name = "definitionurl" then "definitionURL" else name := by
      intro name
      dsimp only
      split
      next hname =>
        subst hname
        exact .inr (by decide +kernel)
      next => exact .inl rfl
    exact hqualified.comp hmathml

theorem Spares.filter_map {f : String → String} (hf : Spares f) (names : List String) :
    ((names.map f).filter fun name => decide (Marked name)) =
      names.filter fun name => decide (Marked name) := by
  induction names with
  | nil => rfl
  | cons name names ih =>
    rw [List.map_cons, List.filter_cons, List.filter_cons, ih]
    obtain heq | ⟨hname, hadjusted⟩ := hf name
    · rw [heq]
    · rw [if_neg (by simpa using hadjusted), if_neg (by simpa using hname)]

end Directive

/-- No name of a directive occurs twice in what a start tag is read to. -/
theorem unrepeated_lexical : Markup.Lexical Unrepeated where
  none := List.nodup_nil
  more := by
    intro attributes entry h hnew
    have hmem : entry.1 ∉ attributes.map Prod.fst := by
      intro hmem
      rw [Keyed.contains, Keyed.get?_isSome_iff.2 hmem] at hnew
      cases hnew
    unfold Unrepeated
    rw [List.map_append, List.filter_append]
    refine List.nodup_append.2 ⟨h, ?_, ?_⟩
    · exact (List.nodup_singleton entry.1).filter _
    · rintro x hx y hy rfl
      obtain rfl : x = entry.1 := List.mem_singleton.1 (List.mem_of_mem_filter hy)
      exact hmem (List.mem_of_mem_filter hx)
  foreign := by
    intro attributes vocabulary h
    have heq := (Directive.spares_foreignAttribute vocabulary).filter_map (attributes.map Prod.fst)
    rw [List.map_map] at heq
    rw [Unrepeated, List.map_map]
    exact heq ▸ h

/-- In a parsed document no name of a directive occurs twice in an element. -/
theorem Document.planted_parse {L : Type} (markup : String) :
    (Document.parse markup : Document L).Planted Unrepeated :=
  Document.planted_ofForest (Markup.everyOf_parseFragment unrepeated_lexical markup)

end DataBinding
