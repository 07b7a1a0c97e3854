/-
  The keys of mappings, which only become more.

  A store `Grows` to another one if the keys of every mapping are the first keys that it
  has there, and no key is doubled.

  * `grows_install`, `grows_observe`: a write and the making of mappings let a store grow;
  * `Growing`: a property of worlds that holds as long as the store does nothing but grow.
    Every operation on reactive data keeps it that has callbacks which do (`Growing.set`
    and its like).
-/
import DataBinding.Proofs.Reactive.Equality
import DataBinding.Proofs.Reactive.Invariants

namespace DataBinding

open Effect (Preserves)

namespace Store

variable {R : Type} {s s' s'' : Store R} {m : MappingId} {key : String}

/-- The keys of every mapping stay in their places, new ones come after them, and none
    comes twice. -/
def Grows (s s' : Store R) : Prop :=
  ∀ m, s.keys m <+: s'.keys m ∧ ((s.keys m).Nodup → (s'.keys m).Nodup)

namespace Grows

theorem refl (s : Store R) : s.Grows s := fun _ => ⟨List.prefix_refl _, id⟩

theorem trans (h : s.Grows s') (h' : s'.Grows s'') : s.Grows s'' := fun m =>
  ⟨(h m).1.trans (h' m).1, (h' m).2 ∘ (h m).2⟩

/-- The keys are those of the mappings. -/
theorem of_mappings (h : s'.mappings = s.mappings) : s.Grows s' := by
  intro m
  rw [keys, keys, members, members, h]
  exact ⟨List.prefix_refl _, id⟩

end Grows

/-! ## Writing -/

/-- A key that is put into a mapping is there already, or comes last. -/
theorem grows_install (s : Store R) (m : MappingId) (key : String) (v : Value) :
    s.Grows (s.install m key v) := by
  intro n
  have hmembers : (s.install m key v).members n =
      ((s.mappings[n]?).map fun members =>
        if m = n then Keyed.put members key s.slots.size else members).getD [] := by
    simp only [install, newSlot, members, Array.getElem?_modify]
    split <;> simp
  rw [keys, keys, hmembers, members]
  cases s.mappings[n]? with
  | none => exact ⟨List.prefix_refl _, id⟩
  | some members =>
    rw [Option.map_some, Option.getD_some, Option.getD_some]
    split
    · rw [Keyed.keys_put]
      split
      · exact ⟨List.prefix_refl _, id⟩
      next hnew => exact ⟨List.prefix_append _ _, fun h => List.concat_eq_append ▸ h.concat hnew⟩
    · exact ⟨List.prefix_refl _, id⟩

/-- A value is written under a key that is there. -/
theorem grows_write (s : Store R) (m : MappingId) (key : String) (v : Value) (slot : SlotId) :
    s.Grows ((if v.isMapping then s.install m key v else s).write slot v) := by
  refine Grows.trans ?_ (.of_mappings rfl)
  split
  · exact s.grows_install m key v
  · exact .refl s

/-! ## New mappings -/

theorem grows_newMapping (s : Store R) {slots : Keyed SlotId} (h : (Keyed.keys slots).Nodup) :
    s.Grows (s.newMapping slots).2 := by
  intro n
  rw [keys, keys, members, members, newMapping, Array.getElem?_push]
  split
  next hn =>
    rw [hn, Array.getElem?_size]
    exact ⟨List.nil_prefix, fun _ => h⟩
  next => exact ⟨List.prefix_refl _, id⟩

theorem keys_observeMembers (members : List (String × Json)) (s : Store R) :
    Keyed.keys (observeMembers members s).1 = Keyed.keys members := by
  induction members generalizing s with
  | nil => rfl
  | cons member rest ih => exact congrArg (member.1 :: ·) (ih _)

mutual

/-- Plain data in which no mapping has a key twice becomes mappings of this kind. -/
theorem grows_observe : ∀ {j : Json}, j.Proper → ∀ s : Store R, s.Grows (observe j s).2
  | .null, _, s | .bool _, _, s | .number _, _, s | .string _, _, s | .array _, _, s => .refl s
  | .object members, hj, s => by
    refine (grows_observeMembers hj.2 s).trans (grows_newMapping _ ?_)
    rw [keys_observeMembers]
    exact hj.1

theorem grows_observeMembers : ∀ {members : List (String × Json)}, Json.ProperMembers members →
    ∀ s : Store R, s.Grows (observeMembers members s).2
  | [], _, s => .refl s
  | (_, j) :: _, hj, s =>
    let s' := (s.observe j).2
    have hslot : s'.Grows (s'.newSlot (s.observe j).1).2 := .of_mappings rfl
    ((grows_observe hj.1 s).trans hslot).trans (grows_observeMembers hj.2 _)

end

theorem grows_observeMapping {j : Json} (hj : j.Proper) (s : Store R) :
    s.Grows (s.observeMapping j).2 := by
  match j, hj with
  | .object _, hj => exact grows_observe hj s
  | .null, _ | .bool _, _ | .number _, _ | .string _, _ | .array _, _ =>
    exact s.grows_newMapping List.nodup_nil

end Store

/-! ## Operations -/

/-- A property of worlds that holds as long as the store does nothing but grow. -/
def Growing {R σ : Type} (P : World R σ → Prop) : Prop :=
  ∀ u s', P u → u.store.Grows s' → P { u with store := s' }

namespace Growing

open Store (Grows)

variable {R σ : Type} {P : World R σ → Prop} (hP : Growing P)

include hP

theorem kept : Kept P where
  subscribe u _ _ hu := hP u _ hu (.of_mappings rfl)
  count u _ hu := hP u _ hu (.of_mappings rfl)
  collecting u _ hu := hP u _ hu (.of_mappings rfl)
  depth u _ hu := hP u _ hu (.of_mappings rfl)
  remember u _ _ hu := hP u _ hu (.of_mappings rfl)

theorem modifyStore {f : Store R → Store R} (h : ∀ s, Grows s (f s)) :
    Preserves P (Effect.modifyStore f) :=
  Preserves.modifyStore fun u hu => hP u _ hu (h u.store)

theorem onStore {α : Type} {f : Store R → α × Store R} (h : ∀ s, Grows s (f s).2) :
    Preserves P (Effect.onStore f) :=
  Preserves.onStore fun u hu => hP u _ hu (h u.store)

variable {react : R → Value → Effect R σ Unit} (hreact : ∀ label v, Preserves P (react label v))

include hreact

theorem notify (slot : SlotId) : Preserves P (Effect.notify react slot) :=
  hP.kept.notify hreact slot

theorem set (m : MappingId) (key : String) (v : Value) :
    Preserves P (Effect.set react m key v) := by
  refine Preserves.store.bind fun s => ?_
  split
  · exact hP.modifyStore fun s => s.grows_install m key v
  next slot _ =>
    exact (hP.modifyStore fun s => s.grows_write m key v slot).bind fun _ => hP.notify hreact slot

theorem setPath (root : MappingId) (expression : String) (v : Value) :
    Preserves P (Effect.setPath react root expression v) := by
  refine (Preserves.reading fun u hu => ?_).bind fun target => hP.set hreact _ _ v
  exact hP.kept.trackAll _ u hu

end Growing

end DataBinding
