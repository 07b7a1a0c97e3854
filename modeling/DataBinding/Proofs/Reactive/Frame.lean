/-
  What stays in place when values other than mappings are written.

  `Store.Framed s₀ s`: the keys of `s₀` have the same slots in `s`, and the slots
  that hold a mapping in `s₀` hold it in `s`.  Writes of values other than
  mappings to slots that hold none keep this, whatever else is read, observed or
  watched meanwhile.

  `Store.Names s root expression i`: the expression ends at the slot `i`.
  * `Names.framed`: it still does while the store is framed.
-/
import DataBinding.Proofs.Reactive.Walking

namespace DataBinding.Store

variable {R R' : Type}

/-- The slots of `s₀` and the mappings they hold are in their places in `s`. -/
structure Framed (s₀ : Store R) (s : Store R') : Prop where
  /-- Present keys keep their slots. -/
  slots : ∀ m key i, s₀.slot? m key = some i → s.slot? m key = some i
  /-- Mappings stay where they are held. -/
  mappings : ∀ i, (s₀.valueAt i).isMapping = true → s.valueAt i = s₀.valueAt i

/-- The write of a value other than a mapping to a present key that holds none. -/
def ScalarWrite (s₀ : Store R) (m : MappingId) (key : String) (v : Value) : Prop :=
  v.isMapping = false ∧ ∃ i, s₀.slot? m key = some i ∧ (s₀.valueAt i).isMapping = false

/-- The expression ends at the slot. -/
def Names (s : Store R) (root : MappingId) (expression : String) (i : SlotId) : Prop :=
  ∃ front, s.resolve root expression = (front ++ [i], .ok (s.valueAt i))

theorem lt_size_of_isMapping {s : Store R} {i : SlotId} (h : (s.valueAt i).isMapping = true) :
    i < s.slots.size := by
  by_contra hle
  rw [valueAt_eq, Array.getElem?_eq_none (Nat.le_of_not_lt hle)] at h
  cases h

/-- An expression goes through the slot that it ends at. -/
theorem Names.mem_resolve {s : Store R} {root : MappingId} {expression : String} {i : SlotId}
    (h : s.Names root expression i) : i ∈ (s.resolve root expression).1 := by
  obtain ⟨front, h⟩ := h
  rw [h]
  exact List.mem_append_right front List.mem_cons_self

namespace Framed

variable {s₀ s : Store R}

theorem refl (s : Store R) : Framed s s := ⟨fun _ _ _ h => h, fun _ _ => rfl⟩

theorem of_eq {s' : Store R'} {s : Store R} (h : Framed s₀ s) (hmappings : s'.mappings = s.mappings)
    (hvalues : ∀ i, s'.valueAt i = s.valueAt i) : Framed s₀ s' := by
  refine ⟨fun m key i hi => ?_, fun i hi => (hvalues i).trans (h.mappings i hi)⟩
  rw [← h.slots m key i hi]
  simp only [slot?, members, hmappings]

variable (h : Framed s₀ s)

include h

theorem newSlot (v : Value) : Framed s₀ (s.newSlot v).2 := by
  refine ⟨h.slots, fun i hi => ?_⟩
  have hsize : i < s.slots.size := lt_size_of_isMapping (h.mappings i hi ▸ hi)
  rw [valueAt_newSlot, if_neg (Nat.ne_of_lt hsize), h.mappings i hi]

theorem newMapping (members : Keyed SlotId) : Framed s₀ (s.newMapping members).2 := by
  refine ⟨fun m key i hi => ?_, h.mappings⟩
  have hs := h.slots m key i hi
  by_cases hm : m < s.mappings.size
  · rw [← hs]
    simp only [slot?, Store.members, Store.newMapping, Array.getElem?_push_lt hm,
      Array.getElem?_eq_getElem hm]
  · simp only [slot?, Store.members, Array.getElem?_eq_none (Nat.le_of_not_lt hm)] at hs
    cases hs

theorem write {i : SlotId} (hi : (s₀.valueAt i).isMapping = false) (v : Value) :
    Framed s₀ (s.write i v) := by
  refine ⟨h.slots, fun j hj => ?_⟩
  have hij : i ≠ j := by
    rintro rfl
    rw [hi] at hj
    cases hj
  rw [valueAt_write, if_neg fun hw => hij hw.1, h.mappings j hj]

theorem walk {path : String} {i : SlotId} : ∀ {segments : List String} {v : Value}
    {front : List SlotId}, s₀.walk path v segments = (front ++ [i], .ok (s₀.valueAt i)) →
      s.walk path v segments = (front ++ [i], .ok (s.valueAt i))
  | [], v, front, hw => by
    cases v <;> cases front <;> cases hw
  | segment :: rest, v, front, hw => by
    obtain ⟨m, slot, rfl, hsegment, hslot, ⟨rfl, rfl, rfl⟩ | ⟨front, rfl, hrest⟩⟩ := walk_ends hw
    · rw [walk_cons path [] hsegment (h.slots m segment slot hslot), walk_nil]
      rfl
    · have hmem : i ∈ (s₀.walk path (s₀.valueAt slot) rest).1 := by
        rw [hrest]
        exact List.mem_append_right front List.mem_cons_self
      rw [walk_cons path rest hsegment (h.slots m segment slot hslot),
        h.mappings slot (isMapping_of_mem_walk hmem), walk hrest]
      rfl

/-- An expression ends at the same slot while the store is framed. -/
theorem names {root : MappingId} {expression : String} {i : SlotId}
    (hn : s₀.Names root expression i) : s.Names root expression i := by
  obtain ⟨front, hfront⟩ := hn
  refine ⟨front, ?_⟩
  by_cases hblank : Text.trim expression = ""
  · rw [resolve_of_blank hblank] at hfront
    cases congrArg Prod.snd hfront
  · rw [resolve_of_not_blank hblank] at hfront ⊢
    exact h.walk hfront

end Framed

end DataBinding.Store
