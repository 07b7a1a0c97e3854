/-
  Plain data made reactive.

  What becomes of plain data is apart from what the store held before: mappings
  and slots of its own (`Store.Apart`), in which only the values of the data are
  found, and no subscriber.
-/
import DataBinding.Proofs.Reactive.Display
import DataBinding.Proofs.Reactive.Frame

namespace DataBinding

theorem Keyed.mem_of_get? {α : Type} {entries : Keyed α} {key : String} {a : α}
    (h : Keyed.get? entries key = some a) : (key, a) ∈ entries := by
  induction entries with
  | nil => cases h
  | cons entry rest ih =>
    obtain ⟨k, b⟩ := entry
    rw [Keyed.get?] at h
    split at h
    next hk =>
      obtain rfl := Option.some.inj h
      exact hk ▸ List.mem_cons_self
    next => exact List.mem_cons_of_mem _ (ih h)

namespace Store

variable {R : Type} {s : Store R} {n m : Nat}

mutual

/-- What new slots and new mappings keep, making data reactive keeps. -/
theorem observe_keeps {P : Store R → Prop} (hslot : ∀ s v, P s → P (s.newSlot v).2)
    (hmapping : ∀ s slots, P s → P (s.newMapping slots).2) :
    ∀ (j : Json) {s : Store R}, P s → P (observe j s).2
  | .null, _, h => h
  | .bool _, _, h => h
  | .number _, _, h => h
  | .string _, _, h => h
  | .array _, _, h => h
  | .object members, _, h => hmapping _ _ (observeMembers_keeps hslot hmapping members h)

theorem observeMembers_keeps {P : Store R → Prop} (hslot : ∀ s v, P s → P (s.newSlot v).2)
    (hmapping : ∀ s slots, P s → P (s.newMapping slots).2) :
    ∀ (members : List (String × Json)) {s : Store R}, P s → P (observeMembers members s).2
  | [], _, h => h
  | (_, j) :: rest, _, h => by
    rw [observeMembers]
    exact observeMembers_keeps hslot hmapping rest (hslot _ _ (observe_keeps hslot hmapping j h))

end

/-- Slots stay while members are made reactive. -/
theorem lt_size_observeMembers (members : List (String × Json)) {i : SlotId}
    (h : i < s.slots.size) : i < (observeMembers members s).2.slots.size :=
  observeMembers_keeps (P := fun s' => i < s'.slots.size)
    (fun _ _ hlt => Nat.lt_trans hlt (by simp [Store.newSlot])) (fun _ _ hlt => hlt) members h

/-- The slots from `n` on and the mappings from `m` on lead to each other only,
    and there are no doubles in them. -/
structure Apart (s : Store R) (n m : Nat) : Prop where
  slots_le : n ≤ s.slots.size
  mappings_le : m ≤ s.mappings.size
  members : ∀ id key i, m ≤ id → s.slot? id key = some i → n ≤ i ∧ i < s.slots.size
  values : ∀ i id, n ≤ i → s.valueAt i = .mapping id → m ≤ id
  integral : ∀ i, n ≤ i → (s.valueAt i).Integral

/-- A value that may be put into a slot of its own. -/
def Own (m : Nat) (v : Value) : Prop := v.Integral ∧ ∀ id, v = .mapping id → m ≤ id

namespace Apart

theorem start (s : Store R) : s.Apart s.slots.size s.mappings.size := by
  refine ⟨Nat.le_refl _, Nat.le_refl _, fun id key i hid h => ?_, fun i id hi h => ?_,
    fun i hi => ?_⟩
  · rw [slot?, Store.members, Array.getElem?_eq_none hid] at h
    cases h
  · rw [valueAt_eq, Array.getElem?_eq_none hi] at h
    cases h
  · rw [valueAt_eq, Array.getElem?_eq_none hi]
    trivial

theorem newSlot (h : s.Apart n m) {v : Value} (hv : Own m v) : (s.newSlot v).2.Apart n m := by
  refine ⟨?_, h.mappings_le, fun id key i hid hslot => ?_, fun i id hi hvalue => ?_, fun i hi => ?_⟩
  · exact Nat.le_trans h.slots_le (by simp [Store.newSlot])
  · obtain ⟨hle, hlt⟩ := h.members id key i hid hslot
    exact ⟨hle, Nat.lt_trans hlt (by simp [Store.newSlot])⟩
  · rw [valueAt_newSlot] at hvalue
    split at hvalue
    · exact hv.2 id hvalue
    · exact h.values i id hi hvalue
  · rw [valueAt_newSlot]
    split
    · exact hv.1
    · exact h.integral i hi

theorem newMapping (h : s.Apart n m) {slots : Keyed SlotId} (hslots : ∀ entry ∈ slots, n ≤ entry.2 ∧ entry.2 < s.slots.size) :
    (s.newMapping slots).2.Apart n m := by
  refine ⟨h.slots_le, Nat.le_trans h.mappings_le (by simp [Store.newMapping]),
    fun id key i hid hslot => ?_, h.values, h.integral⟩
  rw [slot?, Store.members, Store.newMapping, Array.getElem?_push] at hslot
  split at hslot
  · exact hslots _ (Keyed.mem_of_get? hslot)
  · exact h.members id key i hid hslot

/-- What a path from a mapping of its own goes through is its own. -/
theorem names (h : s.Apart n m) {root : MappingId} (hroot : m ≤ root)
    {expression : String} {i : SlotId} (hn : s.Names root expression i) :
    i < s.slots.size ∧ (s.valueAt i).Integral := by
  obtain ⟨hle, hlt⟩ := forall_mem_resolve (P := fun i => n ≤ i ∧ i < s.slots.size) h.members
    (fun i id hi => h.values i id hi.1) hroot i hn.mem_resolve
  exact ⟨hlt, h.integral i hle⟩

end Apart

mutual

theorem apart_observe : ∀ {j : Json} {s : Store R}, j.Integral → s.Apart n m →
    (observe j s).2.Apart n m ∧ Own m (observe j s).1
  | .null, _, _, h => ⟨h, trivial, fun _ => nofun⟩
  | .bool _, _, _, h => ⟨h, trivial, fun _ => nofun⟩
  | .number _, _, hj, h => ⟨h, hj, fun _ => nofun⟩
  | .string _, _, _, h => ⟨h, trivial, fun _ => nofun⟩
  | .array _, _, hj, h => ⟨h, hj, fun _ => nofun⟩
  | .object members, s, hj, h => by
    obtain ⟨h', hslots⟩ := apart_observeMembers hj h
    refine ⟨h'.newMapping hslots, trivial, fun id hid => ?_⟩
    cases hid
    exact h'.mappings_le

theorem apart_observeMembers : ∀ {members : List (String × Json)} {s : Store R},
    Json.IntegralMembers members → s.Apart n m →
      (observeMembers members s).2.Apart n m ∧ ∀ entry ∈ (observeMembers members s).1,
        n ≤ entry.2 ∧ entry.2 < (observeMembers members s).2.slots.size
  | [], _, _, h => ⟨h, fun _ => nofun⟩
  | (key, j) :: rest, s, hj, h => by
    obtain ⟨h', hv⟩ := apart_observe hj.1 h
    obtain ⟨h'', hslots⟩ := apart_observeMembers hj.2 (h'.newSlot hv)
    rw [observeMembers]
    refine ⟨h'', List.forall_mem_cons.2 ⟨⟨h'.slots_le, ?_⟩, hslots⟩⟩
    exact lt_size_observeMembers rest (by simp [Store.newSlot])

end

end Store

end DataBinding
