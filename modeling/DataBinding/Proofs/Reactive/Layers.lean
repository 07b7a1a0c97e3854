/-
  Mappings on layers.

  A mapping is on a later layer than every mapping it is in, so that no path comes
  back to where it was (`Store.Layered`).  Plain data is written to such a store
  without regard to who holds the mapping that is written to, or whether it is still
  part of the data.

  * `Layered.observe`, `Layered.write`: plain data made reactive, and written, goes to
    layers of its own (`Store.Enclosed`);
  * `Layered.names_assign`: what is written through an expression is what it ends at;
  * `Outgrows.names`: an expression that ends at an earlier slot after a write did so
    before.
-/
import DataBinding.Proofs.Reactive.Lookup
import DataBinding.Proofs.Reactive.Replacement

namespace DataBinding.Store

variable {R : Type} {s s' : Store R} {m : MappingId} {key : String} {v : Value}

/-! ## One write -/

/-- A mapping holds another one under some key. -/
def Contains (s : Store R) (m id : MappingId) : Prop :=
  ∃ key i, s.slot? m key = some i ∧ s.valueAt i = .mapping id

theorem slot?_install (s : Store R) (m : MappingId) (key : String) (v : Value) (m' : MappingId)
    (key' : String) : (s.install m key v).slot? m' key' =
      if m' = m ∧ key' = key ∧ m < s.mappings.size then some s.slots.size
      else s.slot? m' key' := by
  change Keyed.get? (((s.mappings.modify m _)[m']?).getD []) key' = _
  rw [slot?, members, Array.getElem?_modify]
  by_cases hm : m = m'
  · subst hm
    rw [if_pos rfl]
    by_cases hlt : m < s.mappings.size
    · rw [Array.getElem?_eq_getElem hlt]
      by_cases hkey : key' = key
      · subst hkey
        rw [if_pos ⟨rfl, rfl, hlt⟩]
        exact Keyed.get?_put_self _ _ _
      · rw [if_neg fun h => hkey h.2.1]
        exact Keyed.get?_put_other _ _ hkey
    · rw [if_neg fun h => hlt h.2.2, Array.getElem?_eq_none (Nat.le_of_not_lt hlt)]
      rfl
  · rw [if_neg hm, if_neg fun h => hm h.1.symm]

theorem valueAt_install (s : Store R) (m : MappingId) (key : String) (v : Value) (t : SlotId) :
    (s.install m key v).valueAt t = if t = s.slots.size then v else s.valueAt t :=
  valueAt_newSlot s v t

/-- The slots under keys are there, and there is a mapping for every one that is
    held. -/
structure Placed (s : Store R) : Prop where
  /-- The slots. -/
  slots : ∀ m key i, s.slot? m key = some i → i < s.slots.size
  /-- The mappings. -/
  mappings : ∀ m id, s.Contains m id → id < s.mappings.size

section

variable (s m key v)

/-- A write changes the slot under its key at most. -/
theorem slot?_assign_other {m' : MappingId} {key' : String} (h : ¬ (m' = m ∧ key' = key)) :
    (s.assign m key v).slot? m' key' = s.slot? m' key' := by
  have hinstall : (s.install m key v).slot? m' key' = s.slot? m' key' := by
    rw [slot?_install, if_neg fun h' => h ⟨h'.1, h'.2.1⟩]
  unfold assign
  split
  · exact hinstall
  · split
    · exact hinstall
    · rfl

/-- Under a key there is what was there, or a new slot with what is written. -/
theorem slot?_assign {m' : MappingId} {key' : String} {t : SlotId}
    (h : (s.assign m key v).slot? m' key' = some t) :
    s.slot? m' key' = some t ∨ m' = m ∧ t = s.slots.size ∧ (s.assign m key v).valueAt t = v := by
  unfold assign at h ⊢
  cases hslot : s.slot? m key with
  | none =>
    rw [hslot] at h
    dsimp only at h
    rw [slot?_install] at h
    split at h
    next hnew =>
      obtain rfl := Option.some.inj h
      exact .inr ⟨hnew.1, rfl, by rw [valueAt_install, if_pos rfl]⟩
    next => exact .inl h
  | some i =>
    rw [hslot] at h
    dsimp only at h
    split at h
    next hmapping =>
      change (s.install m key v).slot? m' key' = some t at h
      rw [slot?_install] at h
      split at h
      next hnew =>
        obtain rfl := Option.some.inj h
        refine .inr ⟨hnew.1, rfl, ?_⟩
        dsimp only
        rw [if_pos hmapping, valueAt_write, valueAt_install, if_pos rfl, ite_self]
      next => exact .inl h
    next => exact .inl h

/-- A slot holds what it held, or what is written if it is new or was under the
    key. -/
theorem valueAt_assign (t : SlotId) : (s.assign m key v).valueAt t = s.valueAt t ∨
    (s.assign m key v).valueAt t = v ∧ (t = s.slots.size ∨ s.slot? m key = some t) := by
  have hinstall : (s.install m key v).valueAt t = s.valueAt t ∨
      (s.install m key v).valueAt t = v ∧ t = s.slots.size := by
    rw [valueAt_install]
    split
    next ht => exact .inr ⟨rfl, ht⟩
    next => exact .inl rfl
  unfold assign
  cases hslot : s.slot? m key with
  | none => exact hinstall.imp_right fun h => ⟨h.1, .inl h.2⟩
  | some i =>
    have hwrite : ∀ x : Store R, (x.valueAt t = s.valueAt t ∨
        x.valueAt t = v ∧ t = s.slots.size) → (x.write i v).valueAt t = s.valueAt t ∨
          (x.write i v).valueAt t = v ∧ (t = s.slots.size ∨ some i = some t) := by
      intro x hx
      rw [valueAt_write]
      split
      next hi => exact .inr ⟨rfl, .inr (congrArg some hi.1)⟩
      next => exact hx.imp_right fun h => ⟨h.1, .inl h.2⟩
    dsimp only
    split
    · exact hwrite _ hinstall
    · exact hwrite s (.inl rfl)

theorem size_mappings_assign : (s.assign m key v).mappings.size = s.mappings.size := by
  unfold assign
  split
  · exact Array.size_modify
  · split
    · exact Array.size_modify
    · rfl

theorem size_slots_assign_le : s.slots.size ≤ (s.assign m key v).slots.size := by
  have hinstall : s.slots.size ≤ (s.install m key v).slots.size :=
    Nat.le_of_lt (Nat.lt_of_lt_of_eq (Nat.lt_succ_self _) (Array.size_push _).symm)
  have hwrite : ∀ (x : Store R) i, (x.write i v).slots.size = x.slots.size := fun x i =>
    Array.size_modify
  unfold assign
  split
  · exact hinstall
  · rw [hwrite]
    split
    · exact hinstall
    · exact Nat.le_refl _

end

/-- What is written is under its key then. -/
theorem Placed.slot?_assign_self (h : s.Placed) (hm : m < s.mappings.size) (key : String)
    (v : Value) : ∃ t, (s.assign m key v).slot? m key = some t ∧
      (s.assign m key v).valueAt t = v ∧ t < (s.assign m key v).slots.size := by
  have hinstall : (s.install m key v).slot? m key = some s.slots.size := by
    rw [slot?_install, if_pos ⟨rfl, rfl, hm⟩]
  have hsize : (s.install m key v).slots.size = s.slots.size + 1 := Array.size_push _
  have hvalue : (s.install m key v).valueAt s.slots.size = v := by
    rw [valueAt_install, if_pos rfl]
  unfold assign
  cases hslot : s.slot? m key with
  | none => exact ⟨_, hinstall, hvalue, hsize ▸ Nat.lt_succ_self _⟩
  | some i =>
    have hi := h.slots m key i hslot
    dsimp only
    split
    · refine ⟨s.slots.size, hinstall, ?_, ?_⟩
      · rw [valueAt_write, hvalue, ite_self]
      · exact Nat.lt_of_lt_of_eq (hsize ▸ Nat.lt_succ_self _) Array.size_modify.symm
    · refine ⟨i, hslot, ?_, Nat.lt_of_lt_of_eq hi Array.size_modify.symm⟩
      rw [valueAt_write, if_pos ⟨rfl, hi⟩]

/-- A write of a value that leads to a mapping that is there. -/
theorem Placed.assign (h : s.Placed) (hm : m < s.mappings.size)
    (hv : ∀ id, v = .mapping id → id < s.mappings.size) (key : String) :
    (s.assign m key v).Placed := by
  obtain ⟨t, ht, hvalue, hlt⟩ := h.slot?_assign_self hm key v
  have hself : ∀ i, (s.assign m key v).slot? m key = some i → i = t := fun i hi =>
    Option.some.inj (hi.symm.trans ht)
  constructor
  · intro m' key' i hi
    by_cases hkey : m' = m ∧ key' = key
    · obtain ⟨rfl, rfl⟩ := hkey
      exact hself i hi ▸ hlt
    · rw [slot?_assign_other s m key v hkey] at hi
      exact Nat.lt_of_lt_of_le (h.slots m' key' i hi) (size_slots_assign_le s m key v)
  · rintro m' id ⟨key', i, hi, hid⟩
    rw [size_mappings_assign]
    by_cases hkey : m' = m ∧ key' = key
    · obtain ⟨rfl, rfl⟩ := hkey
      rw [hself i hi, hvalue] at hid
      exact hv id hid
    · rw [slot?_assign_other s m key v hkey] at hi
      obtain hsame | ⟨hwritten, -⟩ := valueAt_assign s m key v i
      · exact h.mappings m' id ⟨key', i, hi, hsame ▸ hid⟩
      · exact hv id (hwritten ▸ hid)

/-! ## Plain data apart -/

/-- The slots from `n` on and the mappings from `m` on lead to each other only, and a
    mapping comes after those in it. -/
structure Enclosed (s : Store R) (n m : Nat) : Prop where
  /-- There are so many slots. -/
  slots_le : n ≤ s.slots.size
  /-- There are so many mappings. -/
  mappings_le : m ≤ s.mappings.size
  /-- Mappings lead to slots. -/
  members : ∀ id key i, m ≤ id → s.slot? id key = some i → n ≤ i ∧ i < s.slots.size
  /-- Slots lead to mappings. -/
  values : ∀ i id, n ≤ i → s.valueAt i = .mapping id → m ≤ id ∧ id < s.mappings.size
  /-- A mapping comes after those in it. -/
  earlier : ∀ id id', m ≤ id → s.Contains id id' → id' < id

namespace Enclosed

variable {n : Nat}

/-- Nothing has been added yet. -/
theorem start (s : Store R) : s.Enclosed s.slots.size s.mappings.size := by
  have hnone : ∀ id key, s.mappings.size ≤ id → s.slot? id key = none := fun id key hid => by
    rw [slot?, Store.members, Array.getElem?_eq_none hid]
    rfl
  refine ⟨Nat.le_refl _, Nat.le_refl _, fun id key i hid h => ?_, fun i id hi h => ?_,
    fun id id' hid h => ?_⟩
  · rw [hnone id key hid] at h
    cases h
  · rw [valueAt_eq, Array.getElem?_eq_none hi] at h
    cases h
  · obtain ⟨key, i, hslot, -⟩ := h
    rw [hnone id key hid] at hslot
    cases hslot

theorem newSlot (h : s.Enclosed n m)
    (hv : ∀ id, v = .mapping id → m ≤ id ∧ id < s.mappings.size) :
    (s.newSlot v).2.Enclosed n m := by
  have hsize : (s.newSlot v).2.slots.size = s.slots.size + 1 := Array.size_push _
  refine ⟨hsize ▸ Nat.le_succ_of_le h.slots_le, h.mappings_le, fun id key i hid hslot => ?_,
    fun i id hi hvalue => ?_, fun id id' hid hcontains => ?_⟩
  · obtain ⟨hle, hlt⟩ := h.members id key i hid hslot
    exact ⟨hle, hsize ▸ Nat.lt_succ_of_lt hlt⟩
  · rw [valueAt_newSlot] at hvalue
    split at hvalue
    · exact hv id hvalue
    · exact h.values i id hi hvalue
  · obtain ⟨key, i, hslot, hvalue⟩ := hcontains
    have hlt := (h.members id key i hid hslot).2
    rw [valueAt_newSlot, if_neg (Nat.ne_of_lt hlt)] at hvalue
    exact h.earlier id id' hid ⟨key, i, hslot, hvalue⟩

theorem newMapping (h : s.Enclosed n m) {slots : Keyed SlotId}
    (hslots : ∀ entry ∈ slots, n ≤ entry.2 ∧ entry.2 < s.slots.size) :
    (s.newMapping slots).2.Enclosed n m := by
  have hsize : (s.newMapping slots).2.mappings.size = s.mappings.size + 1 := Array.size_push _
  have hslot : ∀ id key i, (s.newMapping slots).2.slot? id key = some i →
      s.slot? id key = some i ∨ id = s.mappings.size ∧ (key, i) ∈ slots := by
    intro id key i hi
    rw [slot?, Store.members, Store.newMapping, Array.getElem?_push] at hi
    split at hi
    next hid => exact .inr ⟨hid, Keyed.mem_of_get? hi⟩
    next => exact .inl hi
  refine ⟨h.slots_le, hsize ▸ Nat.le_succ_of_le h.mappings_le, fun id key i hid hi => ?_,
    fun i id hi hvalue => ?_, fun id id' hid hcontains => ?_⟩
  · exact (hslot id key i hi).elim (h.members id key i hid) fun hnew => hslots _ hnew.2
  · obtain ⟨hle, hlt⟩ := h.values i id hi hvalue
    exact ⟨hle, hsize ▸ Nat.lt_succ_of_lt hlt⟩
  · obtain ⟨key, i, hi, hvalue⟩ := hcontains
    obtain hi | ⟨rfl, hmem⟩ := hslot id key i hi
    · exact h.earlier id id' hid ⟨key, i, hi, hvalue⟩
    · exact (h.values i id' (hslots _ hmem).1 hvalue).2

mutual

/-- Plain data made reactive stays apart. -/
theorem observe : ∀ (j : Json) {s : Store R}, s.Enclosed n m → (s.observe j).2.Enclosed n m ∧
    ∀ id, (s.observe j).1 = .mapping id → m ≤ id ∧ id < (s.observe j).2.mappings.size
  | .null, _, h | .bool _, _, h | .number _, _, h | .string _, _, h | .array _, _, h =>
    ⟨h, fun _ => nofun⟩
  | .object members, s, h => by
    obtain ⟨h', hslots⟩ := observeMembers members h
    refine ⟨h'.newMapping hslots, fun id hid => ?_⟩
    cases hid
    exact ⟨h'.mappings_le, Nat.lt_of_lt_of_eq (Nat.lt_succ_self _) (Array.size_push _).symm⟩

theorem observeMembers : ∀ (members : List (String × Json)) {s : Store R}, s.Enclosed n m →
    (s.observeMembers members).2.Enclosed n m ∧ ∀ entry ∈ (s.observeMembers members).1,
      n ≤ entry.2 ∧ entry.2 < (s.observeMembers members).2.slots.size
  | [], _, h => ⟨h, fun _ => nofun⟩
  | (key, j) :: rest, s, h => by
    obtain ⟨h', hv⟩ := observe j h
    obtain ⟨h'', hslots⟩ := observeMembers rest (h'.newSlot hv)
    rw [Store.observeMembers]
    refine ⟨h'', List.forall_mem_cons.2 ⟨⟨h'.slots_le, ?_⟩, hslots⟩⟩
    exact lt_size_observeMembers rest (by simp [Store.newSlot])

end

end Enclosed

/-! ## Layers -/

/-- Every mapping is on a later layer than the mappings it is in. -/
structure Layered (s : Store R) : Prop extends Placed s where
  /-- The layers. -/
  rising : ∃ layer : MappingId → Nat, ∀ m id, s.Contains m id → layer m < layer id

/-- Only the mappings and the values matter, and how many slots there are. -/
theorem Layered.congr (h : s.Layered) (hmappings : s'.mappings = s.mappings)
    (hvalues : ∀ i, s'.valueAt i = s.valueAt i) (hsize : s'.slots.size = s.slots.size) :
    s'.Layered := by
  have hslot : ∀ m key, s'.slot? m key = s.slot? m key := fun m key => by
    simp only [slot?, members, hmappings]
  have hcontains : ∀ m id, s'.Contains m id → s.Contains m id := by
    rintro m id ⟨key, i, hi, hvalue⟩
    exact ⟨key, i, hslot m key ▸ hi, hvalues i ▸ hvalue⟩
  obtain ⟨layer, hlayer⟩ := h.rising
  refine ⟨⟨fun m key i hi => ?_, fun m id hc => ?_⟩, layer, fun m id hc => ?_⟩
  · exact hsize ▸ h.slots m key i (hslot m key ▸ hi)
  · exact hmappings ▸ h.mappings m id (hcontains m id hc)
  · exact hlayer m id (hcontains m id hc)

/-- Without mappings there are no layers. -/
theorem Layered.of_empty (h : s.mappings = #[]) : s.Layered := by
  have hnone : ∀ m key, s.slot? m key = none := fun m key => by
    rw [slot?, members, h]
    rfl
  have hcontains : ∀ m id, ¬ s.Contains m id := by
    rintro m id ⟨key, i, hi, -⟩
    rw [hnone] at hi
    cases hi
  refine ⟨⟨fun m key i hi => ?_, fun m id hc => absurd hc (hcontains m id)⟩, fun _ => 0,
    fun m id hc => absurd hc (hcontains m id)⟩
  rw [hnone] at hi
  cases hi

/-- A store with more data, which is apart from the data that was there. -/
structure Annexes (s s' : Store R) : Prop where
  /-- What was there is there. -/
  kept : s.Extends s'
  /-- The rest is apart. -/
  apart : s'.Enclosed s.slots.size s.mappings.size

theorem Annexes.observe (s : Store R) (j : Json) : s.Annexes (s.observe j).2 :=
  ⟨.observe s j, ((Enclosed.start s).observe j).1⟩

namespace Annexes

variable (h : s.Annexes s')

include h

/-- Mappings that were there have the slots that they had. -/
theorem slot? {m : MappingId} (hm : m < s.mappings.size) (key : String) :
    s'.slot? m key = s.slot? m key := by
  rw [Store.slot?, Store.slot?, h.kept.members hm]

/-- Slots that were there hold what they held. -/
theorem valueAt {i : SlotId} (hi : i < s.slots.size) : s'.valueAt i = s.valueAt i :=
  h.kept.valueAt hi

/-- A mapping that was there holds what it held. -/
theorem contains (hs : s.Placed) {m id : MappingId} (hm : m < s.mappings.size)
    (hc : s'.Contains m id) : s.Contains m id := by
  obtain ⟨key, i, hi, hvalue⟩ := hc
  rw [h.slot? hm] at hi
  rw [h.valueAt (hs.slots m key i hi)] at hvalue
  exact ⟨key, i, hi, hvalue⟩

theorem placed (hs : s.Placed) : s'.Placed := by
  refine ⟨fun m key i hi => ?_, fun m id hc => ?_⟩
  · by_cases hm : m < s.mappings.size
    · rw [h.slot? hm] at hi
      exact Nat.lt_of_lt_of_le (hs.slots m key i hi) h.apart.slots_le
    · exact (h.apart.members m key i (Nat.le_of_not_lt hm) hi).2
  · by_cases hm : m < s.mappings.size
    · exact Nat.lt_of_lt_of_le (hs.mappings m id (h.contains hs hm hc)) h.apart.mappings_le
    · obtain ⟨key, i, hi, hvalue⟩ := hc
      exact (h.apart.values i id (h.apart.members m key i (Nat.le_of_not_lt hm) hi).1 hvalue).2

/-- The data that is apart can have its layers after all that were there. -/
theorem rising (hs : s.Layered) : ∃ layer : MappingId → Nat,
    (∀ m id, s'.Contains m id → layer m < layer id) ∧
    ∀ m id, m < s.mappings.size → s.mappings.size ≤ id → layer m < layer id := by
  obtain ⟨layer, hlayer⟩ := hs.rising
  obtain ⟨top, htop⟩ : ∃ top, ∀ m < s.mappings.size, layer m < top := by
    induction s.mappings.size with
    | zero => exact ⟨0, nofun⟩
    | succ k ih =>
      obtain ⟨top, htop⟩ := ih
      refine ⟨max top (layer k + 1), fun m hm => ?_⟩
      rcases Nat.lt_succ_iff_lt_or_eq.1 hm with hm | rfl
      · exact Nat.lt_of_lt_of_le (htop m hm) (Nat.le_max_left _ _)
      · exact Nat.le_max_right _ _
  refine ⟨fun m => if m < s.mappings.size then layer m else top + (s'.mappings.size - m),
    fun m id hc => ?_, fun m id hm hid => ?_⟩ <;> dsimp only
  · by_cases hm : m < s.mappings.size
    · have hc' := h.contains hs.toPlaced hm hc
      rw [if_pos hm, if_pos (hs.mappings m id hc')]
      exact hlayer m id hc'
    · have hm' := Nat.le_of_not_lt hm
      have ⟨key, i, hi, hvalue⟩ := hc
      have hid := (h.apart.values i id (h.apart.members m key i hm' hi).1 hvalue).1
      have hearlier := h.apart.earlier m id hm' hc
      have hlt : m < s'.mappings.size := by
        obtain ⟨slots, hslots, -⟩ := holding_of_slot? hi
        exact lt_of_holding (by rw [hslots]; rfl)
      rw [if_neg hm, if_neg (Nat.not_lt.2 hid)]
      exact Nat.add_lt_add_left (Nat.sub_lt_sub_left (Nat.lt_trans hearlier hlt) hearlier) top
  · rw [if_pos hm, if_neg (Nat.not_lt.2 hid)]
    exact Nat.lt_of_lt_of_le (htop m hm) (Nat.le_add_right _ _)

theorem layered (hs : s.Layered) : s'.Layered := by
  obtain ⟨layer, hlayer, -⟩ := h.rising hs
  exact ⟨h.placed hs.toPlaced, layer, hlayer⟩

end Annexes

/-- A value that leads to what is apart only. -/
def Outer (s s' : Store R) (v : Value) : Prop :=
  ∀ id, v = .mapping id → s.mappings.size ≤ id ∧ id < s'.mappings.size

theorem Outer.observe (s : Store R) (j : Json) : s.Outer (s.observe j).2 (s.observe j).1 :=
  ((Enclosed.start s).observe j).2

/-- What a mapping holds after a write is what it held, or what is written; the latter
    is held by a mapping that was there. -/
theorem Annexes.contains_assign (h : s.Annexes s') (hs : s.Placed) (hm : m < s.mappings.size)
    {m' id : MappingId} (hc : (s'.assign m key v).Contains m' id) :
    s'.Contains m' id ∨ m' < s.mappings.size ∧ v = .mapping id := by
  obtain ⟨key', t, ht, hvalue⟩ := hc
  obtain ht | ⟨rfl, -, hv⟩ := slot?_assign s' m key v ht
  · obtain hsame | ⟨hv, hnew | hold⟩ := valueAt_assign s' m key v t
    · exact .inl ⟨key', t, ht, hsame ▸ hvalue⟩
    · exact absurd ((h.placed hs).slots m' key' t ht) (hnew ▸ Nat.lt_irrefl _)
    · refine .inr ⟨Nat.lt_of_not_le fun hle => ?_, hv ▸ hvalue⟩
      rw [h.slot? hm] at hold
      exact absurd (hs.slots m key t hold) (Nat.not_lt.2 (h.apart.members m' key' t hle ht).1)
  · exact .inr ⟨hm, hv ▸ hvalue⟩

/-- **Plain data is written** to a mapping that was there, and everything is on layers
    still. -/
theorem Layered.write (hs : s.Layered) (h : s.Annexes s') (hv : s.Outer s' v)
    (hm : m < s.mappings.size) (key : String) : (s'.assign m key v).Layered := by
  obtain ⟨layer, hlayer, hlater⟩ := h.rising hs
  refine ⟨(h.placed hs.toPlaced).assign (Nat.lt_of_lt_of_le hm h.apart.mappings_le)
    (fun id hid => (hv id hid).2) key, layer, fun m' id hc => ?_⟩
  obtain hc | ⟨hm', rfl⟩ := h.contains_assign hs.toPlaced hm hc
  · exact hlayer m' id hc
  · exact hlater m' id hm' (hv id rfl).1

/-! ## Paths and keys -/

/-- Keys that lead to a mapping reach it. -/
theorem Leads.reach {keys : List String} {slots : List SlotId}
    (h : s.Leads v keys slots (.mapping m)) : s.reach keys v = some m := by
  generalize hw : Value.mapping m = w at h
  induction h with
  | here =>
    subst hw
    rfl
  | on _ hi _ ih =>
    rw [Store.reach, hi]
    exact ih hw

/-- Keys that reach a mapping lead to it, if none of them is empty. -/
theorem exists_leads_of_reach : ∀ {keys : List String} {v : Value}, s.reach keys v = some m →
    (∀ key ∈ keys, key.isEmpty = false) → ∃ slots, s.Leads v keys slots (.mapping m) := by
  intro keys
  induction keys with
  | nil =>
    intro v h _
    obtain ⟨id, rfl⟩ := exists_mapping_of_reach h
    obtain rfl := Option.some.inj h
    exact ⟨[], .here _⟩
  | cons key keys ih =>
    intro v h hkeys
    obtain ⟨hkey, hkeys⟩ := List.forall_mem_cons.1 hkeys
    obtain ⟨id, rfl⟩ := exists_mapping_of_reach h
    obtain ⟨i, id', hi, hvalue, h⟩ := reach_cons h
    obtain ⟨slots, hleads⟩ := ih (hvalue ▸ h) hkeys
    exact ⟨i :: slots, .on hkey hi hleads⟩

/-- Where a write goes, keys lead, and the expression ends at the slot that is under the
    last one, if there is one, unless there are blanks in it. -/
theorem path_of_target {root : MappingId} {expression : String}
    (h : (s.target root expression).2 = .ok (m, key)) :
    ∃ path, s.reach path (.mapping root) = some m ∧
      ((∀ c ∈ Text.trimChars expression.toList, Text.isBlank c = false) → ∀ s' : Store R,
        s'.reach path (.mapping root) = some m → ∀ i, s'.slot? m key = some i →
          s'.Names root expression i) := by
  obtain ⟨path, slots, haims, hkey, hleads⟩ := exists_leads_of_target h
  refine ⟨path, hleads.reach, fun hblank s' hreach i hi => ?_⟩
  obtain ⟨slots', hleads'⟩ := exists_leads_of_reach hreach hleads.nonempty
  exact names_iff.2 ⟨haims.path_ne hkey, path, key, slots', m,
    haims.keys (Text.tight_of_not_blank hblank), hkey, hleads', hi⟩

/-- Keys lead to one of the first mappings, if those hold no other ones. -/
theorem lt_of_reach {n : Nat} (h : ∀ m id, m < n → s.Contains m id → id < n) :
    ∀ {path : List String} {root : MappingId}, root < n →
      s.reach path (.mapping root) = some m → m < n
  | [], _, hroot, hreach => Option.some.inj hreach ▸ hroot
  | step :: path, root, hroot, hreach => by
    obtain ⟨i, id, hi, hvalue, hreach⟩ := reach_cons hreach
    exact lt_of_reach h (h root id hroot ⟨step, i, hi, hvalue⟩) hreach

/-- A write through an expression goes to a mapping that was there before the value was
    made reactive. -/
theorem Annexes.lt_of_target (h : s.Annexes s') (hs : s.Placed) {root : MappingId}
    {expression : String} (hroot : root < s.mappings.size)
    (htarget : (s'.target root expression).2 = .ok (m, key)) : m < s.mappings.size := by
  obtain ⟨path, hreach, -⟩ := path_of_target htarget
  exact lt_of_reach (fun _ id hm hc => hs.mappings _ id (h.contains hs hm hc)) hroot hreach

/-! ## Reading what was written -/

namespace Layered

/-- Keys lead to later layers. -/
theorem layer_le {layer : MappingId → Nat}
    (h : ∀ m id, s.Contains m id → layer m < layer id) : ∀ {path : List String} {root : MappingId},
    s.reach path (.mapping root) = some m → layer root ≤ layer m
  | [], _, hreach => Option.some.inj hreach ▸ Nat.le_refl _
  | step :: path, root, hreach => by
    obtain ⟨i, id, hi, hvalue, hreach⟩ := reach_cons hreach
    exact Nat.le_trans (Nat.le_of_lt (h root id ⟨step, i, hi, hvalue⟩)) (layer_le h hreach)

/-- A write to the mapping that keys lead to leaves the way there as it was. -/
theorem reach_assign (h : s.Layered) : ∀ {path : List String} {root : MappingId},
    s.reach path (.mapping root) = some m →
      (s.assign m key v).reach path (.mapping root) = some m
  | [], _, hreach => hreach
  | step :: path, root, hreach => by
    obtain ⟨layer, hlayer⟩ := h.rising
    obtain ⟨i, id, hi, hvalue, hreach⟩ := reach_cons hreach
    have hle := layer_le hlayer hreach
    have hlt := hlayer root id ⟨step, i, hi, hvalue⟩
    -- the way comes by earlier layers only
    have hroot : ¬ (root = m ∧ step = key) := by
      rintro ⟨rfl, -⟩
      exact absurd hlt (Nat.not_lt.2 hle)
    have hsame : (s.assign m key v).valueAt i = s.valueAt i := by
      refine (valueAt_assign s m key v i).resolve_right ?_
      rintro ⟨-, hnew | hold⟩
      · exact absurd (h.slots root step i hi) (hnew ▸ Nat.lt_irrefl _)
      · exact absurd (hlayer m id ⟨key, i, hold, hvalue⟩) (Nat.not_lt.2 hle)
    rw [reach, slot?_assign_other s m key v hroot, hi, Option.bind_some, hsame, hvalue]
    exact reach_assign h hreach

/-- **What is written through an expression** is what the expression ends at. -/
theorem names_assign (h : s.Layered) {root : MappingId} (hroot : root < s.mappings.size)
    {expression : String} (htarget : (s.target root expression).2 = .ok (m, key))
    (hblank : ∀ c ∈ Text.trimChars expression.toList, Text.isBlank c = false) (v : Value) :
    ∃ i, (s.assign m key v).slot? m key = some i ∧
      (s.assign m key v).Names root expression i ∧ (s.assign m key v).valueAt i = v := by
  obtain ⟨path, hreach, hnames⟩ := path_of_target htarget
  have hm : m < s.mappings.size := lt_of_reach (fun _ id _ hc => h.mappings _ id hc) hroot hreach
  obtain ⟨i, hi, hvalue, -⟩ := h.toPlaced.slot?_assign_self hm key v
  exact ⟨i, hi, hnames hblank _ (h.reach_assign hreach) i hi, hvalue⟩

end Layered

/-! ## Where expressions ended before -/

/-- A store that has come of another one: its first `n` slots are under the keys that
    they were under, and what is new in its first `k` mappings leads away from them. -/
structure Outgrows (s s' : Store R) (n k : Nat) : Prop where
  /-- Slots are where they were. -/
  slots : ∀ m key i, m < k → s'.slot? m key = some i → i < n → s.slot? m key = some i
  /-- Their values are what they were, or lead away. -/
  values : ∀ i < n, s'.valueAt i = s.valueAt i ∨ ∀ id, s'.valueAt i = .mapping id → k ≤ id
  /-- No other mapping leads back to the slots. -/
  members : ∀ id key i, k ≤ id → s'.slot? id key = some i → n ≤ i
  /-- No other slot leads back to the mappings. -/
  others : ∀ i id, n ≤ i → s'.valueAt i = .mapping id → k ≤ id

namespace Outgrows

variable {n k : Nat}

/-- Data that has been made reactive outgrows the store. -/
theorem of_annexes (h : s.Annexes s') : s.Outgrows s' s.slots.size s.mappings.size where
  slots _ key _ hm hi _ := (h.slot? hm key).symm.trans hi
  values _ hi := .inl (h.valueAt hi)
  members id key i hid hi := (h.apart.members id key i hid hi).1
  others i id hi hid := (h.apart.values i id hi hid).1

/-- A write of plain data outgrows the store. -/
theorem of_write (h : s.Annexes s') (hv : s.Outer s' v)
    (hm : m < s.mappings.size) (key : String) :
    s.Outgrows (s'.assign m key v) s.slots.size s.mappings.size where
  slots m' key' t hm' ht hlt := by
    obtain ht | ⟨-, rfl, -⟩ := slot?_assign s' m key v ht
    · rwa [h.slot? hm'] at ht
    · exact absurd hlt (Nat.not_lt.2 h.apart.slots_le)
  values t hlt := by
    obtain hsame | ⟨hvalue, -⟩ := valueAt_assign s' m key v t
    · exact .inl (hsame.trans (h.valueAt hlt))
    · exact .inr fun id hid => (hv id (hvalue.symm.trans hid)).1
  members m' key' t hm' ht := by
    obtain ht | ⟨rfl, -, -⟩ := slot?_assign s' m key v ht
    · exact (h.apart.members m' key' t hm' ht).1
    · exact absurd hm (Nat.not_lt.2 hm')
  others t id hle hid := by
    obtain hsame | ⟨hvalue, -⟩ := valueAt_assign s' m key v t
    · exact (h.apart.values t id hle (hsame.symm.trans hid)).1
    · exact (hv id (hvalue.symm.trans hid)).1

variable (h : s.Outgrows s' n k)

include h

/-- A path that has left the first mappings does not come back to the slots. -/
theorem le_of_mem_walk {path : String} {segments : List String} {v : Value} {i : SlotId}
    (hv : ∀ id, v = .mapping id → k ≤ id) (hi : i ∈ (s'.walk path v segments).1) : n ≤ i :=
  forall_mem_walk h.members h.others path hv i hi

/-- A path that ends at one of the slots has not left the first mappings. -/
theorem not_away_of_walk {path : String} {segments : List String} {v w : Value} {i : SlotId}
    {front : List SlotId} (hi : i < n) (hw : s'.walk path v segments = (front ++ [i], .ok w)) :
    ¬ ∀ id, v = .mapping id → k ≤ id := by
  have hmem : i ∈ (s'.walk path v segments).1 := by
    rw [hw]
    exact List.mem_append_right front List.mem_cons_self
  exact fun haway => absurd hi (Nat.not_lt.2 (h.le_of_mem_walk haway hmem))

/-- A path that ends at one of the slots did so before. -/
theorem walk {path : String} {i : SlotId} (hi : i < n) : ∀ {segments : List String} {v : Value}
    {front : List SlotId}, s'.walk path v segments = (front ++ [i], .ok (s'.valueAt i)) →
      s.walk path v segments = (front ++ [i], .ok (s.valueAt i))
  | [], v, front, hw => by
    rw [walk_nil] at hw
    cases front <;> cases hw
  | segment :: rest, v, front, hw => by
    obtain ⟨id, slot, rfl, hsegment, hslot, hends⟩ := walk_ends hw
    have hid : id < k := Nat.lt_of_not_le fun hle =>
      h.not_away_of_walk hi hw fun _ hid => Value.mapping.inj hid ▸ hle
    rcases hends with ⟨rfl, rfl, rfl⟩ | ⟨front, rfl, hrest⟩
    · rw [walk_cons path [] hsegment (h.slots id segment slot hid hslot hi), walk_nil]
      rfl
    · have hback := h.not_away_of_walk hi hrest
      have hslot' : slot < n := Nat.lt_of_not_le fun hle => hback fun id' => h.others slot id' hle
      have hvalue := (h.values slot hslot').resolve_right hback
      rw [walk_cons path rest hsegment (h.slots id segment slot hid hslot hslot'), ← hvalue,
        walk hi hrest]
      rfl

/-- An expression that ends at one of the slots did so before. -/
theorem names {root : MappingId} {expression : String} {i : SlotId} (hi : i < n)
    (hn : s'.Names root expression i) : s.Names root expression i := by
  obtain ⟨front, hfront⟩ := hn
  refine ⟨front, ?_⟩
  by_cases hblank : Text.trim expression = ""
  · rw [resolve_of_blank hblank] at hfront
    cases congrArg Prod.snd hfront
  · rw [resolve_of_not_blank hblank] at hfront ⊢
    exact h.walk hi hfront

end Outgrows

end DataBinding.Store
