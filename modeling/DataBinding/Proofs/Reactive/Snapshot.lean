/-
  Plain data in a store, and the snapshot of it.

  A store is made of `Cell`s, its slots and its mappings.  `Store.Represents` says
  that a value stands for plain data, and in which cells: one for each mapping and
  one for each member, the value of which stands for the member in turn.  If no
  cell is used twice, the data is a tree, whatever else the store holds.

  * `Represents.frame`: what the cells hold is all that matters;
  * `represents_observe`: plain data made reactive, in new cells;
  * `Represents.toJson?`: the snapshot is the plain data, members in order.
-/
import DataBinding.Proofs.Reactive.Observed
import Mathlib.Data.List.Nodup
import Mathlib.Data.List.Perm.Subperm

namespace DataBinding

variable {R : Type}

/-! ## Cells -/

/-- A part of a store that holds data. -/
inductive Cell where
  /-- A slot. -/
  | slot (i : SlotId)
  /-- A mapping. -/
  | mapping (m : MappingId)

/-- The mapping, if the cell is one. -/
def Cell.mapping? : Cell → Option MappingId
  | slot _ => none
  | mapping m => some m

namespace Store

/-- What a cell holds, if it is there: the value of a slot, or the slots of a
    mapping. -/
def holding? (s : Store R) : Cell → Option (Value ⊕ Keyed SlotId)
  | .slot i => (s.slots[i]?).map fun slot => .inl slot.value
  | .mapping m => (s.mappings[m]?).map .inr

/-- Every cell of a store is there in another one, and holds the same. -/
def Extends (s s' : Store R) : Prop :=
  ∀ c, (s.holding? c).isSome → s'.holding? c = s.holding? c

section

variable {s : Store R} {i : SlotId} {m : MappingId} {v : Value} {slots : Keyed SlotId}

theorem holding_slot (s : Store R) (i : SlotId) :
    s.holding? (.slot i) = (s.slots[i]?).map fun slot => .inl slot.value := rfl

theorem holding_mapping (s : Store R) (m : MappingId) :
    s.holding? (.mapping m) = (s.mappings[m]?).map .inr := rfl

theorem valueAt_of_holding (h : s.holding? (.slot i) = some (.inl v)) : s.valueAt i = v := by
  obtain ⟨slot, hslot, hv⟩ := Option.map_eq_some_iff.1 h
  rw [valueAt_eq, hslot]
  exact Sum.inl.inj hv

theorem members_of_holding (h : s.holding? (.mapping m) = some (.inr slots)) :
    s.members m = slots := by
  obtain ⟨slots', hslots, hv⟩ := Option.map_eq_some_iff.1 h
  rw [members, hslots]
  exact Sum.inr.inj hv

theorem slot?_of_holding (h : s.holding? (.mapping m) = some (.inr slots)) (key : String) :
    s.slot? m key = Keyed.get? slots key := by
  rw [slot?, members_of_holding h]

theorem holding_of_slot? {key : String} (h : s.slot? m key = some i) : ∃ slots,
    s.holding? (.mapping m) = some (.inr slots) ∧ Keyed.get? slots key = some i := by
  rw [slot?, members] at h
  cases hm : s.mappings[m]? with
  | none =>
    rw [hm] at h
    cases h
  | some slots =>
    rw [hm] at h
    exact ⟨slots, by rw [holding_mapping, hm]; rfl, h⟩

theorem lt_of_holding (h : (s.holding? (.mapping m)).isSome) : m < s.mappings.size := by
  by_contra hle
  rw [holding_mapping, Array.getElem?_eq_none (Nat.le_of_not_lt hle)] at h
  cases h

end

/-! ## What operations do to cells -/

section

variable (s : Store R)

theorem holding_newSlot (v : Value) :
    (s.newSlot v).2.holding? (.slot s.slots.size) = some (.inl v) := by
  rw [holding_slot, newSlot, Array.getElem?_push_size]
  rfl

theorem holding_newMapping (slots : Keyed SlotId) :
    (s.newMapping slots).2.holding? (.mapping s.mappings.size) = some (.inr slots) := by
  rw [holding_mapping, newMapping, Array.getElem?_push_size]
  rfl

theorem not_holding_slot : s.holding? (.slot s.slots.size) = none := by
  rw [holding_slot, Array.getElem?_eq_none (Nat.le_refl _)]
  rfl

theorem not_holding_mapping : s.holding? (.mapping s.mappings.size) = none := by
  rw [holding_mapping, Array.getElem?_eq_none (Nat.le_refl _)]
  rfl

theorem holding_subscribe (slot : SlotId) (w : WatcherId) (c : Cell) :
    (s.subscribe slot w).holding? c = s.holding? c := by
  cases c with
  | mapping m => rfl
  | slot i =>
    simp only [holding?, subscribe, Array.getElem?_modify]
    split <;> cases s.slots[i]? <;> rfl

theorem holding_trackAll : ∀ (slots : List SlotId) (s : Store R) (c : Cell),
    (s.trackAll slots).holding? c = s.holding? c
  | [], _, _ => rfl
  | slot :: rest, s, c => by
    have htrack : (s.track slot).holding? c = s.holding? c := by
      unfold track
      split
      · rfl
      · exact holding_subscribe s slot _ c
    exact (holding_trackAll rest (s.track slot) c).trans htrack

end

namespace Extends

variable {s s' s'' : Store R}

theorem refl (s : Store R) : s.Extends s := fun _ _ => rfl

theorem trans (h : s.Extends s') (h' : s'.Extends s'') : s.Extends s'' := by
  intro c hc
  rw [h' c (by rwa [h c hc]), h c hc]

theorem of_eq (h : ∀ c, s'.holding? c = s.holding? c) : s.Extends s' := fun c _ => h c

theorem of_parts (hmappings : s'.mappings = s.mappings) (hslots : s'.slots = s.slots) :
    s.Extends s' := by
  refine of_eq fun c => ?_
  cases c with
  | slot i => rw [holding_slot, holding_slot, hslots]
  | mapping m => rw [holding_mapping, holding_mapping, hmappings]

theorem newSlot (s : Store R) (v : Value) : s.Extends (s.newSlot v).2 := by
  intro c hc
  cases c with
  | mapping m => rfl
  | slot i =>
    rw [holding_slot, holding_slot, Store.newSlot, Array.getElem?_push]
    split
    next hi =>
      rw [hi, not_holding_slot] at hc
      cases hc
    next => rfl

theorem newMapping (s : Store R) (slots : Keyed SlotId) : s.Extends (s.newMapping slots).2 := by
  intro c hc
  cases c with
  | slot i => rfl
  | mapping m =>
    rw [holding_mapping, holding_mapping, Store.newMapping, Array.getElem?_push]
    split
    next hm =>
      rw [hm, not_holding_mapping] at hc
      cases hc
    next => rfl

theorem observe (s : Store R) (j : Json) : s.Extends (s.observe j).2 :=
  observe_keeps (fun s' v h => h.trans (newSlot s' v))
    (fun s' slots h => h.trans (newMapping s' slots)) j (refl s)

theorem observeMembers (s : Store R) (members : List (String × Json)) :
    s.Extends (s.observeMembers members).2 :=
  observeMembers_keeps (fun s' v h => h.trans (newSlot s' v))
    (fun s' slots h => h.trans (newMapping s' slots)) members (refl s)

/-- Keys that have slots keep them. -/
theorem slot? (h : s.Extends s') {m : MappingId} {key : String} {i : SlotId}
    (hslot : s.slot? m key = some i) : s'.slot? m key = some i := by
  obtain ⟨slots, hslots, hi⟩ := holding_of_slot? hslot
  exact (slot?_of_holding ((h _ (by rw [hslots]; rfl)).trans hslots) key).trans hi

/-- Mappings that are there keep their slots. -/
theorem members (h : s.Extends s') {m : MappingId} (hm : m < s.mappings.size) :
    s'.members m = s.members m := by
  have hheld : s.holding? (.mapping m) = some (.inr s.mappings[m]) := by
    rw [holding_mapping, Array.getElem?_eq_getElem hm]
    rfl
  rw [members_of_holding hheld, members_of_holding ((h _ (by rw [hheld]; rfl)).trans hheld)]

/-- Slots that are there keep their values. -/
theorem valueAt (h : s.Extends s') {i : SlotId} (hi : i < s.slots.size) :
    s'.valueAt i = s.valueAt i := by
  have hheld : s.holding? (.slot i) = some (.inl s.slots[i].value) := by
    rw [holding_slot, Array.getElem?_eq_getElem hi]
    rfl
  rw [valueAt_of_holding hheld, valueAt_of_holding ((h _ (by rw [hheld]; rfl)).trans hheld)]

/-- What is not there in the greater store is not there in the smaller one. -/
theorem eq_none (h : s.Extends s') {c : Cell} (hc : s'.holding? c = none) :
    s.holding? c = none := by
  by_contra hne
  have hsome := Option.isSome_iff_ne_none.2 hne
  exact hne ((h c hsome).symm.trans hc)

end Extends

/-! ## Plain data in cells -/

mutual

/-- In a store, a value stands for plain data, which is held in the cells. -/
inductive Represents (s : Store R) : Json → Value → List Cell → Prop
  /-- Null. -/
  | null : Represents s .null .null []
  /-- A boolean. -/
  | bool (b : Bool) : Represents s (.bool b) (.bool b) []
  /-- A number. -/
  | number (n : Number) : Represents s (.number n) (.number n) []
  /-- A string. -/
  | string (t : String) : Represents s (.string t) (.string t) []
  /-- A sequence. -/
  | array (items : List Json) : Represents s (.array items) (.array items) []
  /-- A mapping. -/
  | object {members m slots cells} (hm : s.holding? (.mapping m) = some (.inr slots))
    (h : RepresentsMembers s members slots cells) :
    Represents s (.object members) (.mapping m) (.mapping m :: cells)

/-- In a store, slots by key stand for members, in the same order. -/
inductive RepresentsMembers (s : Store R) : List (String × Json) → Keyed SlotId → List Cell → Prop
  /-- No members. -/
  | nil : RepresentsMembers s [] [] []
  /-- A member and the others. -/
  | cons {key j rest i v slots own others} (hi : s.holding? (.slot i) = some (.inl v))
    (h : Represents s j v own) (hrest : RepresentsMembers s rest slots others) :
    RepresentsMembers s ((key, j) :: rest) ((key, i) :: slots) (.slot i :: (own ++ others))

end

section

variable {s s' : Store R}

mutual

/-- What the cells hold is all that matters. -/
theorem Represents.frame : ∀ {j : Json} {v : Value} {cells : List Cell}, s.Represents j v cells →
    (∀ c ∈ cells, s'.holding? c = s.holding? c) → s'.Represents j v cells
  | _, _, _, .null, _ => .null
  | _, _, _, .bool b, _ => .bool b
  | _, _, _, .number n, _ => .number n
  | _, _, _, .string t, _ => .string t
  | _, _, _, .array items, _ => .array items
  | _, _, _, .object hm h, hframe => by
    obtain ⟨hself, hbelow⟩ := List.forall_mem_cons.1 hframe
    exact .object (hself.trans hm) (h.frame hbelow)

theorem RepresentsMembers.frame : ∀ {members : List (String × Json)} {slots : Keyed SlotId}
    {cells : List Cell}, s.RepresentsMembers members slots cells →
    (∀ c ∈ cells, s'.holding? c = s.holding? c) → s'.RepresentsMembers members slots cells
  | _, _, _, .nil, _ => .nil
  | _, _, _, .cons hi h hrest, hframe => by
    obtain ⟨hself, hbelow⟩ := List.forall_mem_cons.1 hframe
    obtain ⟨hown, hothers⟩ := List.forall_mem_append.1 hbelow
    exact .cons (hself.trans hi) (h.frame hown) (hrest.frame hothers)

end

mutual

/-- The cells are there. -/
theorem Represents.present : ∀ {j : Json} {v : Value} {cells : List Cell},
    s.Represents j v cells → ∀ c ∈ cells, (s.holding? c).isSome
  | _, _, _, .null | _, _, _, .bool _ | _, _, _, .number _ | _, _, _, .string _
  | _, _, _, .array _ => fun _ => nofun
  | _, _, _, .object hm h => List.forall_mem_cons.2 ⟨by rw [hm]; rfl, h.present⟩

theorem RepresentsMembers.present : ∀ {members : List (String × Json)} {slots : Keyed SlotId}
    {cells : List Cell}, s.RepresentsMembers members slots cells →
    ∀ c ∈ cells, (s.holding? c).isSome
  | _, _, _, .nil => fun _ => nofun
  | _, _, _, .cons hi h hrest => List.forall_mem_cons.2
    ⟨by rw [hi]; rfl, List.forall_mem_append.2 ⟨h.present, hrest.present⟩⟩

end

theorem Represents.of_extends {j : Json} {v : Value} {cells : List Cell}
    (h : s.Represents j v cells) (hs : s.Extends s') : s'.Represents j v cells :=
  h.frame fun c hc => hs c (h.present c hc)

/-! ## Plain data made reactive -/

mutual

/-- Plain data made reactive is held in new cells. -/
theorem represents_observe : ∀ (j : Json) (s : Store R), ∃ cells,
    (s.observe j).2.Represents j (s.observe j).1 cells ∧ cells.Nodup ∧
      ∀ c ∈ cells, s.holding? c = none
  | .null, s => ⟨[], .null, .nil, fun _ => nofun⟩
  | .bool b, s => ⟨[], .bool b, .nil, fun _ => nofun⟩
  | .number n, s => ⟨[], .number n, .nil, fun _ => nofun⟩
  | .string t, s => ⟨[], .string t, .nil, fun _ => nofun⟩
  | .array items, s => ⟨[], .array items, .nil, fun _ => nofun⟩
  | .object members, s => by
    obtain ⟨cells, h, hnodup, hnew⟩ := represents_observeMembers members s
    generalize hs' : (s.observeMembers members).2 = s' at h
    have hs : s.Extends s' := hs' ▸ Extends.observeMembers s members
    refine ⟨.mapping s'.mappings.size :: cells, ?_, ?_, ?_⟩
    · change (Store.newMapping (s.observeMembers members).2 _).2.Represents _
        (.mapping (s.observeMembers members).2.mappings.size) _
      rw [hs']
      exact .object (holding_newMapping s' _) (h.frame fun c hc =>
        Extends.newMapping s' _ c (h.present c hc))
    · refine List.nodup_cons.2 ⟨fun hmem => ?_, hnodup⟩
      exact Option.isSome_iff_ne_none.1 (h.present _ hmem) (not_holding_mapping s')
    · exact List.forall_mem_cons.2 ⟨hs.eq_none (not_holding_mapping s'), hnew⟩

theorem represents_observeMembers : ∀ (members : List (String × Json)) (s : Store R), ∃ cells,
    (s.observeMembers members).2.RepresentsMembers members (s.observeMembers members).1 cells ∧
      cells.Nodup ∧ ∀ c ∈ cells, s.holding? c = none
  | [], s => ⟨[], .nil, .nil, fun _ => nofun⟩
  | (key, j) :: rest, s => by
    obtain ⟨own, h, hnodup, hnew⟩ := represents_observe j s
    obtain ⟨others, hrest, hnodup', hnew'⟩ := represents_observeMembers rest
      ((s.observe j).2.newSlot (s.observe j).1).2
    have hs₁ : s.Extends (s.observe j).2 := .observe s j
    generalize hv : (s.observe j).1 = v at h hrest hnew'
    generalize hs : (s.observe j).2 = s₁ at h hrest hnew' hs₁
    have hs₂ : s₁.Extends (s₁.newSlot v).2 := .newSlot s₁ v
    have hs₃ : (s₁.newSlot v).2.Extends _ := .observeMembers _ rest
    refine ⟨.slot s₁.slots.size :: (own ++ others), ?_, ?_, ?_⟩
    · rw [observeMembers]
      dsimp only
      rw [hv, hs]
      refine .cons ?_ ((h.of_extends hs₂).of_extends hs₃) hrest
      rw [hs₃ _ (by rw [show (s₁.newSlot v).1 = s₁.slots.size from rfl, holding_newSlot]; rfl)]
      exact holding_newSlot s₁ v
    · have hdisjoint : own.Disjoint others := fun c hown hothers => by
        have hpresent := h.present c hown
        rw [← hs₂ c hpresent, hnew' c hothers] at hpresent
        cases hpresent
      refine List.nodup_cons.2 ⟨fun hmem => ?_, hnodup.append hnodup' hdisjoint⟩
      rcases List.mem_append.1 hmem with hown | hothers
      · exact Option.isSome_iff_ne_none.1 (h.present _ hown) (not_holding_slot s₁)
      · have hnone := hnew' _ hothers
        rw [holding_newSlot] at hnone
        cases hnone
    · refine List.forall_mem_cons.2 ⟨hs₁.eq_none (not_holding_slot s₁), ?_⟩
      exact List.forall_mem_append.2 ⟨hnew, fun c hc => hs₁.eq_none (hs₂.eq_none (hnew' c hc))⟩

end

/-! ## Snapshots -/

mutual

/-- With a bound for every mapping, the snapshot is what is represented. -/
theorem Represents.toJsonWithin? : ∀ {j : Json} {v : Value} {cells : List Cell} {fuel : Nat},
    s.Represents j v cells → (cells.filterMap Cell.mapping?).length ≤ fuel →
      s.toJsonWithin? fuel v = some j
  | _, _, _, fuel, .null, _ => by cases fuel <;> rfl
  | _, _, _, fuel, .bool b, _ => by cases fuel <;> rfl
  | _, _, _, fuel, .number n, _ => by cases fuel <;> rfl
  | _, _, _, fuel, .string t, _ => by cases fuel <;> rfl
  | _, _, _, fuel, .array items, _ => by cases fuel <;> rfl
  | _, _, _, 0, .object _ _, hfuel => nomatch hfuel
  | _, _, _, fuel + 1, .object hm h, hfuel => by
    rw [Store.toJsonWithin?, members_of_holding hm, h.mapM (Nat.le_of_succ_le_succ hfuel)]
    rfl

theorem RepresentsMembers.mapM : ∀ {members : List (String × Json)} {slots : Keyed SlotId}
    {cells : List Cell} {fuel : Nat}, s.RepresentsMembers members slots cells →
    (cells.filterMap Cell.mapping?).length ≤ fuel →
      (slots.mapM fun entry => (s.toJsonWithin? fuel (s.valueAt entry.2)).map fun j => (entry.1, j)) =
        some members
  | _, _, _, _, .nil, _ => rfl
  | _, _, _, fuel, .cons hi h hrest, hfuel => by
    rw [List.filterMap_cons, List.filterMap_append] at hfuel
    dsimp only [Cell.mapping?] at hfuel
    rw [List.length_append] at hfuel
    rw [List.mapM_cons, valueAt_of_holding hi, h.toJsonWithin? (by omega),
      hrest.mapM (by omega)]
    rfl

end

/-- No more mappings are used than there are. -/
theorem length_mappings_le {cells : List Cell} (hnodup : cells.Nodup)
    (hpresent : ∀ c ∈ cells, (s.holding? c).isSome) :
    (cells.filterMap Cell.mapping?).length ≤ s.mappings.size := by
  have hunique : (cells.filterMap Cell.mapping?).Nodup := by
    refine hnodup.filterMap fun c c' m hc hc' => ?_
    cases c <;> cases hc
    cases c' <;> cases hc'
    rfl
  have hsub : cells.filterMap Cell.mapping? ⊆ List.range s.mappings.size := by
    intro m hm
    obtain ⟨c, hc, hcm⟩ := List.mem_filterMap.1 hm
    cases c <;> cases hcm
    exact List.mem_range.2 (lt_of_holding (hpresent _ hc))
  have hlength := (List.subperm_of_subset hunique hsub).length_le
  rwa [List.length_range] at hlength

/-- **The snapshot** of a tree is the plain data that it stands for. -/
theorem Represents.toJson? {j : Json} {v : Value} {cells : List Cell}
    (h : s.Represents j v cells) (hnodup : cells.Nodup) : s.toJson? v = some j :=
  h.toJsonWithin? (Nat.le_succ_of_le (length_mappings_le hnodup h.present))

end

end Store

end DataBinding
