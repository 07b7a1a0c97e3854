/-
  Writes to reactive data are writes to plain data.

  `Store.reach` follows keys from a mapping to a mapping, `Json.put?` writes below
  plain data: a present key keeps its place and takes the new value, an absent
  one is appended last.

  * `Store.holding_assign`: what a write changes, whichever of its three forms it
    has;
  * `Represents.assign`: a write at a mapping of a tree is the write below the
    plain data, and leaves a tree;
  * `Program.snapshot_of_writes`: after any writes below a tree, made among
    programs that write nothing, the snapshot is the plain data written alike.
-/
import DataBinding.Proofs.Reactive.Invariants
import DataBinding.Proofs.Reactive.Snapshot

namespace DataBinding

variable {R : Type}

theorem perm_insert_block {α : Type} (block : List α) {xs old front rest : List α}
    (h : xs.Perm (old ++ (front ++ rest))) :
    (block ++ xs).Perm (old ++ (block ++ front ++ rest)) := by
  rw [List.append_assoc]
  exact (h.append_left block).trans (List.perm_append_comm_assoc _ _ _)

/-- What stands in the place of a block after the first elements may stand at the end. -/
theorem perm_block_last {α : Type} (x y : α) (front block rest : List α) :
    (x :: (front ++ (y :: block ++ rest))).Perm (x :: y :: (front ++ rest) ++ block) := by
  have hlast : (front ++ (block ++ rest)).Perm (front ++ rest ++ block) := by
    rw [List.append_assoc]
    exact List.perm_append_comm.append_left front
  exact (List.perm_middle.trans (hlast.cons y)).cons x

/-! ## Entries by key -/

namespace Keyed

theorem put_of_get? {α : Type} {entries : Keyed α} {key : String} {a : α}
    (h : get? entries key = some a) : put entries key a = entries := by
  induction entries with
  | nil => cases h
  | cons entry rest ih =>
    obtain ⟨k, b⟩ := entry
    rw [get?] at h
    rw [put]
    split at h
    next hk =>
      obtain rfl := Option.some.inj h
      rw [if_pos hk]
    next hk => rw [if_neg hk, ih h]

end Keyed

/-! ## Writes below -/

/-- Write a member of the mapping to which the keys lead, if they lead to one. -/
def Json.put? (key : String) (new : Json) : List String → Json → Option Json
  | [], .object members => some (.object (Keyed.put members key new))
  | step :: path, .object members =>
    (Keyed.get? members step).bind fun j =>
      (put? key new path j).map fun j' => .object (Keyed.put members step j')
  | _, _ => none

namespace Store

/-- The mapping to which the keys lead, if they lead to one. -/
def reach (s : Store R) : List String → Value → Option MappingId
  | [], .mapping m => some m
  | step :: path, .mapping m => (s.slot? m step).bind fun i => s.reach path (s.valueAt i)
  | _, _ => none

theorem exists_mapping_of_reach {s : Store R} {path : List String} {v : Value} {m : MappingId}
    (h : s.reach path v = some m) : ∃ id, v = .mapping id := by
  cases v with
  | mapping id => exact ⟨id, rfl⟩
  | _ => cases path <;> cases h

/-- Keys lead on from a mapping through the slot under the first one. -/
theorem reach_cons {s : Store R} {step : String} {path : List String} {root m : MappingId}
    (h : s.reach (step :: path) (.mapping root) = some m) : ∃ i id,
      s.slot? root step = some i ∧ s.valueAt i = .mapping id ∧
        s.reach path (.mapping id) = some m := by
  obtain ⟨i, hi, h⟩ := Option.bind_eq_some_iff.1 h
  obtain ⟨id, hid⟩ := exists_mapping_of_reach h
  exact ⟨i, id, hi, hid, hid ▸ h⟩

/-- What a write under a key changes before anything is notified. -/
def assign (s : Store R) (m : MappingId) (key : String) (v : Value) : Store R :=
  match s.slot? m key with
  | none => s.install m key v
  | some i => (if v.isMapping then s.install m key v else s).write i v

/-! ## What writes do to cells -/

section

variable (s : Store R) (m : MappingId) (key : String) (v : Value)

theorem holding_install_slot :
    (s.install m key v).holding? (.slot s.slots.size) = some (.inl v) :=
  holding_newSlot s v

theorem holding_install_mapping {slots : Keyed SlotId}
    (h : s.holding? (.mapping m) = some (.inr slots)) :
    (s.install m key v).holding? (.mapping m) =
      some (.inr (Keyed.put slots key s.slots.size)) := by
  obtain ⟨slots', hslots, hv⟩ := Option.map_eq_some_iff.1 h
  obtain rfl := Sum.inr.inj hv
  simp only [holding_mapping, install, newSlot, Array.getElem?_modify, if_pos, hslots]
  rfl

theorem holding_install_other {c : Cell} (hc : (s.holding? c).isSome) (hm : c ≠ .mapping m) :
    (s.install m key v).holding? c = s.holding? c := by
  cases c with
  | slot i => exact Extends.newSlot s v _ hc
  | mapping m' =>
    have hne : m ≠ m' := fun h => hm (congrArg _ h.symm)
    simp only [holding_mapping, install, newSlot, Array.getElem?_modify, if_neg hne]

theorem holding_write_self {i : SlotId} (h : (s.holding? (.slot i)).isSome) :
    (s.write i v).holding? (.slot i) = some (.inl v) := by
  obtain ⟨x, hx⟩ := Option.isSome_iff_exists.1 h
  obtain ⟨slot, hslot, -⟩ := Option.map_eq_some_iff.1 hx
  simp only [holding_slot, write, Array.getElem?_modify, if_pos, hslot]
  rfl

theorem holding_write_other {i : SlotId} {c : Cell} (hc : c ≠ .slot i) :
    (s.write i v).holding? c = s.holding? c := by
  cases c with
  | mapping m' => rfl
  | slot i' =>
    have hne : i ≠ i' := fun h => hc (congrArg _ h.symm)
    simp only [holding_slot, write, Array.getElem?_modify, if_neg hne]

/-- After a write to a mapping, a slot that is its own there, or is new, holds the
    value and is put under the key; nothing is changed but the mapping and the slot
    that was under the key. -/
theorem holding_assign {slots : Keyed SlotId} (hm : s.holding? (.mapping m) = some (.inr slots))
    (hslots : ∀ i, Keyed.get? slots key = some i → (s.holding? (.slot i)).isSome) :
    ∃ i, (Keyed.get? slots key = some i ∨ s.holding? (.slot i) = none) ∧
      (s.assign m key v).holding? (.slot i) = some (.inl v) ∧
      (s.assign m key v).holding? (.mapping m) = some (.inr (Keyed.put slots key i)) ∧
      ∀ c, (s.holding? c).isSome → c ≠ .mapping m →
        (∀ i, Keyed.get? slots key = some i → c ≠ .slot i) →
        (s.assign m key v).holding? c = s.holding? c := by
  unfold assign
  rw [slot?_of_holding hm]
  cases hold : Keyed.get? slots key with
  | none =>
    refine ⟨s.slots.size, .inr (not_holding_slot s), holding_install_slot s m key v,
      holding_install_mapping s m key v hm, fun c hc hcm _ => holding_install_other s m key v hc hcm⟩
  | some i =>
    dsimp only
    have hi := hslots i hold
    split
    · have hne : Cell.slot s.slots.size ≠ .slot i := fun h =>
        Option.isSome_iff_ne_none.1 hi (h ▸ not_holding_slot s)
      refine ⟨s.slots.size, .inr (not_holding_slot s), ?_, ?_, fun c hc hcm hci => ?_⟩
      · rw [holding_write_other _ _ hne, holding_install_slot]
      · rw [holding_write_other _ _ (by nofun), holding_install_mapping s m key v hm]
      · rw [holding_write_other _ _ (hci i rfl), holding_install_other s m key v hc hcm]
    · refine ⟨i, .inl rfl, holding_write_self s v hi, ?_, fun c _ _ hci => ?_⟩
      · rw [Keyed.put_of_get? hold]
        exact hm
      · exact holding_write_other s v (hci i rfl)

end

/-! ## Trees -/

section

variable {s s' : Store R}

theorem RepresentsMembers.append : ∀ {members members' : List (String × Json)}
    {slots slots' : Keyed SlotId} {cells cells' : List Cell},
    s.RepresentsMembers members slots cells → s.RepresentsMembers members' slots' cells' →
      s.RepresentsMembers (members ++ members') (slots ++ slots') (cells ++ cells')
  | _, _, _, _, _, _, .nil, h' => h'
  | _, _, _, _, _, _, .cons hi h hrest, h' => by
    simp only [List.cons_append, List.append_assoc]
    exact .cons hi h (hrest.append h')

/-- Members taken apart at a key: what comes before and after it, and what is there,
    if it is present. -/
structure Beside (s : Store R) (key : String) (members : List (String × Json))
    (slots : Keyed SlotId) (cells : List Cell) where
  /-- The members before the key. -/
  front : List (String × Json)
  /-- The members after it. -/
  rest : List (String × Json)
  /-- The slots before it. -/
  frontSlots : Keyed SlotId
  /-- The slots after it. -/
  restSlots : Keyed SlotId
  /-- The cells before it. -/
  frontCells : List Cell
  /-- The cells after it. -/
  restCells : List Cell
  /-- The cells of the member that is there. -/
  old : List Cell
  put_members : ∀ j, Keyed.put members key j = front ++ (key, j) :: rest
  put_slots : ∀ i, Keyed.put slots key i = frontSlots ++ (key, i) :: restSlots
  represents_front : s.RepresentsMembers front frontSlots frontCells
  represents_rest : s.RepresentsMembers rest restSlots restCells
  perm : cells.Perm (old ++ (frontCells ++ restCells))
  get?_slots : Keyed.get? slots key = none → Keyed.get? members key = none
  represents_old : ∀ i, Keyed.get? slots key = some i → ∃ j own, Keyed.get? members key = some j ∧
    old = .slot i :: own ∧ s.holding? (.slot i) = some (.inl (s.valueAt i)) ∧
    s.Represents j (s.valueAt i) own

theorem RepresentsMembers.beside (key : String) : ∀ {members : List (String × Json)}
    {slots : Keyed SlotId} {cells : List Cell}, s.RepresentsMembers members slots cells →
    Nonempty (s.Beside key members slots cells)
  | [], _, _, h => by
    cases h
    exact ⟨{
      front := []
      rest := []
      frontSlots := []
      restSlots := []
      frontCells := []
      restCells := []
      old := []
      put_members := fun _ => rfl
      put_slots := fun _ => rfl
      represents_front := .nil
      represents_rest := .nil
      perm := .nil
      get?_slots := fun _ => rfl
      represents_old := fun _ hi => by cases hi }⟩
  | (k, j) :: rest, _, _, h => by
    cases h with
    | @cons _ _ _ i v slots own others hi h hrest =>
      by_cases hk : k = key
      · obtain rfl := valueAt_of_holding hi
        exact ⟨{
          front := []
          rest := rest
          frontSlots := []
          restSlots := slots
          frontCells := []
          restCells := others
          old := .slot i :: own
          put_members := fun _ => by rw [Keyed.put, if_pos hk, hk]; rfl
          put_slots := fun _ => by rw [Keyed.put, if_pos hk, hk]; rfl
          represents_front := .nil
          represents_rest := hrest
          perm := .refl _
          get?_slots := fun hnone => by rw [Keyed.get?, if_pos hk] at hnone; cases hnone
          represents_old := fun i' hi' => by
            rw [Keyed.get?, if_pos hk] at hi'
            obtain rfl := Option.some.inj hi'
            exact ⟨j, own, by rw [Keyed.get?, if_pos hk], rfl, hi, h⟩ }⟩
      · obtain ⟨b⟩ := hrest.beside key
        exact ⟨{ b with
          front := (k, j) :: b.front
          frontSlots := (k, i) :: b.frontSlots
          frontCells := .slot i :: (own ++ b.frontCells)
          put_members := fun _ => by rw [Keyed.put, if_neg hk, b.put_members]; rfl
          put_slots := fun _ => by rw [Keyed.put, if_neg hk, b.put_slots]; rfl
          represents_front := .cons hi h b.represents_front
          perm := perm_insert_block (Cell.slot i :: own) b.perm
          get?_slots := by rw [Keyed.get?, Keyed.get?, if_neg hk, if_neg hk]; exact b.get?_slots
          represents_old := by
            rw [Keyed.get?, Keyed.get?, if_neg hk, if_neg hk]
            exact b.represents_old }⟩

theorem RepresentsMembers.slot_mem {members : List (String × Json)} {slots : Keyed SlotId}
    {cells : List Cell} (h : s.RepresentsMembers members slots cells) {key : String} {i : SlotId}
    (hi : Keyed.get? slots key = some i) : .slot i ∈ cells := by
  obtain ⟨b⟩ := h.beside key
  obtain ⟨_, _, -, hold, -⟩ := b.represents_old i hi
  exact b.perm.mem_iff.2 (by simp [hold])

/-- Another member at the key, beside the same ones. -/
theorem Beside.put {key : String} {members : List (String × Json)} {slots : Keyed SlotId}
    {cells own : List Cell} (b : s.Beside key members slots cells) {i : SlotId} {j : Json} {v : Value}
    (hframe : ∀ c ∈ b.frontCells ++ b.restCells, s'.holding? c = s.holding? c)
    (hi : s'.holding? (.slot i) = some (.inl v)) (h : s'.Represents j v own) :
    s'.RepresentsMembers (Keyed.put members key j) (Keyed.put slots key i)
      (b.frontCells ++ (.slot i :: own ++ b.restCells)) := by
  rw [b.put_members, b.put_slots]
  have hfront := b.represents_front.frame fun c hc => hframe c (List.mem_append_left _ hc)
  have hrest := b.represents_rest.frame fun c hc => hframe c (List.mem_append_right _ hc)
  exact hfront.append (.cons hi h hrest)

/-- The mapping to which keys lead, and the slots in it, are cells of the data. -/
theorem Represents.mem_of_reach : ∀ {path : List String} {j : Json} {v : Value} {cells : List Cell}
    {m : MappingId}, s.Represents j v cells → s.reach path v = some m →
    ∃ slots, s.holding? (.mapping m) = some (.inr slots) ∧ .mapping m ∈ cells ∧
      ∀ key i, Keyed.get? slots key = some i → .slot i ∈ cells
  | [], _, _, _, m, h, hreach => by
    cases h with
    | @object members m' slots cells hm h =>
      obtain rfl := Option.some.inj hreach
      refine ⟨slots, hm, List.mem_cons_self, fun key i hi => List.mem_cons_of_mem _ ?_⟩
      exact h.slot_mem hi
    | _ => cases hreach
  | step :: path, _, _, _, m, h, hreach => by
    cases h with
    | @object members m' slots cells hm h =>
      rw [reach, slot?_of_holding hm] at hreach
      obtain ⟨i, hi, hreach⟩ := Option.bind_eq_some_iff.1 hreach
      obtain ⟨b⟩ := h.beside step
      obtain ⟨_, own, -, hold, -, hown⟩ := b.represents_old i hi
      obtain ⟨slots', hm', hmem, hslots⟩ := hown.mem_of_reach hreach
      have hsub : ∀ c ∈ own, c ∈ Cell.mapping m' :: cells := fun c hc =>
        List.mem_cons_of_mem _ (b.perm.mem_iff.2 (by simp [hold, hc]))
      exact ⟨slots', hm', hsub _ hmem, fun key i hget => hsub _ (hslots key i hget)⟩
    | _ => cases hreach

/-- A write at a mapping to which keys lead changes nothing beside the data. -/
theorem Represents.assign_other {path : List String} {j : Json} {v w : Value} {cells : List Cell}
    {m : MappingId} {key : String} (h : s.Represents j v cells) (hreach : s.reach path v = some m)
    {c : Cell} (hc : (s.holding? c).isSome) (hnot : c ∉ cells) :
    (s.assign m key w).holding? c = s.holding? c := by
  obtain ⟨slots, hm, hmem, hslots⟩ := h.mem_of_reach hreach
  obtain ⟨_, -, -, -, hother⟩ := s.holding_assign m key w hm fun i hi =>
    h.present _ (hslots key i hi)
  exact hother c hc (fun h => hnot (h ▸ hmem)) fun i hi h => hnot (h ▸ hslots key i hi)

/-- What is beside the data, and beside the new value, stays, and is beside the cells that
    the write leaves. -/
theorem Represents.outside_assign {path : List String} {j : Json} {v w : Value}
    {cells cells' own : List Cell} {m : MappingId} {key : String} (h : s.Represents j v cells)
    (hreach : s.reach path v = some m)
    (hamong : ∀ c ∈ cells', c ∈ cells ∨ c ∈ own ∨ s.holding? c = none) {c : Cell}
    (hc : (s.holding? c).isSome) (hcells : c ∉ cells) (hown : c ∉ own) :
    (s.assign m key w).holding? c = s.holding? c ∧ c ∉ cells' := by
  refine ⟨h.assign_other hreach hc hcells, fun hc' => ?_⟩
  rcases hamong c hc' with hc' | hc' | hnone
  · exact hcells hc'
  · exact hown hc'
  · exact Option.isSome_iff_ne_none.1 hc hnone

/-- A write in a mapping is one in the members. -/
theorem RepresentsMembers.assign {members : List (String × Json)} {slots : Keyed SlotId}
    {cells own : List Cell} {m : MappingId} {key : String} {new : Json} {w : Value}
    (hm : s.holding? (.mapping m) = some (.inr slots)) (h : s.RepresentsMembers members slots cells)
    (hnodup : (.mapping m :: cells).Nodup) (hnew : s.Represents new w own) (hown : own.Nodup)
    (hdisjoint : (.mapping m :: cells).Disjoint own) :
    ∃ slots' cells', (s.assign m key w).holding? (.mapping m) = some (.inr slots') ∧
      (s.assign m key w).RepresentsMembers (Keyed.put members key new) slots' cells' ∧
      (.mapping m :: cells').Nodup ∧ ∀ c ∈ cells', c ∈ cells ∨ c ∈ own ∨ s.holding? c = none := by
  obtain ⟨i, hi, hvalue, hmapping, hother⟩ := s.holding_assign m key w hm fun i hi =>
    h.present _ (h.slot_mem hi)
  obtain ⟨b⟩ := h.beside key
  have hcells := b.perm.nodup_iff.1 (List.nodup_cons.1 hnodup).2
  -- the cells beside the key are none of the old ones
  have hbeside : ∀ c ∈ b.frontCells ++ b.restCells, c ∈ cells ∧ c ≠ .mapping m ∧
      ∀ i, Keyed.get? slots key = some i → c ≠ .slot i := by
    intro c hc
    have hmem : c ∈ cells := b.perm.mem_iff.2 (List.mem_append_right _ hc)
    refine ⟨hmem, fun h => (List.nodup_cons.1 hnodup).1 (h ▸ hmem), fun i hi h => ?_⟩
    obtain ⟨_, _, -, hold, -⟩ := b.represents_old i hi
    exact List.disjoint_of_nodup_append hcells (by rw [hold, h]; exact List.mem_cons_self) hc
  have hframe : ∀ c ∈ b.frontCells ++ b.restCells,
      (s.assign m key w).holding? c = s.holding? c := fun c hc =>
    hother c (h.present c (hbeside c hc).1) (hbeside c hc).2.1 (hbeside c hc).2.2
  have hnew' : (s.assign m key w).Represents new w own := hnew.frame fun c hc =>
    hother c (hnew.present c hc) (fun h => hdisjoint (h ▸ List.mem_cons_self) hc) fun i hi hc' =>
      hdisjoint (List.mem_cons_of_mem _ (hc' ▸ h.slot_mem hi)) hc
  -- the slot of the value is the old one, or none of those there were
  have hunused : ∀ c ∈ b.frontCells ++ b.restCells ++ own, c ≠ .slot i := by
    rintro c hc rfl
    rcases hi with hi | hi
    · rcases List.mem_append.1 hc with hc | hc
      · exact (hbeside _ hc).2.2 i hi rfl
      · exact hdisjoint (List.mem_cons_of_mem _ (h.slot_mem hi)) hc
    · refine Option.isSome_iff_ne_none.1 ?_ hi
      rcases List.mem_append.1 hc with hc | hc
      · exact h.present _ (hbeside _ hc).1
      · exact hnew.present _ hc
  refine ⟨_, _, hmapping, b.put hframe hvalue hnew',
    (perm_block_last _ _ b.frontCells own b.restCells).nodup_iff.2
      (List.nodup_append'.2 ⟨?_, hown, fun c hc hc' => ?_⟩), fun c hc => ?_⟩
  · refine List.nodup_cons.2 ⟨fun hmem => ?_, List.nodup_cons.2 ⟨fun hmem => ?_, hcells.of_append_right⟩⟩
    · exact (hbeside _ ((List.mem_cons.1 hmem).resolve_left nofun)).2.1 rfl
    · exact hunused _ (List.mem_append_left _ hmem) rfl
  · rcases List.mem_cons.1 hc with rfl | hc
    · exact hdisjoint List.mem_cons_self hc'
    rcases List.mem_cons.1 hc with rfl | hc
    · exact hunused _ (List.mem_append_right _ hc') rfl
    · exact hdisjoint (List.mem_cons_of_mem _ (hbeside c hc).1) hc'
  · rcases List.mem_append.1 ((List.perm_append_comm_assoc ..).mem_iff.1 hc) with hc | hc
    · rcases List.mem_cons.1 hc with rfl | hc
      · exact hi.elim (fun hi => .inl (h.slot_mem hi)) fun hi => .inr (.inr hi)
      · exact .inr (.inl hc)
    · exact .inl (hbeside c hc).1

/-- **A write at a mapping of a tree** is the write below the plain data, and leaves
    a tree. -/
theorem Represents.assign {m : MappingId} {key : String} {new : Json} {w : Value}
    {own : List Cell} (hnew : s.Represents new w own) (hown : own.Nodup) :
    ∀ {path : List String} {j : Json} {v : Value} {cells : List Cell}, s.Represents j v cells →
    cells.Nodup → cells.Disjoint own → s.reach path v = some m →
    ∃ j' cells', Json.put? key new path j = some j' ∧ (s.assign m key w).Represents j' v cells' ∧
      cells'.Nodup ∧ ∀ c ∈ cells', c ∈ cells ∨ c ∈ own ∨ s.holding? c = none
  | [], _, _, _, h, hnodup, hdisjoint, hreach => by
    cases h with
    | @object members m' slots cells hm h =>
      obtain rfl := Option.some.inj hreach
      obtain ⟨slots', cells', hm', h', hnodup', hamong⟩ :=
        h.assign hm hnodup hnew hown hdisjoint
      refine ⟨_, _, rfl, .object hm' h', hnodup', List.forall_mem_cons.2 ⟨?_, fun c hc => ?_⟩⟩
      · exact .inl List.mem_cons_self
      · exact (hamong c hc).imp_left (List.mem_cons_of_mem _)
    | _ => cases hreach
  | step :: path, _, _, _, h, hnodup, hdisjoint, hreach => by
    cases h with
    | @object members m' slots cells hm h =>
      rw [reach, slot?_of_holding hm] at hreach
      obtain ⟨i, hi, hreach⟩ := Option.bind_eq_some_iff.1 hreach
      obtain ⟨b⟩ := h.beside step
      obtain ⟨j₁, old, hj₁, hold, hheld, h₁⟩ := b.represents_old i hi
      -- the cells of the member, and those outside it
      have hperm : (Cell.mapping m' :: cells).Perm
          (old ++ .mapping m' :: .slot i :: (b.frontCells ++ b.restCells)) := by
        refine (b.perm.cons _).trans ?_
        rw [hold]
        exact List.perm_append_comm_assoc [.mapping m', .slot i] old _
      obtain ⟨hnodup₁, hnodup₂, hapart⟩ := List.nodup_append'.1 (hperm.nodup_iff.1 hnodup)
      obtain ⟨j', cells', hj', h', hnodup', hamong⟩ := hnew.assign hown h₁ hnodup₁
        (fun c hc => hdisjoint (hperm.mem_iff.2 (List.mem_append_left _ hc))) hreach
      have houtside : ∀ c ∈ .mapping m' :: .slot i :: (b.frontCells ++ b.restCells),
          (s.assign m key w).holding? c = s.holding? c ∧ c ∉ cells' := by
        intro c hc
        have hmem := hperm.mem_iff.2 (List.mem_append_right _ hc)
        exact h₁.outside_assign hreach hamong ((Represents.object hm h).present c hmem)
          (fun hc' => hapart hc' hc) (hdisjoint hmem)
      obtain ⟨hmapping, hrest⟩ := List.forall_mem_cons.1 houtside
      obtain ⟨hslot, hbeside⟩ := List.forall_mem_cons.1 hrest
      have hmapping' : (s.assign m key w).holding? (.mapping m') =
          some (.inr (Keyed.put slots step i)) := by
        rw [hmapping.1, hm, Keyed.put_of_get? hi]
      have hperm' := perm_block_last (.mapping m') (.slot i) b.frontCells cells' b.restCells
      refine ⟨_, _, by rw [Json.put?, hj₁, Option.bind_some, hj']; rfl, .object hmapping'
        (b.put (fun c hc => (hbeside c hc).1) (hslot.1.trans hheld) h'),
        hperm'.nodup_iff.2 (List.nodup_append'.2
          ⟨hnodup₂, hnodup', fun c hc => (houtside c hc).2⟩), fun c hc => ?_⟩
      rcases List.mem_append.1 (hperm'.mem_iff.1 hc) with hc | hc
      · exact .inl (hperm.mem_iff.2 (List.mem_append_right _ hc))
      · exact (hamong c hc).imp_left fun hc => hperm.mem_iff.2 (List.mem_append_left _ hc)
    | _ => cases hreach

/-- Where keys lead to no mapping, there is none in the plain data either. -/
theorem Represents.put?_of_unreached {key : String} {new : Json} : ∀ {path : List String} {j : Json}
    {v : Value} {cells : List Cell}, s.Represents j v cells → s.reach path v = none →
    Json.put? key new path j = none
  | [], _, _, _, h, hreach => by
    cases h with
    | object => cases hreach
    | _ => rfl
  | step :: path, _, _, _, h, hreach => by
    cases h with
    | @object members m slots cells hm h =>
      rw [reach, slot?_of_holding hm] at hreach
      obtain ⟨b⟩ := h.beside step
      rw [Json.put?]
      cases hi : Keyed.get? slots step with
      | none => rw [b.get?_slots hi, Option.bind_none]
      | some i =>
        rw [hi, Option.bind_some] at hreach
        obtain ⟨j, own, hj, -, -, hown⟩ := b.represents_old i hi
        rw [hj, Option.bind_some, hown.put?_of_unreached hreach, Option.map_none]
    | _ => rfl

end

/-- A value stands for plain data, in cells none of which is used twice. -/
def Tree (s : Store R) (j : Json) (v : Value) : Prop :=
  ∃ cells, s.Represents j v cells ∧ cells.Nodup

namespace Tree

variable {s s' : Store R} {j : Json} {v : Value}

theorem of_extends (h : s.Tree j v) (hs : s.Extends s') : s'.Tree j v := by
  obtain ⟨cells, h, hnodup⟩ := h
  exact ⟨cells, h.of_extends hs, hnodup⟩

theorem observe (j : Json) (s : Store R) : (s.observe j).2.Tree j (s.observe j).1 := by
  obtain ⟨cells, h, hnodup, -⟩ := represents_observe j s
  exact ⟨cells, h, hnodup⟩

theorem snapshot (h : s.Tree j v) : s.toJson? v = some j := by
  obtain ⟨cells, h, hnodup⟩ := h
  exact h.toJson? hnodup

end Tree

end Store

namespace Effect

variable {σ : Type} (react : R → Value → Effect R σ Unit) {u : World R σ} {m : MappingId}
  {key : String} {v : Value}

theorem set_assign_of_none (h : u.store.slot? m key = none) :
    set react m key v u = (.ok (), { u with store := u.store.assign m key v }) := by
  rw [set_of_none react h, Store.assign, h]

theorem set_assign_of_some {i : SlotId} (h : u.store.slot? m key = some i) :
    set react m key v u = notify react i { u with store := u.store.assign m key v } := by
  rw [set_of_some react h, Store.assign, h]

/-- A write keeps what its change brings about, if notifications keep it. -/
theorem set_keeps {P : World R σ → Prop} (h : P { u with store := u.store.assign m key v })
    (hnotify : ∀ i, Preserves P (notify react i)) : P (set react m key v u).2 := by
  cases hslot : u.store.slot? m key with
  | none =>
    rw [set_assign_of_none react hslot]
    exact h
  | some i =>
    rw [set_assign_of_some react hslot]
    exact hnotify i _ h

end Effect

/-! ## Writes below a mapping -/

/-- A write of plain data below a mapping. -/
structure PathWrite where
  /-- The keys that lead to the mapping that is written to. -/
  path : List String
  /-- The key that is written. -/
  key : String
  /-- What is written there. -/
  value : Json

namespace PathWrite

/-- Write to plain data; nothing if the keys lead to no mapping. -/
def apply (j : Json) (w : PathWrite) : Json :=
  (Json.put? w.key w.value w.path j).getD j

open Store (Represents)

variable {σ : Type}

/-- Write to reactive data; nothing if the keys lead to no mapping. -/
def perform (react : R → Value → Effect R σ Unit) (root : MappingId) (w : PathWrite) :
    Effect R σ Unit := do
  let v ← Effect.onStore fun s => s.observe w.value
  match (← Effect.store).reach w.path (.mapping root) with
  | none => pure ()
  | some m => Effect.set react m w.key v

theorem perform_apply (react : R → Value → Effect R σ Unit) (root : MappingId) (w : PathWrite)
    (u : World R σ) :
    w.perform react root u =
      match (u.store.observe w.value).2.reach w.path (.mapping root) with
      | none => (.ok (), { u with store := (u.store.observe w.value).2 })
      | some m => Effect.set react m w.key (u.store.observe w.value).1
        { u with store := (u.store.observe w.value).2 } := by
  unfold perform
  rw [Effect.bind_apply]
  dsimp only [Effect.onStore]
  rw [Effect.bind_apply]
  dsimp only [Effect.store]
  split
  next hreach => rw [hreach]; rfl
  next hreach => rw [hreach]

/-- A tree that is written below. -/
theorem tree_assign {s : Store R} {j : Json} {root : Value} (h : s.Tree j root) (w : PathWrite) :
    match (s.observe w.value).2.reach w.path root with
    | none => (s.observe w.value).2.Tree (w.apply j) root
    | some m =>
      ((s.observe w.value).2.assign m w.key (s.observe w.value).1).Tree (w.apply j) root := by
  obtain ⟨cells, h, hnodup⟩ := h
  obtain ⟨own, hnew, hown, hfresh⟩ := Store.represents_observe w.value s
  have h' := h.of_extends (.observe s w.value)
  have hdisjoint : cells.Disjoint own := fun c hc hc' =>
    Option.isSome_iff_ne_none.1 (h.present c hc) (hfresh c hc')
  split
  next hreach =>
    rw [apply, h'.put?_of_unreached hreach]
    exact ⟨cells, h', hnodup⟩
  next m hreach =>
    obtain ⟨j', cells', hj', hrepresents, hnodup', -⟩ :=
      hnew.assign hown h' hnodup hdisjoint hreach
    rw [apply, hj']
    exact ⟨cells', hrepresents, hnodup'⟩

end PathWrite

/-! ## Programs that write nothing -/

namespace Program

open Effect (Preserves)

variable {K S : Type}

/-- A program writes nothing, whatever happens to it. -/
abbrev WritesNothing (p : Program K S) : Prop :=
  p.Allowed (fun _ => True) (fun _ _ _ => False) fun _ => True

/-- A tree stays as long as nothing is written. -/
theorem kept_tree (j : Json) (root : Value) :
    Program.Kept (fun u : World K (Scene K S) => u.store.Tree j root) (fun _ _ _ => False)
      fun _ => True where
  subscribe u slot w h := h.of_extends (.of_eq fun c => u.store.holding_subscribe slot w c)
  count _ _ h := h.of_extends (.of_parts rfl rfl)
  collecting _ _ h := h.of_extends (.of_parts rfl rfl)
  depth _ _ h := h.of_extends (.of_parts rfl rfl)
  newSlot u v h := h.of_extends (.newSlot u.store v)
  newMapping u members h := h.of_extends (.newMapping u.store members)
  scene _ _ _ h := h
  remember _ _ _ h := h.of_extends (.of_parts rfl rfl)
  newWatcher _ _ _ _ _ h := h.of_extends (.of_parts rfl rfl)
  note _ _ h := h
  install _ _ _ _ h := h.elim
  write _ _ _ _ _ h := h.elim

/-- What follows a tree that is written below, among programs that write nothing. -/
inductive WrittenBelow (react : K → Value → Run K S Unit) (root : MappingId)
    (u : World K (Scene K S)) : List PathWrite → World K (Scene K S) → Prop
  /-- Nothing has been written. -/
  | start : WrittenBelow react root u [] u
  /-- A write, however it ends. -/
  | write {ws u'} (h : WrittenBelow react root u ws u') (w : PathWrite) :
    WrittenBelow react root u (ws ++ [w]) (w.perform react root u').2
  /-- A program that writes nothing, however it ends. -/
  | program {ws u'} (h : WrittenBelow react root u ws u') {p : Program K S}
    (hp : p.WritesNothing) : WrittenBelow react root u ws (p.run react u').2

variable {react : K → Value → Run K S Unit}

theorem tree_perform (hreact : ∀ j root label v,
      Preserves (fun u => u.store.Tree j root) (react label v))
    {u : World K (Scene K S)} {j : Json} {root : MappingId} (h : u.store.Tree j (.mapping root))
    (w : PathWrite) : (w.perform react root u).2.store.Tree (w.apply j) (.mapping root) := by
  have hassign := PathWrite.tree_assign h w
  rw [PathWrite.perform_apply]
  split
  next hreach =>
    rw [hreach] at hassign
    exact hassign
  next m hreach =>
    rw [hreach] at hassign
    exact Effect.set_keeps react hassign ((kept_tree _ _).toKept.notify (hreact _ _))

theorem WrittenBelow.tree (hreact : ∀ j root label v,
      Preserves (fun u => u.store.Tree j root) (react label v))
    {u u' : World K (Scene K S)} {j : Json} {root : MappingId} {ws : List PathWrite}
    (h : WrittenBelow react root u ws u') (hu : u.store.Tree j (.mapping root)) :
    u'.store.Tree (ws.foldl PathWrite.apply j) (.mapping root) := by
  induction h with
  | start => exact hu
  | write _ w ih =>
    rw [List.foldl_concat]
    exact tree_perform hreact ih w
  | program _ hp ih =>
    exact ((kept_tree _ _).operable (hreact _ _)).run _ (hp.mono fun _ _ => trivial) _ ih

variable {callback : K → Value → Program K S}
  (hcallback : ∀ label v, (callback label v).WritesNothing)

include hcallback

/-- **The reactive data is plain data**: made reactive, it has itself as its
    snapshot, and after any writes below it, however they and the callbacks end,
    the snapshot is the plain data written alike. -/
theorem snapshot_of_writes (depth : Nat) (u : World K (Scene K S)) (j : Json) :
    (u.store.observe j).2.toJson? (u.store.observe j).1 = some j ∧
      ∀ root s ws u', u.store.observe j = (.mapping root, s) →
        WrittenBelow (reactions callback depth) root { u with store := s } ws u' →
        u'.store.toJson? (.mapping root) = some (ws.foldl PathWrite.apply j) := by
  have htree := Store.Tree.observe j u.store
  refine ⟨htree.snapshot, fun root s ws u' hs h => ?_⟩
  rw [hs] at htree
  have hreact (j : Json) (root : Value) := (kept_tree j root).reactions (fun label v =>
    (hcallback label v).mono fun _ _ => trivial) depth
  exact (h.tree hreact htree).snapshot

omit hcallback

/-- A text below a mapping. -/
def nested : Json := .object [("a", .object [("b", .string "x")])]

/-- Two writes below it, the second one below what is put there by the first. -/
def nestedWrites : List PathWrite :=
  [⟨["a"], "b", .object [("c", .null)]⟩, ⟨["a", "b"], "d", .string "y"⟩]

/-- The snapshot after two writes, with a watcher that fails. -/
theorem snapshot_of_writes_of_nested :
    let callback : Unit → Value → Program Unit Unit := fun _ _ => .done (.error (.missing .value))
    let s : Store Unit := (Store.empty.observe nested).2
    ∃ u', WrittenBelow (reactions callback 1) 1 ⟨s, ⟨(), [], []⟩⟩ nestedWrites u' ∧
      u'.store.toJson? (.mapping 1) =
        some (.object [("a", .object [("b", .object [("c", .null), ("d", .string "y")])])]) := by
  intro callback s
  have hcallback : ∀ label v, (callback label v).WritesNothing := fun _ _ => trivial
  have hwatch : (Program.watch 1 "a.b" () "w" .done : Program Unit Unit).WritesNothing :=
    ⟨trivial, fun _ => trivial⟩
  have hstart : WrittenBelow (reactions callback 1) 1 ⟨s, ⟨(), [], []⟩⟩ [] _ := .start
  have hwritten := ((hstart.program hwatch).write nestedWrites[0]).write nestedWrites[1]
  refine ⟨_, hwritten, ?_⟩
  exact (snapshot_of_writes hcallback 1 ⟨.empty, ⟨(), [], []⟩⟩ nested).2 1 s _ _ rfl hwritten

end Program

end DataBinding
