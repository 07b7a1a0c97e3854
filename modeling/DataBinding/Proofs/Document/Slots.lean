/-
  The slots of a document: which handles resolve, and which slots are free.

  A document is `Pooled` if its free list names exactly the empty slots, each
  once.  Then a new node takes a handle that did not resolve, all other handles
  keep their nodes, and the number of nodes is the number of occupied slots.

  * `node?_update`, `node?_alloc` and `node?_vacate` say what the three changes
    of a slot do to the nodes that handles resolve to;
  * `Pooled.nodeCount_eq` counts the nodes;
  * `Enlarged` relates a document to one with more nodes: a slot is added only
    when all slots are occupied.
-/
import Mathlib.Data.List.Nodup
import Mathlib.Data.List.Count
import Mathlib.Tactic.Common
import DataBinding.Document.Edit

namespace DataBinding.Document

variable {L : Type} {d d' d'' : Document L}

/-! ## Handles -/

/-- A slot is empty. -/
def Vacant (d : Document L) (i : Nat) : Prop :=
  ∃ slot, d.slots[i]? = some slot ∧ slot.node = none

/-- A handle resolves. -/
def Live (d : Document L) (id : NodeId) : Prop := (d.node? id).isSome

theorem node?_eq_some {id : NodeId} {node : Node L} :
    d.node? id = some node ↔ d.slots[id.index]? = some ⟨id.generation, some node⟩ := by
  unfold node?
  constructor
  · intro h
    split at h
    next slot hs =>
      split at h
      next hg => rw [hs, ← hg, ← h]
      next => cases h
    next => cases h
  · intro h; simp [h]

theorem live_iff {id : NodeId} : d.Live id ↔ ∃ node, d.node? id = some node :=
  Option.isSome_iff_exists

theorem not_live_iff {id : NodeId} : ¬ d.Live id ↔ d.node? id = none := by simp [Live]

theorem Live.of_eq {id : NodeId} {node : Node L} (h : d.node? id = some node) : d.Live id :=
  live_iff.2 ⟨node, h⟩

theorem index_lt {id : NodeId} (h : d.Live id) : id.index < d.slots.size := by
  obtain ⟨node, h⟩ := live_iff.1 h
  obtain ⟨hlt, -⟩ := Array.getElem?_eq_some_iff.1 (node?_eq_some.1 h)
  exact hlt

theorem not_vacant {id : NodeId} (h : d.Live id) : ¬ d.Vacant id.index := by
  obtain ⟨node, h⟩ := live_iff.1 h
  rintro ⟨slot, hs, hn⟩
  rw [node?_eq_some.1 h, Option.some.injEq] at hs
  subst hs; cases hn

/-- Two handles of one slot that both resolve are the same. -/
theorem eq_of_index_eq {a b : NodeId} (ha : d.Live a) (hb : d.Live b) (h : a.index = b.index) :
    a = b := by
  obtain ⟨m, ha⟩ := live_iff.1 ha
  obtain ⟨n, hb⟩ := live_iff.1 hb
  rw [node?_eq_some] at ha hb
  rw [h, hb, Option.some.injEq] at ha
  obtain ⟨i, g⟩ := a; obtain ⟨j, g'⟩ := b
  simp_all

/-! ## One slot changed -/

@[simp]
theorem update_free (id : NodeId) (f : Node L → Node L) : (d.update id f).free = d.free := rfl

@[simp]
theorem update_size (id : NodeId) (f : Node L → Node L) :
    (d.update id f).slots.size = d.slots.size := by simp [update]

@[simp]
theorem update_nodeCount (id : NodeId) (f : Node L → Node L) :
    (d.update id f).nodeCount = d.nodeCount := by simp [nodeCount]

theorem node?_update (id x : NodeId) (f : Node L → Node L) :
    (d.update id f).node? x = if x = id then (d.node? id).map f else d.node? x := by
  obtain ⟨i, g⟩ := id; obtain ⟨j, h⟩ := x
  simp only [node?, update, Array.getElem?_modify]
  by_cases hij : i = j
  · subst hij
    cases hs : d.slots[i]? with
    | none => simp
    | some slot => by_cases hg : slot.generation = g <;> by_cases hh : slot.generation = h <;> grind
  · have hne : ¬ (⟨j, h⟩ : NodeId) = ⟨i, g⟩ := fun e => hij (congrArg NodeId.index e).symm
    simp [hij, hne]

theorem vacant_update (id : NodeId) (f : Node L → Node L) (i : Nat) :
    (d.update id f).Vacant i ↔ d.Vacant i := by
  simp only [Vacant, update, Array.getElem?_modify]
  by_cases h : id.index = i
  · cases hs : d.slots[i]? with
    | none => simp [h]
    | some slot => by_cases hg : slot.generation = id.generation <;> simp [h, hg]
  · simp [h]

@[simp]
theorem live_update (id x : NodeId) (f : Node L → Node L) : (d.update id f).Live x ↔ d.Live x := by
  by_cases h : x = id <;> simp [Live, node?_update, h]

@[simp]
theorem vacate_size (id : NodeId) : (d.vacate id).slots.size = d.slots.size := by simp [vacate]

theorem node?_vacate {id : NodeId} (hid : d.Live id) (x : NodeId) :
    (d.vacate id).node? x = if x = id then none else d.node? x := by
  obtain ⟨node, hid⟩ := live_iff.1 hid
  have hslot := node?_eq_some.1 hid
  obtain ⟨i, g⟩ := id; obtain ⟨j, h⟩ := x
  simp only at hslot
  by_cases hij : i = j
  · subst hij
    have hne : d.node? ⟨i, h⟩ = none ∨ h = g := by
      by_cases hg : g = h
      · exact .inr hg.symm
      · simp [node?, hslot, hg]
    rcases hne with hne | rfl
    · simp [node?, vacate, Array.getElem?_modify, hslot] at hne ⊢; grind
    · simp [node?, vacate, Array.getElem?_modify, hslot]
  · have hne : ¬ (⟨j, h⟩ : NodeId) = ⟨i, g⟩ := fun e => hij (congrArg NodeId.index e).symm
    simp [node?, vacate, Array.getElem?_modify, hij, hne]

theorem vacant_vacate {id : NodeId} (hid : d.Live id) (i : Nat) :
    (d.vacate id).Vacant i ↔ i = id.index ∨ d.Vacant i := by
  obtain ⟨node, hid⟩ := live_iff.1 hid
  have hslot := node?_eq_some.1 hid
  simp only [Vacant, vacate, Array.getElem?_modify]
  by_cases h : id.index = i
  · subst h; simp [hslot]
  · simp [h, Ne.symm h]

/-! ## The free list -/

/-- The free list names exactly the empty slots, each once. -/
structure Pooled (d : Document L) : Prop where
  free_nodup : d.free.Nodup
  mem_free : ∀ i, i ∈ d.free ↔ d.Vacant i

namespace Pooled

theorem update (h : d.Pooled) (id : NodeId) (f : Node L → Node L) : (d.update id f).Pooled where
  free_nodup := h.free_nodup
  mem_free i := by rw [vacant_update]; exact h.mem_free i

theorem vacate (h : d.Pooled) {id : NodeId} (hid : d.Live id) : (d.vacate id).Pooled where
  free_nodup := List.nodup_cons.2 ⟨fun hm => not_vacant hid ((h.mem_free _).1 hm), h.free_nodup⟩
  mem_free i := by rw [vacant_vacate hid, ← h.mem_free]; exact List.mem_cons

theorem free_lt (h : d.Pooled) {i : Nat} (hi : i ∈ d.free) : i < d.slots.size := by
  obtain ⟨slot, hs, -⟩ := (h.mem_free i).1 hi
  obtain ⟨hlt, -⟩ := Array.getElem?_eq_some_iff.1 hs
  exact hlt

/-- The number of nodes is the number of occupied slots. -/
theorem nodeCount_eq (h : d.Pooled) :
    d.nodeCount = d.slots.toList.countP fun slot => slot.node.isSome := by
  have hcount : ∀ l : List (NodeSlot L),
      l.countP (fun slot => slot.node.isNone) =
        ((List.range l.length).filter fun i => (l[i]?).any fun slot => slot.node.isNone).length := by
    intro l
    induction l with
    | nil => rfl
    | cons slot rest ih =>
      rw [List.countP_cons, ih, List.length_cons, List.range_succ_eq_map, List.filter_cons,
        List.filter_map]
      cases hn : slot.node.isNone <;> simp [hn, Function.comp_def]
  have hperm : d.free.Perm
      ((List.range d.slots.size).filter fun i => (d.slots[i]?).any fun slot => slot.node.isNone) := by
    refine (List.perm_ext_iff_of_nodup h.free_nodup (List.nodup_range.filter _)).2 fun i => ?_
    rw [h.mem_free, List.mem_filter, List.mem_range]
    constructor
    · rintro ⟨slot, hs, hn⟩
      obtain ⟨hlt, -⟩ := Array.getElem?_eq_some_iff.1 hs
      exact ⟨hlt, by simp [hs, hn]⟩
    · rintro ⟨hlt, hany⟩
      cases hs : d.slots[i]? with
      | none => simp [hs] at hany
      | some slot => exact ⟨slot, hs, by simpa [hs] using hany⟩
  have hfree : d.free.length = d.slots.toList.countP fun slot => slot.node.isNone := by
    rw [hperm.length_eq, hcount]; simp
  have hsplit := List.length_eq_countP_add_countP (fun slot : NodeSlot L => slot.node.isSome)
    (l := d.slots.toList)
  have hnone : (fun slot : NodeSlot L => decide (¬ slot.node.isSome = true)) =
      fun slot => slot.node.isNone := by funext slot; cases slot.node <;> rfl
  rw [hnone, ← hfree, Array.length_toList] at hsplit
  simp only [nodeCount]; omega

theorem free_length_le (h : d.Pooled) : d.free.length ≤ d.slots.size := by
  have hsub : d.free ⊆ List.range d.slots.size := fun i hi => List.mem_range.2 (h.free_lt hi)
  simpa using (List.subperm_of_subset h.free_nodup hsub).length_le

end Pooled

/-! ## A new node -/

/-- A node in nothing, without children and listeners. -/
def isolated (content : NodeContent) : Node L := ⟨none, [], content, []⟩

theorem alloc_cons {i : Nat} {free : List Nat} {slot : NodeSlot L} (content : NodeContent)
    (hf : d.free = i :: free) (hs : d.slots[i]? = some slot) :
    d.alloc content = (⟨i, slot.generation⟩,
      ⟨d.slots.modify i fun slot => { slot with node := some (isolated content) }, free⟩) := by
  simp [alloc, hf, hs, isolated]

theorem alloc_nil (content : NodeContent) (hf : d.free = []) :
    d.alloc content = (⟨d.slots.size, 0⟩, ⟨d.slots.push ⟨0, some (isolated content)⟩, []⟩) := by
  simp [alloc, hf, isolated]

/-- The two ways in which a node gets its slot. -/
theorem Pooled.alloc_cases (h : d.Pooled) (content : NodeContent) :
    (∃ i free g, d.free = i :: free ∧ d.slots[i]? = some ⟨g, none⟩ ∧
      d.alloc content = (⟨i, g⟩,
        ⟨d.slots.modify i fun slot => { slot with node := some (isolated content) }, free⟩)) ∨
    (d.free = [] ∧
      d.alloc content = (⟨d.slots.size, 0⟩, ⟨d.slots.push ⟨0, some (isolated content)⟩, []⟩)) := by
  cases hf : d.free with
  | nil => exact .inr ⟨rfl, alloc_nil content hf⟩
  | cons i free =>
    obtain ⟨⟨g, n⟩, hs, hn⟩ := (h.mem_free i).1 (by simp [hf])
    simp only at hn; subst hn
    exact .inl ⟨i, free, g, rfl, hs, alloc_cons content hf hs⟩

namespace Pooled

/-- The handle of a new node did not resolve. -/
theorem not_live_alloc (h : d.Pooled) (content : NodeContent) : ¬ d.Live (d.alloc content).1 := by
  obtain ⟨i, free, g, -, hs, ha⟩ | ⟨-, ha⟩ := h.alloc_cases content
  · simp [ha, Live, node?, hs]
  · rw [ha]; exact fun hl => absurd (index_lt hl) (by simp)

theorem node?_alloc (h : d.Pooled) (content : NodeContent) (x : NodeId) :
    (d.alloc content).2.node? x =
      if x = (d.alloc content).1 then some (isolated content) else d.node? x := by
  obtain ⟨j, k⟩ := x
  obtain ⟨i, free, g, -, hs, ha⟩ | ⟨-, ha⟩ := h.alloc_cases content
  · simp only [ha, node?, Array.getElem?_modify]
    by_cases hij : i = j
    · subst hij
      rcases eq_or_ne k g with rfl | hg
      · simp [hs]
      · simp [hs, hg, hg.symm]
    · simp [hij, Ne.symm hij]
  · simp only [ha, node?, Array.getElem?_push]
    by_cases hj : j = d.slots.size
    · subst hj; by_cases hk : k = 0 <;> simp [hk, eq_comm]
    · simp [hj]

theorem live_alloc (h : d.Pooled) (content : NodeContent) (x : NodeId) :
    (d.alloc content).2.Live x ↔ x = (d.alloc content).1 ∨ d.Live x := by
  simp only [Live, h.node?_alloc]
  by_cases hx : x = (d.alloc content).1 <;> simp [hx]

theorem alloc (h : d.Pooled) (content : NodeContent) : (d.alloc content).2.Pooled := by
  obtain ⟨i, free, g, hf, hs, ha⟩ | ⟨hf, ha⟩ := h.alloc_cases content
  · have hnd := hf ▸ h.free_nodup
    refine ⟨by rw [ha]; exact (List.nodup_cons.1 hnd).2, fun j => ?_⟩
    have hmem := h.mem_free j
    rw [hf, List.mem_cons] at hmem
    simp only [ha, Vacant, Array.getElem?_modify]
    by_cases hij : i = j
    · subst hij; simpa [hs] using (List.nodup_cons.1 hnd).1
    · simpa [hij, Ne.symm hij, Vacant] using hmem
  · refine ⟨by simp [ha], fun j => ?_⟩
    have hmem := h.mem_free j
    rw [hf] at hmem
    simp only [ha, Vacant, Array.getElem?_push]
    by_cases hj : j = d.slots.size
    · simp [hj]
    · simpa [hj, Vacant] using hmem

end Pooled

/-! ## The number of slots -/

/-- A document with more nodes, in which slots were added only as far as they
    are occupied. -/
structure Enlarged (d d' : Document L) : Prop where
  nodeCount_le : d.nodeCount ≤ d'.nodeCount
  size_eq : d'.slots.size = max d.slots.size d'.nodeCount

namespace Enlarged

theorem of_eq (hs : d'.slots.size = d.slots.size) (hf : d'.free = d.free) : Enlarged d d' where
  nodeCount_le := by simp [nodeCount, hs, hf]
  size_eq := by simp only [nodeCount, hs, hf]; omega

theorem refl (d : Document L) : Enlarged d d := of_eq rfl rfl

theorem update (id : NodeId) (f : Node L → Node L) : Enlarged d (d.update id f) :=
  of_eq (update_size id f) rfl

theorem trans (h : Enlarged d d') (h' : Enlarged d' d'') : Enlarged d d'' where
  nodeCount_le := Nat.le_trans h.nodeCount_le h'.nodeCount_le
  size_eq := by
    have h1 := h.size_eq; have h2 := h'.size_eq; have h3 := h'.nodeCount_le; omega

theorem alloc (h : d.Pooled) (content : NodeContent) : Enlarged d (d.alloc content).2 := by
  have hle := h.free_length_le
  obtain ⟨i, free, g, hf, -, ha⟩ | ⟨hf, ha⟩ := h.alloc_cases content
  · rw [hf, List.length_cons] at hle
    constructor <;> simp only [ha, nodeCount, hf, List.length_cons, Array.size_modify] <;> omega
  · constructor <;> simp only [ha, nodeCount, hf, List.length_nil, Array.size_push] <;> omega

end Enlarged

end DataBinding.Document
