/-
  Stores in which every reference leads somewhere.

  `Store.Grounded`: the slots under keys are there, and so are the watchers in
  dependency sets.

  * `Grounded.observe`, `Grounded.install`, `Grounded.watched`: new data, new keys
    and new watchers keep it so;
  * `Grounded.lt_size_of_mem_resolve`: the slots on the way of an expression are
    there.
-/
import DataBinding.Proofs.Reactive.Observed
import DataBinding.Proofs.Reactive.Watching

namespace DataBinding.Store

variable {R : Type}

/-- What keys and dependency sets refer to is there. -/
structure Grounded (s : Store R) : Prop where
  /-- The slots under keys. -/
  slots : ∀ m key i, s.slot? m key = some i → i < s.slots.size
  /-- The watchers in dependency sets. -/
  watchers : ∀ i, ∀ w ∈ s.subscribers i, w < s.watchers.size

/-! ## New watchers -/

section

variable (s : Store R) (root : MappingId) (expression : String) (label : R) (v : Value)

theorem size_watchers_watched :
    (s.watched root expression label v).watchers.size = s.watchers.size + 1 :=
  Array.size_push _

/-- The subscribers are the former ones and the new watcher. -/
theorem of_mem_subscribers_watched {t : SlotId} {w : WatcherId}
    (h : w ∈ (s.watched root expression label v).subscribers t) :
    w ∈ s.subscribers t ∨ w = s.watchers.size := by
  have ht := lt_size_of_mem_subscribers _ h
  rw [size_slots_watched] at ht
  rw [subscribers_watched s root expression label v ht] at h
  exact (List.mem_append.1 h).imp_right List.eq_of_mem_replicate

end

namespace Grounded

variable {s s' : Store R}

theorem empty : (Store.empty : Store R).Grounded :=
  ⟨fun _ _ _ => nofun, fun _ _ => nofun⟩

/-- References that were there, and references to what is there. -/
theorem of_le (h : s.Grounded)
    (hslot : ∀ m key i, s'.slot? m key = some i → s.slot? m key = some i ∨ i < s'.slots.size)
    (hslots : s.slots.size ≤ s'.slots.size)
    (hsubscriber : ∀ i, ∀ w ∈ s'.subscribers i, w ∈ s.subscribers i ∨ w < s'.watchers.size)
    (hwatchers : s.watchers.size ≤ s'.watchers.size) : s'.Grounded where
  slots m key i hi :=
    (hslot m key i hi).elim (fun hi => Nat.lt_of_lt_of_le (h.slots m key i hi) hslots) id
  watchers i w hw :=
    (hsubscriber i w hw).elim (fun hw => Nat.lt_of_lt_of_le (h.watchers i w hw) hwatchers) id

theorem newSlot (h : s.Grounded) (v : Value) : (s.newSlot v).2.Grounded := by
  refine h.of_le (fun m key i hi => .inl hi) ?_ (fun i w hw => .inl ?_) (Nat.le_refl _)
  · simp [Store.newSlot]
  · rw [subscribers_newSlot] at hw
    exact hw

theorem newMapping (h : s.Grounded) {slots : Keyed SlotId}
    (hslots : ∀ entry ∈ slots, entry.2 < s.slots.size) : (s.newMapping slots).2.Grounded := by
  refine h.of_le (fun m key i hi => ?_) (Nat.le_refl _) (fun i w hw => .inl hw) (Nat.le_refl _)
  rw [slot?, members, Store.newMapping, Array.getElem?_push] at hi
  split at hi
  · exact .inr (hslots _ (Keyed.mem_of_get? hi))
  · exact .inl hi

mutual

theorem observe : ∀ (j : Json) {s : Store R}, s.Grounded → (s.observe j).2.Grounded
  | .null, _, h | .bool _, _, h | .number _, _, h | .string _, _, h | .array _, _, h => h
  | .object members, _, h => (observeMembers members h).1.newMapping (observeMembers members h).2

theorem observeMembers : ∀ (members : List (String × Json)) {s : Store R}, s.Grounded →
    (s.observeMembers members).2.Grounded ∧ ∀ entry ∈ (s.observeMembers members).1,
      entry.2 < (s.observeMembers members).2.slots.size
  | [], _, h => ⟨h, fun _ => nofun⟩
  | (key, j) :: rest, s, h => by
    obtain ⟨hrest, hslots⟩ := observeMembers rest ((observe j h).newSlot (s.observe j).1)
    rw [Store.observeMembers]
    refine ⟨hrest, List.forall_mem_cons.2 ⟨?_, hslots⟩⟩
    exact lt_size_observeMembers rest (by simp [Store.newSlot])

end

theorem install (h : s.Grounded) (m : MappingId) (key : String) (v : Value) :
    (s.install m key v).Grounded := by
  have hsize : (s.install m key v).slots.size = s.slots.size + 1 := Array.size_push _
  refine h.of_le (fun m' key' i hi => ?_) (by omega) (fun i w hw => .inl ?_) (Nat.le_refl _)
  · change Keyed.get? (((s.mappings.modify m _)[m']?).getD []) key' = some i at hi
    rw [Array.getElem?_modify] at hi
    split at hi
    next hm =>
      cases hmembers : s.mappings[m']? with
      | none =>
        rw [hmembers] at hi
        cases hi
      | some members =>
        rw [hmembers] at hi
        by_cases hkey : key' = key
        · subst hkey
          obtain rfl := Option.some.inj ((Keyed.get?_put_self members key' _).symm.trans hi)
          exact .inr (hsize ▸ Nat.lt_succ_self _)
        · left
          rw [slot?, Store.members, hmembers]
          exact (Keyed.get?_put_other members _ hkey).symm.trans hi
    next => exact .inl hi
  · exact (subscribers_newSlot s v i).subst (motive := fun ws => w ∈ ws) hw

theorem write (h : s.Grounded) (i : SlotId) (v : Value) : (s.write i v).Grounded := by
  refine h.of_le (fun m key t ht => .inl ht) ?_ (fun t w hw => .inl ?_) (Nat.le_refl _)
  · exact Nat.le_of_eq Array.size_modify.symm
  · rw [subscribers_write] at hw
    exact hw

theorem watched (h : s.Grounded) (root : MappingId) (expression : String) (label : R) (v : Value) :
    (s.watched root expression label v).Grounded := by
  have hsize := s.size_watchers_watched root expression label v
  refine h.of_le (fun m key i hi => .inl ?_) ?_ (fun i w hw => ?_) (by omega)
  · rw [slot?, Store.members, mappings_watched] at hi
    exact hi
  · exact Nat.le_of_eq (s.size_slots_watched root expression label v).symm
  · rcases s.of_mem_subscribers_watched root expression label v hw with hw | rfl
    · exact .inl hw
    · exact .inr (Nat.lt_of_lt_of_eq (Nat.lt_succ_self _) hsize.symm)

/-- The slots on the way of an expression are there. -/
theorem lt_size_of_mem_resolve (h : s.Grounded) {root : MappingId} {expression : String}
    {i : SlotId} (hi : i ∈ (s.resolve root expression).1) : i < s.slots.size :=
  forall_mem_resolve (Q := fun _ => True) (fun m key i _ => h.slots m key i)
    (fun _ _ _ _ => trivial) trivial i hi

end Grounded

end DataBinding.Store
