/-
  Values that are equal to themselves.

  Objects are compared by looking their members up, so that an object with two
  members under one key would differ from itself.  Data without such objects is
  `Proper`; what expressions come to in a store of proper data is equal to itself.

  * `Json.same_refl`, `Value.equal_refl`: proper data is equal to itself;
  * `Store.Proper.observe`, `Store.Proper.assign`: stores stay proper when proper data
    is made reactive, and written;
  * `Store.Proper.resolve`: expressions come to proper values.
-/
import DataBinding.Proofs.Reactive.Layers

namespace DataBinding

theorem Keyed.get?_of_mem {α : Type} {entries : Keyed α} (h : (Keyed.keys entries).Nodup)
    {entry : String × α} (hentry : entry ∈ entries) :
    Keyed.get? entries entry.1 = some entry.2 := by
  induction entries with
  | nil => cases hentry
  | cons first rest ih =>
    obtain ⟨hfirst, hrest⟩ := List.nodup_cons.1 h
    rcases List.mem_cons.1 hentry with rfl | hentry
    · exact if_pos rfl
    · have hne : first.1 ≠ entry.1 := fun heq =>
        hfirst (heq ▸ List.mem_map_of_mem hentry)
      rw [Keyed.get?, if_neg hne]
      exact ih hrest hentry

theorem Number.same_refl (n : Number) : n.same n = true := by
  cases n <;> simp [same, Double.numericallyEqual]

theorem Number.equal_refl (n : Number) : n.equal n = true := by
  unfold equal
  cases n.toInt64? <;> cases n.toUInt64? <;> simp [Double.numericallyEqual]

namespace Json

mutual

/-- No object in plain data has two members under one key. -/
def Proper : Json → Prop
  | .array items => ProperItems items
  | .object members => (Keyed.keys members).Nodup ∧ ProperMembers members
  | _ => True

/-- No object in a sequence has two members under one key. -/
def ProperItems : List Json → Prop
  | [] => True
  | item :: rest => Proper item ∧ ProperItems rest

/-- No object below the members of an object has two members under one key. -/
def ProperMembers : List (String × Json) → Prop
  | [] => True
  | (_, j) :: rest => Proper j ∧ ProperMembers rest

end

mutual

/-- **Proper plain data is equal to itself.** -/
theorem same_refl : ∀ {j : Json}, j.Proper → j.same j = true
  | .null, _ => rfl
  | .bool _, _ => beq_self_eq_true _
  | .number n, _ => n.same_refl
  | .string _, _ => beq_self_eq_true _
  | .array _, h => sameItems_refl h
  | .object members, h => by
    rw [same, beq_self_eq_true, Bool.true_and]
    exact sameMembers_of_get? h.2 fun entry hentry => Keyed.get?_of_mem h.1 hentry

theorem sameItems_refl : ∀ {items : List Json}, ProperItems items →
    sameItems items items = true
  | [], _ => rfl
  | _ :: _, h => by rw [sameItems, same_refl h.1, sameItems_refl h.2, Bool.and_self]

/-- Members that are found again under their keys. -/
theorem sameMembers_of_get? : ∀ {members ys : List (String × Json)}, ProperMembers members →
    (∀ entry ∈ members, Keyed.get? ys entry.1 = some entry.2) → sameMembers members ys = true
  | [], _, _, _ => rfl
  | (key, j) :: rest, ys, h, hys => by
    obtain ⟨hfirst, hrest⟩ := List.forall_mem_cons.1 hys
    have hrest := sameMembers_of_get? h.2 hrest
    rw [sameMembers, hfirst]
    dsimp only
    rw [same_refl h.1, hrest, Bool.and_self]

end

end Json

namespace Value

/-- No object in a value has two members under one key. -/
def Proper : Value → Prop
  | array items => Json.ProperItems items
  | _ => True

/-- **A proper value is equal to itself.** -/
theorem equal_refl {v : Value} (h : v.Proper) : v.equal v = true := by
  cases v with
  | null => rfl
  | undefined => rfl
  | bool b => exact beq_self_eq_true b
  | number n => exact n.equal_refl
  | string s => exact beq_self_eq_true s
  | array items => exact Json.sameItems_refl h
  | mapping m => exact beq_self_eq_true m

end Value

namespace Store

variable {R : Type} {s : Store R}

/-- The slots of a store hold proper values. -/
def Proper (s : Store R) : Prop :=
  ∀ i, (s.valueAt i).Proper

namespace Proper

theorem empty : (Store.empty : Store R).Proper := fun _ => trivial

theorem newSlot (h : s.Proper) {v : Value} (hv : v.Proper) : (s.newSlot v).2.Proper := by
  intro i
  rw [valueAt_newSlot]
  split
  · exact hv
  · exact h i

mutual

theorem observe : ∀ {j : Json} {s : Store R}, j.Proper → s.Proper →
    (s.observe j).1.Proper ∧ (s.observe j).2.Proper
  | .null, _, _, h | .bool _, _, _, h | .number _, _, _, h | .string _, _, _, h => ⟨trivial, h⟩
  | .array _, _, hj, h => ⟨hj, h⟩
  | .object _, _, hj, h => ⟨trivial, observeMembers hj.2 h⟩

theorem observeMembers : ∀ {members : List (String × Json)} {s : Store R},
    Json.ProperMembers members → s.Proper → (s.observeMembers members).2.Proper
  | [], _, _, h => h
  | (_, _) :: _, _, hmembers, h => by
    obtain ⟨hfirst, hs⟩ := observe hmembers.1 h
    have hrest := observeMembers hmembers.2 (hs.newSlot hfirst)
    exact hrest

end

theorem assign (h : s.Proper) {v : Value} (hv : v.Proper) (m : MappingId) (key : String) :
    (s.assign m key v).Proper := by
  intro t
  rcases s.valueAt_assign m key v t with ht | ⟨ht, -⟩
  · rw [ht]
    exact h t
  · rw [ht]
    exact hv

theorem watched (h : s.Proper) (root : MappingId) (expression : String) (label : R) (v : Value) :
    (s.watched root expression label v).Proper := by
  intro i
  rw [valueAt_watched]
  exact h i

theorem subscribe (h : s.Proper) (slot : SlotId) (w : WatcherId) : (s.subscribe slot w).Proper := by
  intro i
  rw [valueAt_subscribe]
  exact h i

/-- **Expressions come to proper values.** -/
theorem resolve (h : s.Proper) {root : MappingId} {expression : String} {v : Value}
    (hv : (s.resolve root expression).2 = .ok v) : v.Proper := by
  rcases resolve_ok_cases hv with rfl | rfl | ⟨i, rfl⟩
  · trivial
  · trivial
  · exact h i

end Proper

end Store

end DataBinding
