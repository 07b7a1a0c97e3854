/-
  A store beside the same one with a watcher more.

  `Store.Shadowed w extra read s s'` says that `s'` is `s` with the additional
  watcher `extra` under the number `w`, which is subscribed to slots among
  `read` only; watchers from `w` on have numbers one higher in `s'` (`shift`).
  Each operation on stores keeps this, and reads the same in both.
-/
import DataBinding.Proofs.Reactive.Data

namespace DataBinding

/-- The number of a watcher when there is an additional one under the number `w`. -/
def shift (w v : Nat) : Nat := if v < w then v else v + 1

theorem shift_ne (w v : Nat) : shift w v ≠ w := by
  unfold shift
  split <;> omega

theorem shift_of_le {w v : Nat} (h : w ≤ v) : shift w v = v + 1 := by
  unfold shift
  rw [if_neg (by omega)]

theorem shift_of_lt {w v : Nat} (h : v < w) : shift w v = v := if_pos h

theorem shift_inj {w v v' : Nat} : shift w v = shift w v' ↔ v = v' := by
  unfold shift
  constructor
  · intro h
    split at h <;> split at h <;> omega
  · rintro rfl
    rfl

theorem map_shift_of_lt {w : Nat} {ws : List Nat} (h : ∀ v ∈ ws, v < w) :
    ws.map (shift w) = ws :=
  (List.map_congr_left fun v hv => shift_of_lt (h v hv)).trans (List.map_id' ws)

namespace Store

variable {R : Type}

/-- `s'` is `s` with the additional watcher `extra`, number `w`, which is
    subscribed to slots among `read` only. -/
structure Shadowed (w : Nat) (extra : Watcher R) (read : List SlotId) (s s' : Store R) :
    Prop where
  /-- The mappings are the same. -/
  mappings : s'.mappings = s.mappings
  /-- There are as many slots. -/
  size : s'.slots.size = s.slots.size
  /-- The slots hold the same values. -/
  values : ∀ i, s'.valueAt i = s.valueAt i
  /-- Without the additional watcher, the dependency sets are the same. -/
  others : ∀ i, (s'.subscribers i).filter (· ≠ w) = (s.subscribers i).map (shift w)
  /-- The additional watcher is in no dependency set of another slot. -/
  unread : ∀ i, i ∉ read → w ∉ s'.subscribers i
  /-- The number of the additional watcher is no higher than the next one. -/
  bound : w ≤ s.watchers.size
  /-- There is one watcher more. -/
  count : s'.watchers.size = s.watchers.size + 1
  /-- The other watchers are the same. -/
  watchers : ∀ v, s'.watchers[shift w v]? = s.watchers[v]?
  /-- The additional watcher is as it was made. -/
  extra : s'.watchers[w]? = some extra
  /-- The same watchers collect. -/
  collecting : s'.collecting = s.collecting.map (shift w)
  /-- As many notifications are open. -/
  depth : s'.depth = s.depth
  /-- As many may be. -/
  limit : s'.limit = s.limit

namespace Shadowed

variable {w : Nat} {extra : Watcher R} {read : List SlotId} {s s' : Store R}
  (h : Shadowed w extra read s s')

include h

theorem slot? (m : MappingId) (key : String) : s'.slot? m key = s.slot? m key := by
  simp only [Store.slot?, members, h.mappings]

theorem resolve (root : MappingId) (expression : String) :
    s'.resolve root expression = s.resolve root expression :=
  resolve_congr h.slot? h.values root expression

theorem target (root : MappingId) (expression : String) :
    s'.target root expression = s.target root expression :=
  target_congr h.slot? h.values root expression

theorem subscribers {i : SlotId} (hi : i ∉ read) :
    s'.subscribers i = (s.subscribers i).map (shift w) := by
  rw [← h.others i, List.filter_eq_self.2]
  intro v hv
  exact decide_eq_true fun hvw => h.unread i hi (hvw ▸ hv)

theorem subscribe (i : SlotId) (v : Nat) :
    Shadowed w extra read (s.subscribe i v) (s'.subscribe i (shift w v)) := by
  refine { h with size := ?_, values := fun j => ?_, others := fun j => ?_, unread := fun j hj => ?_ }
  · simp only [Store.subscribe, Array.size_modify, h.size]
  · rw [valueAt_subscribe, valueAt_subscribe, h.values]
  · rw [subscribers_subscribe, subscribers_subscribe, h.size]
    split
    · rw [List.filter_append, h.others, List.map_append, List.filter_cons_of_pos]
      · rfl
      · exact decide_eq_true (shift_ne w v)
    · exact h.others j
  · rw [subscribers_subscribe]
    have hw := h.unread j hj
    split
    · rw [List.mem_append, List.mem_singleton]
      exact not_or.2 ⟨hw, (shift_ne w v).symm⟩
    · exact hw

theorem track (i : SlotId) : Shadowed w extra read (s.track i) (s'.track i) := by
  unfold Store.track
  rw [h.collecting]
  cases s.collecting with
  | nil => exact h
  | cons v vs => exact h.subscribe i v

omit h in
theorem trackAll : ∀ (slots : List SlotId) {s s' : Store R}, Shadowed w extra read s s' →
    Shadowed w extra read (s.trackAll slots) (s'.trackAll slots)
  | [], _, _, h => h
  | slot :: rest, _, _, h => trackAll rest (h.track slot)

theorem evaluate (root : MappingId) (expression : String) :
    (s'.evaluate root expression).1 = (s.evaluate root expression).1 ∧
      Shadowed w extra read (s.evaluate root expression).2 (s'.evaluate root expression).2 := by
  rw [evaluate_fst, evaluate_fst, evaluate_snd, evaluate_snd, h.resolve]
  exact ⟨rfl, trackAll _ h⟩

theorem write (i : SlotId) (v : Value) :
    Shadowed w extra read (s.write i v) (s'.write i v) := by
  refine { h with size := ?_, values := fun j => ?_, others := fun j => ?_, unread := fun j hj => ?_ }
  · simp only [Store.write, Array.size_modify, h.size]
  · rw [valueAt_write, valueAt_write, h.size, h.values]
  · rw [subscribers_write, subscribers_write, h.others]
  · rw [subscribers_write]
    exact h.unread j hj

theorem newSlot (v : Value) :
    (s'.newSlot v).1 = (s.newSlot v).1 ∧
      Shadowed w extra read (s.newSlot v).2 (s'.newSlot v).2 := by
  refine ⟨h.size, { h with
    size := ?_, values := fun j => ?_, others := fun j => ?_, unread := fun j hj => ?_ }⟩
  · simp only [Store.newSlot, Array.size_push, h.size]
  · rw [valueAt_newSlot, valueAt_newSlot, h.size, h.values]
  · rw [subscribers_newSlot, subscribers_newSlot, h.others]
  · rw [subscribers_newSlot]
    exact h.unread j hj

theorem newMapping (members : Keyed SlotId) :
    (s'.newMapping members).1 = (s.newMapping members).1 ∧
      Shadowed w extra read (s.newMapping members).2 (s'.newMapping members).2 := by
  refine ⟨congrArg Array.size h.mappings, { h with mappings := ?_ }⟩
  simp only [Store.newMapping, h.mappings]

theorem install (m : MappingId) (key : String) (v : Value) :
    Shadowed w extra read (s.install m key v) (s'.install m key v) := by
  have hnew := h.newSlot v
  refine { hnew.2 with mappings := ?_ }
  simp only [Store.install, hnew.1, hnew.2.mappings]

theorem newWatcher (root : MappingId) (expression : String) (label : R) :
    (s'.newWatcher root expression label).1 = shift w (s.newWatcher root expression label).1 ∧
      Shadowed w extra read (s.newWatcher root expression label).2
        (s'.newWatcher root expression label).2 := by
  have hbound := h.bound
  have hcount := h.count
  have hw : w < s'.watchers.size := by omega
  refine ⟨?_, { h with bound := ?_, count := ?_, watchers := fun v => ?_, extra := ?_ }⟩
  · exact hcount.trans (shift_of_le hbound).symm
  · simp only [Store.newWatcher, Array.size_push]
    omega
  · simp only [Store.newWatcher, Array.size_push, hcount]
  · simp only [Store.newWatcher, Array.getElem?_push, hcount]
    have hv : shift w v = s.watchers.size + 1 ↔ v = s.watchers.size := by
      rw [← shift_of_le hbound, shift_inj]
    simp only [hv, h.watchers]
  · simp only [Store.newWatcher, Array.getElem?_push, h.extra]
    rw [if_neg (by omega)]

theorem updateWatcher (v : Nat) (f : Watcher R → Watcher R) :
    Shadowed w extra read (s.updateWatcher v f) (s'.updateWatcher (shift w v) f) := by
  refine { h with bound := ?_, count := ?_, watchers := fun u => ?_, extra := ?_ }
  · simpa only [Store.updateWatcher, Array.size_modify] using h.bound
  · simpa only [Store.updateWatcher, Array.size_modify] using h.count
  · simp only [watchers_updateWatcher, h.watchers, shift_inj]
  · rw [watchers_updateWatcher, if_neg (shift_ne w v), h.extra]

theorem setCollecting {ws ws' : List WatcherId} (hws : ws' = ws.map (shift w)) :
    Shadowed w extra read { s with collecting := ws } { s' with collecting := ws' } :=
  { h with collecting := hws }

theorem setDepth (n : Nat) :
    Shadowed w extra read { s with depth := n } { s' with depth := n } :=
  { h with depth := rfl }

omit h in
theorem fillPieces (root : MappingId) : ∀ (pieces : List Template.Piece) {s s' : Store R},
    Shadowed w extra read s s' → (s'.fillPieces root pieces).1 = (s.fillPieces root pieces).1 ∧
      Shadowed w extra read (s.fillPieces root pieces).2 (s'.fillPieces root pieces).2
  | [], _, _, h => ⟨rfl, h⟩
  | .literal c :: rest, s, s', h => by
    obtain ⟨hresult, hstore⟩ := fillPieces root rest h
    rw [Store.fillPieces, Store.fillPieces]
    exact ⟨congrArg (Except.map (c :: ·)) hresult, hstore⟩
  | .placeholder inner :: rest, s, s', h => by
    obtain ⟨hvalue, hread⟩ := h.evaluate root (String.ofList inner)
    rw [Store.fillPieces, Store.fillPieces]
    generalize s.evaluate root (String.ofList inner) = found at hvalue hread
    generalize s'.evaluate root (String.ofList inner) = found' at hvalue hread
    obtain ⟨result, s₁⟩ := found
    obtain ⟨result', s₁'⟩ := found'
    obtain rfl : result' = result := hvalue
    cases result' with
    | error e => exact ⟨rfl, hread⟩
    | ok v =>
      obtain ⟨hresult, hstore⟩ := fillPieces root rest hread
      exact ⟨congrArg (Except.map (v.display.toList ++ ·)) hresult, hstore⟩

theorem fill (root : MappingId) (text : String) :
    (s'.fill root text).1 = (s.fill root text).1 ∧
      Shadowed w extra read (s.fill root text).2 (s'.fill root text).2 := by
  obtain ⟨hresult, hstore⟩ := fillPieces root (Template.pieces text) h
  exact ⟨congrArg (Except.map String.ofList) hresult, hstore⟩

end Shadowed

mutual

theorem Shadowed.observe {w : Nat} {extra : Watcher R} {read : List SlotId} :
    ∀ (j : Json) {s s' : Store R}, Shadowed w extra read s s' →
      (s'.observe j).1 = (s.observe j).1 ∧ Shadowed w extra read (s.observe j).2 (s'.observe j).2
  | .null, _, _, h | .bool _, _, _, h | .number _, _, _, h | .string _, _, _, h
  | .array _, _, _, h => ⟨rfl, h⟩
  | .object members, s, s', h => by
    obtain ⟨hslots, hstore⟩ := Shadowed.observeMembers members h
    obtain ⟨hid, hnew⟩ := hstore.newMapping (s.observeMembers members).1
    rw [Store.observe, Store.observe]
    dsimp only
    rw [hslots]
    exact ⟨congrArg Value.mapping hid, hnew⟩

theorem Shadowed.observeMembers {w : Nat} {extra : Watcher R} {read : List SlotId} :
    ∀ (members : List (String × Json)) {s s' : Store R}, Shadowed w extra read s s' →
      (s'.observeMembers members).1 = (s.observeMembers members).1 ∧
        Shadowed w extra read (s.observeMembers members).2 (s'.observeMembers members).2
  | [], _, _, h => ⟨rfl, h⟩
  | (key, j) :: rest, s, s', h => by
    obtain ⟨hvalue, hstore⟩ := Shadowed.observe j h
    obtain ⟨hslot, hnew⟩ := hstore.newSlot (s.observe j).1
    obtain ⟨hrest, hlast⟩ := Shadowed.observeMembers rest hnew
    rw [Store.observeMembers, Store.observeMembers]
    dsimp only
    rw [hvalue, hslot, hrest]
    exact ⟨rfl, hlast⟩

end

end Store

end DataBinding
