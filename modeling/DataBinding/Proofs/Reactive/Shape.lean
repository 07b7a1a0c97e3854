/-
  The shape of data: the keys at every level, without the other values.

  Two stores have the same shape if they differ in values other than mappings only.
  Whether a path resolves, and why it does not, depends on the shape only.

  * `Store.observe_shape`: the shape of reactive data is that of the plain data;
  * `SameShape.resolve`, `SameShape.fill`: paths, and texts with placeholders, in
    stores of the same shape.
-/
import DataBinding.Proofs.Reactive.Data
import DataBinding.Proofs.Reactive.Path

namespace DataBinding

variable {R ε α β γ δ : Type}

namespace Json

mutual

/-- The keys of plain data at every level; all other values are null. -/
def shape : Json → Json
  | .object members => .object (shapeMembers members)
  | .null | .bool _ | .number _ | .string _ | .array _ => .null

/-- The keys of members, and those in them. -/
def shapeMembers : List (String × Json) → List (String × Json)
  | [] => []
  | (key, j) :: rest => (key, shape j) :: shapeMembers rest

end

end Json

/-- A mapping, or null. -/
def Value.shape : Value → Value
  | .mapping id => .mapping id
  | .null | .undefined | .bool _ | .number _ | .string _ | .array _ => .null

/-- A value of the same shape is the same mapping, or no mapping either. -/
theorem Value.shape_cases {v w : Value} (h : v.shape = w.shape) :
    (∃ id, v = .mapping id ∧ w = .mapping id) ∨ v.isMapping = false ∧ w.isMapping = false := by
  cases v <;> cases w <;> cases h <;> simp [Value.isMapping]

namespace Store

/-- A store without values other than mappings. -/
def shape (s : Store R) : Store R :=
  { s with slots := s.slots.map fun slot => { slot with value := slot.value.shape } }

theorem newSlot_shape (s : Store R) (v : Value) :
    s.shape.newSlot v.shape = ((s.newSlot v).1, (s.newSlot v).2.shape) := by
  unfold newSlot shape
  simp only [Array.size_map, Array.map_push]

mutual

/-- **The shape of reactive data** is that of the plain data. -/
theorem observe_shape : ∀ (j : Json) (s : Store R),
    observe j.shape s.shape = ((observe j s).1.shape, (observe j s).2.shape)
  | .null, _ => rfl
  | .bool _, _ => rfl
  | .number _, _ => rfl
  | .string _, _ => rfl
  | .array _, _ => rfl
  | .object members, s => by
    rw [Json.shape, observe, observe, observeMembers_shape members s]
    rfl

theorem observeMembers_shape : ∀ (members : List (String × Json)) (s : Store R),
    observeMembers (Json.shapeMembers members) s.shape =
      ((observeMembers members s).1, (observeMembers members s).2.shape)
  | [], _ => rfl
  | (key, j) :: rest, s => by
    rw [Json.shapeMembers, observeMembers, observeMembers, observe_shape j s]
    dsimp only
    rw [newSlot_shape]
    dsimp only
    rw [observeMembers_shape rest]

end

theorem observeMapping_shape (members : List (String × Json)) (s : Store R) :
    s.shape.observeMapping (Json.shape (.object members)) =
      ((s.observeMapping (.object members)).1, (s.observeMapping (.object members)).2.shape) := by
  rw [Json.shape, observeMapping, observeMapping, observeMembers_shape members s]
  rfl

end Store

/-! ## Stores of the same shape -/

/-- Two computations both answer, or stop in the same way. -/
inductive SameEnd : Except ε α → Except ε β → Prop
  /-- Both answer. -/
  | ok (x : α) (y : β) : SameEnd (.ok x) (.ok y)
  /-- Both stop. -/
  | error (e : ε) : SameEnd (.error e) (.error e)

theorem SameEnd.map {r : Except ε α} {r' : Except ε β} (h : SameEnd r r') (f : α → γ)
    (g : β → δ) : SameEnd (r.map f) (r'.map g) := by
  cases h with
  | ok x y => exact .ok (f x) (g y)
  | error e => exact .error e

/-- Two stores with the same mappings, and values of the same shape. -/
def Store.SameShape (s s' : Store R) : Prop :=
  s'.mappings = s.mappings ∧ ∀ i, (s'.valueAt i).shape = (s.valueAt i).shape

namespace Store.SameShape

variable {s s' : Store R}

theorem of_shape (h : s'.shape = s.shape) : s.SameShape s' := by
  refine ⟨(congrArg Store.mappings h : s'.shape.mappings = s.shape.mappings), fun i => ?_⟩
  have hvalue : ∀ s : Store R, (s.valueAt i).shape =
      (s.shape.slots[i]?).elim (Value.shape .undefined) Slot.value := fun s => by
    unfold shape valueAt
    rw [Array.getElem?_map]
    cases s.slots[i]? <;> rfl
  rw [hvalue, hvalue, h]

theorem trackAll (h : s.SameShape s') (slots slots' : List SlotId) :
    (s.trackAll slots).SameShape (s'.trackAll slots') :=
  ⟨by rw [mappings_trackAll, mappings_trackAll, h.1],
    fun i => by rw [valueAt_trackAll, valueAt_trackAll, h.2]⟩

theorem walk (h : s.SameShape s') {path : String} : ∀ {segments : List String} {v w : Value},
    v.shape = w.shape → SameEnd (s.walk path v segments).2 (s'.walk path w segments).2
  | [], v, w, _ => by
    rw [walk_nil, walk_nil]
    exact .ok v w
  | segment :: rest, v, w, hvw => by
    rcases Value.shape_cases hvw with ⟨m, rfl, rfl⟩ | ⟨hv, hw⟩
    · have hslot : s'.slot? m segment = s.slot? m segment := by
        rw [slot?, members, h.1]
        rfl
      unfold Store.walk
      rw [hslot]
      split
      · exact .error _
      · split
        next slot _ => exact walk h (h.2 slot).symm
        next =>
          split
          · exact .ok _ _
          · exact .error _
    · have hstop : ∀ (s : Store R) {v : Value}, v.isMapping = false →
          (s.walk path v (segment :: rest)).2 = .error (.notAMapping path segment) := by
        intro s v hv
        cases v <;> first | rfl | cases hv
      rw [hstop s hv, hstop s' hw]
      exact .error _

/-- **Paths in stores of the same shape** both resolve, or neither does. -/
theorem resolve (h : s.SameShape s') (root : MappingId) (expression : String) :
    SameEnd (s.resolve root expression).2 (s'.resolve root expression).2 := by
  unfold Store.resolve
  dsimp only
  split
  · exact .error _
  · exact h.walk rfl

theorem fillPieces {root : MappingId} : ∀ {pieces : List Template.Piece} {s s' : Store R},
    s.SameShape s' → SameEnd (s.fillPieces root pieces).1 (s'.fillPieces root pieces).1
  | [], _, _, _ => .ok [] []
  | .literal c :: rest, s, s', h => by
    rw [Store.fillPieces, Store.fillPieces]
    exact (fillPieces h).map _ _
  | .placeholder inner :: rest, s, s', h => by
    have hvalue := h.resolve root (String.ofList inner)
    rw [Store.fillPieces, Store.fillPieces, evaluate_eq, evaluate_eq]
    generalize (s.resolve root (String.ofList inner)).2 = found at hvalue
    generalize (s'.resolve root (String.ofList inner)).2 = found' at hvalue
    cases hvalue with
    | error e => exact .error e
    | ok v w => exact (fillPieces (h.trackAll _ _)).map _ _

/-- Texts with placeholders in stores of the same shape are both filled in, or
    neither is. -/
theorem fill (h : s.SameShape s') (root : MappingId) (text : String) :
    SameEnd (s.fill root text).1 (s'.fill root text).1 :=
  h.fillPieces.map _ _

end Store.SameShape

end DataBinding
