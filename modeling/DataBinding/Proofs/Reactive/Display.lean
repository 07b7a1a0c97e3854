/-
  Values that look the same.

  Two values are `Alike` if they have the same text and are null or undefined
  alike, so that they are shown the same wherever they are shown.  Values without
  doubles that are equal are alike (`Value.alike_of_equal`), also where the order
  of the members of an object in a sequence tells them apart.
-/
import DataBinding.Proofs.Number.Comparison
import DataBinding.Reactive.Value

namespace DataBinding

/-- A number is an integer. -/
def Number.Integral : Number → Prop
  | int _ _ => True
  | float _ => False

theorem Number.display_of_equal {m n : Number} (hm : m.Integral) (hn : n.Integral)
    (h : m.equal n = true) : m.display = n.display := by
  cases m with
  | int m =>
    cases n with
    | int n =>
      obtain rfl := equal_int_iff.1 h
      rfl
    | float => exact hn.elim
  | float => exact hm.elim

namespace Json

mutual

/-- All numbers in plain data are integers. -/
def Integral : Json → Prop
  | .number n => n.Integral
  | .array items => IntegralItems items
  | .object members => IntegralMembers members
  | _ => True

/-- All numbers in a sequence are integers. -/
def IntegralItems : List Json → Prop
  | [] => True
  | item :: rest => Integral item ∧ IntegralItems rest

/-- All numbers in the members of an object are integers. -/
def IntegralMembers : List (String × Json) → Prop
  | [] => True
  | (_, j) :: rest => Integral j ∧ IntegralMembers rest

end

mutual

theorem itemText_of_same : ∀ {x y : Json}, x.Integral → y.Integral → same x y = true →
    itemText x = itemText y
  | .null, y, _, _, h => by
    cases y <;> first | rfl | simp [same] at h
  | .bool a, y, _, _, h => by
    cases y <;> simp [same] at h
    rw [h]
  | .number m, y, hx, hy, h => by
    cases y <;> simp [same] at h
    exact Number.display_of_equal hx hy (Number.equal_of_same h)
  | .string s, y, _, _, h => by
    cases y <;> simp [same] at h
    rw [h]
  | .array xs, y, hx, hy, h => by
    cases y <;> simp [same] at h
    exact itemsText_of_same hx hy h
  | .object xs, y, _, _, h => by
    cases y <;> first | rfl | simp [same] at h

theorem itemsText_of_same : ∀ {xs ys : List Json}, IntegralItems xs → IntegralItems ys →
    sameItems xs ys = true → itemsText xs = itemsText ys
  | [], ys, _, _, h => by
    cases ys with
    | nil => rfl
    | cons => simp [sameItems] at h
  | x :: xs, ys, hxs, hys, h => by
    cases ys with
    | nil => simp [sameItems] at h
    | cons y ys =>
      rw [sameItems, Bool.and_eq_true] at h
      have hitem := itemText_of_same hxs.1 hys.1 h.1
      have hrest := itemsText_of_same hxs.2 hys.2 h.2
      cases xs with
      | nil =>
        cases ys with
        | nil => exact hitem
        | cons => simp [sameItems] at h
      | cons x' xs =>
        cases ys with
        | nil => simp [sameItems] at h
        | cons y' ys =>
          change itemText x ++ "," ++ itemsText (x' :: xs) =
            itemText y ++ "," ++ itemsText (y' :: ys)
          rw [hitem, hrest]

end

end Json

namespace Value

/-- All numbers in a value are integers. -/
def Integral : Value → Prop
  | number n => n.Integral
  | array items => Json.IntegralItems items
  | _ => True

/-- Values that are shown the same wherever they are shown. -/
structure Alike (v w : Value) : Prop where
  display : v.display = w.display
  isNull : v.isNull = w.isNull
  isNullish : v.isNullish = w.isNullish

namespace Alike

theorem refl (v : Value) : Alike v v := ⟨rfl, rfl, rfl⟩

theorem symm {v w : Value} (h : Alike v w) : Alike w v :=
  ⟨h.display.symm, h.isNull.symm, h.isNullish.symm⟩

theorem trans {u v w : Value} (h : Alike u v) (h' : Alike v w) : Alike u w :=
  ⟨h.display.trans h'.display, h.isNull.trans h'.isNull, h.isNullish.trans h'.isNullish⟩

end Alike

/-- **Equal values look the same**, if there are no doubles in them. -/
theorem alike_of_equal {v w : Value} (hv : v.Integral) (hw : w.Integral)
    (h : v.equal w = true) : v.Alike w := by
  cases v with
  | null => cases w <;> first | exact .refl _ | simp [equal] at h
  | undefined => cases w <;> first | exact .refl _ | simp [equal] at h
  | bool a =>
    cases w <;> simp [equal] at h
    exact h ▸ .refl _
  | number m =>
    cases w <;> simp [equal] at h
    exact ⟨Number.display_of_equal hv hw h, rfl, rfl⟩
  | string s =>
    cases w <;> simp [equal] at h
    exact h ▸ .refl _
  | array xs =>
    cases w <;> simp [equal] at h
    exact ⟨Json.itemsText_of_same hv hw h, rfl, rfl⟩
  | mapping a =>
    cases w <;> simp [equal] at h
    exact h ▸ .refl _

end Value

end DataBinding
