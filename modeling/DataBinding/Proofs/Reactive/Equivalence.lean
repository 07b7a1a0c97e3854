/-
  Equality of values as a relation.

  * `Json.same_symm`, `Json.same_trans`: plain data without repeated keys is compared by
    an equivalence;
  * `Value.equal_symm`, `Value.equal_trans_iff`: equality of values is symmetric, and it
    is transitive except at two different integers with a double between them that is
    nearest to both (`Value.Merged`).
-/
import DataBinding.Proofs.Number.Comparison
import DataBinding.Proofs.Reactive.Equality

namespace DataBinding

/-! ## Numbers of plain data -/

namespace Number

theorem same_symm {m n : Number} (h : m.same n = true) : n.same m = true := by
  cases m <;> cases n <;> simp only [same, beq_iff_eq, Double.numericallyEqual_iff] at h ⊢
  · exact h.symm
  · cases h
  · cases h
  · exact h.symm

theorem same_trans {l m n : Number} (h : l.same m = true) (h' : m.same n = true) :
    l.same n = true := by
  cases l <;> cases m <;> cases n <;>
    simp only [same, beq_iff_eq, Double.numericallyEqual_iff, Bool.false_eq_true] at h h' ⊢
  · exact h.trans h'
  · exact h.trans h'

end Number

namespace Json

/-! ## Plain data -/

theorem sameMembers_iff : ∀ {xs ys : List (String × Json)}, sameMembers xs ys = true ↔
    ∀ entry ∈ xs, ∃ y, Keyed.get? ys entry.1 = some y ∧ entry.2.same y = true
  | [], _ => by simp [sameMembers]
  | (key, x) :: rest, ys => by
    rw [sameMembers, Bool.and_eq_true, sameMembers_iff, List.forall_mem_cons]
    refine and_congr_left fun _ => ?_
    cases Keyed.get? ys key with
    | none => simp
    | some y => simp

theorem ProperMembers.of_mem : ∀ {members : List (String × Json)}, ProperMembers members →
    ∀ entry ∈ members, entry.2.Proper
  | [], _ => nofun
  | (_, _) :: _, h => List.forall_mem_cons.2 ⟨h.1, of_mem h.2⟩

/-- As many members as there are, under keys that are not repeated, are compared in both
    directions. -/
theorem sameMembers_symm {xs ys : List (String × Json)} (hxs : (Keyed.keys xs).Nodup)
    (hys : (Keyed.keys ys).Nodup) (hlength : xs.length = ys.length)
    (hsymm : ∀ entry ∈ xs, ∀ other ∈ ys, entry.2.same other.2 = true → other.2.same entry.2 = true)
    (h : sameMembers xs ys = true) : sameMembers ys xs = true := by
  rw [sameMembers_iff] at h ⊢
  have hsub : Keyed.keys xs ⊆ Keyed.keys ys := by
    intro key hkey
    obtain ⟨entry, hentry, rfl⟩ := List.mem_map.1 hkey
    obtain ⟨y, hy, -⟩ := h entry hentry
    exact Keyed.get?_isSome_iff.1 (Option.isSome_iff_exists.2 ⟨y, hy⟩)
  have hperm : (Keyed.keys xs).Perm (Keyed.keys ys) :=
    (hxs.subperm hsub).perm_of_length_le (by simp [Keyed.keys, hlength])
  intro other hother
  have hkey : other.1 ∈ Keyed.keys xs := hperm.mem_iff.2 (List.mem_map_of_mem hother)
  obtain ⟨entry, hentry, heq⟩ := List.mem_map.1 hkey
  obtain ⟨y, hy, hsame⟩ := h entry hentry
  rw [heq, Keyed.get?_of_mem hys hother, Option.some.injEq] at hy
  subst hy
  exact ⟨entry.2, heq ▸ Keyed.get?_of_mem hxs hentry, hsymm entry hentry other hother hsame⟩

mutual

/-- **Comparing proper plain data** is symmetric. -/
theorem same_symm : ∀ {x y : Json}, x.Proper → y.Proper → x.same y = true → y.same x = true
  | .null, y, _, _, h => by
    cases y with
    | null => rfl
    | _ => cases h
  | .bool a, y, _, _, h => by
    cases y with
    | bool b => exact beq_iff_eq.2 (beq_iff_eq.1 h).symm
    | _ => cases h
  | .number m, y, _, _, h => by
    cases y with
    | number n => exact Number.same_symm h
    | _ => cases h
  | .string s, y, _, _, h => by
    cases y with
    | string t => exact beq_iff_eq.2 (beq_iff_eq.1 h).symm
    | _ => cases h
  | .array xs, y, hx, hy, h => by
    cases y with
    | array ys => exact sameItems_symm hx hy h
    | _ => cases h
  | .object xs, y, hx, hy, h => by
    cases y with
    | object ys =>
      rw [same, Bool.and_eq_true, beq_iff_eq] at h ⊢
      refine ⟨h.1.symm, sameMembers_symm hx.1 hy.1 h.1 (fun entry hentry other hother => ?_) h.2⟩
      exact same_symm_of_mem hx.2 entry hentry (ProperMembers.of_mem hy.2 other hother)
    | _ => cases h

theorem sameItems_symm : ∀ {xs ys : List Json}, ProperItems xs → ProperItems ys →
    sameItems xs ys = true → sameItems ys xs = true
  | [], ys, _, _, h => by
    cases ys with
    | nil => rfl
    | cons => cases h
  | x :: xs, ys, hxs, hys, h => by
    cases ys with
    | nil => cases h
    | cons y ys =>
      rw [sameItems, Bool.and_eq_true] at h ⊢
      exact ⟨same_symm hxs.1 hys.1 h.1, sameItems_symm hxs.2 hys.2 h.2⟩

theorem same_symm_of_mem : ∀ {members : List (String × Json)}, ProperMembers members →
    ∀ entry ∈ members, ∀ {y : Json}, y.Proper → entry.2.same y = true → y.same entry.2 = true
  | [], _, _, hentry, _, _, _ => nomatch hentry
  | (_, _) :: _, hmembers, entry, hentry, y, hy, h => by
    rcases List.mem_cons.1 hentry with rfl | hentry
    · exact same_symm hmembers.1 hy h
    · exact same_symm_of_mem hmembers.2 entry hentry hy h

end

mutual

/-- **Comparing plain data** is transitive. -/
theorem same_trans : ∀ {x y z : Json}, x.same y = true → y.same z = true → x.same z = true
  | .null, y, z, h, h' => by
    cases y with
    | null => exact h'
    | _ => cases h
  | .bool a, y, z, h, h' => by
    cases y with
    | bool b => exact beq_iff_eq.1 h ▸ h'
    | _ => cases h
  | .number l, y, z, h, h' => by
    cases y with
    | number m =>
      cases z with
      | number n => exact Number.same_trans h h'
      | _ => cases h'
    | _ => cases h
  | .string s, y, z, h, h' => by
    cases y with
    | string t => exact beq_iff_eq.1 h ▸ h'
    | _ => cases h
  | .array xs, y, z, h, h' => by
    cases y with
    | array ys =>
      cases z with
      | array zs => exact sameItems_trans h h'
      | _ => cases h'
    | _ => cases h
  | .object xs, y, z, h, h' => by
    cases y with
    | object ys =>
      cases z with
      | object zs =>
        rw [same, Bool.and_eq_true, beq_iff_eq, sameMembers_iff] at h h' ⊢
        refine ⟨h.1.trans h'.1, fun entry hentry => ?_⟩
        obtain ⟨y, hy, hxy⟩ := h.2 entry hentry
        obtain ⟨z, hz, hyz⟩ := h'.2 _ (Keyed.mem_of_get? hy)
        exact ⟨z, hz, same_trans_of_mem entry hentry hxy hyz⟩
      | _ => cases h'
    | _ => cases h

theorem sameItems_trans : ∀ {xs ys zs : List Json}, sameItems xs ys = true →
    sameItems ys zs = true → sameItems xs zs = true
  | [], ys, zs, h, h' => by
    cases ys with
    | nil => exact h'
    | cons => cases h
  | x :: xs, ys, zs, h, h' => by
    cases ys with
    | nil => cases h
    | cons y ys =>
      cases zs with
      | nil => cases h'
      | cons z zs =>
        rw [sameItems, Bool.and_eq_true] at h h' ⊢
        exact ⟨same_trans h.1 h'.1, sameItems_trans h.2 h'.2⟩

theorem same_trans_of_mem : ∀ {members : List (String × Json)}, ∀ entry ∈ members,
    ∀ {y z : Json}, entry.2.same y = true → y.same z = true → entry.2.same z = true
  | [], _, hentry, _, _, _, _ => nomatch hentry
  | (_, _) :: _, entry, hentry, y, z, h, h' => by
    rcases List.mem_cons.1 hentry with rfl | hentry
    · exact same_trans h h'
    · exact same_trans_of_mem entry hentry h h'

end

end Json

namespace Value

/-! ## Values -/

/-- Equality of proper values is symmetric. -/
theorem equal_symm {v w : Value} (hv : v.Proper) (hw : w.Proper) : v.equal w = w.equal v := by
  cases v with
  | null => cases w <;> rfl
  | undefined => cases w <;> rfl
  | bool a =>
    cases w with
    | bool b => exact Bool.beq_comm
    | _ => rfl
  | number m =>
    cases w with
    | number n => exact m.equal_symm n
    | _ => rfl
  | string s =>
    cases w with
    | string t => exact BEq.comm
    | _ => rfl
  | array xs =>
    cases w with
    | array ys =>
      exact Bool.eq_iff_iff.2 ⟨Json.sameItems_symm hv hw, Json.sameItems_symm hw hv⟩
    | _ => rfl
  | mapping a =>
    cases w with
    | mapping b => exact BEq.comm
    | _ => rfl

/-- Two different integers and a double between them that is nearest to both, as values. -/
inductive Merged : Value → Value → Value → Prop
  /-- They are numbers. -/
  | number {l m n : Number} (h : l.Merged m n) : Merged (.number l) (.number m) (.number n)

/-- Equality of values is transitive except at two different integers with a double
    between them. -/
theorem equal_trans_iff {u v w : Value} (huv : u.equal v = true) (hvw : v.equal w = true) :
    u.equal w = false ↔ Merged u v w := by
  by_cases hnumbers : ∃ l m n, u = number l ∧ v = number m ∧ w = number n
  · obtain ⟨l, m, n, rfl, rfl, rfl⟩ := hnumbers
    refine (Number.equal_trans_iff huv hvw).trans ⟨.number, ?_⟩
    rintro ⟨h⟩
    exact h
  · have hmerged : ¬ Merged u v w := by
      rintro ⟨-⟩
      exact hnumbers ⟨_, _, _, rfl, rfl, rfl⟩
    refine iff_of_false ?_ hmerged
    rw [Bool.not_eq_false]
    cases u with
    | null =>
      cases v with
      | null => exact hvw
      | _ => cases huv
    | undefined =>
      cases v with
      | undefined => exact hvw
      | _ => cases huv
    | bool a =>
      cases v with
      | bool b => exact beq_iff_eq.1 huv ▸ hvw
      | _ => cases huv
    | number l =>
      cases v with
      | number m =>
        cases w with
        | number n => exact absurd ⟨l, m, n, rfl, rfl, rfl⟩ hnumbers
        | _ => cases hvw
      | _ => cases huv
    | string s =>
      cases v with
      | string t => exact beq_iff_eq.1 huv ▸ hvw
      | _ => cases huv
    | array xs =>
      cases v with
      | array ys =>
        cases w with
        | array zs => exact Json.sameItems_trans huv hvw
        | _ => cases hvw
      | _ => cases huv
    | mapping a =>
      cases v with
      | mapping b => exact beq_iff_eq.1 huv ▸ hvw
      | _ => cases huv

/-- **Equality of values** is reflexive and symmetric.  It is transitive as well, except
    that two different integers not smaller than `2 ^ 53` may both be equal to a double
    between them. -/
theorem equal_equivalence {u v w : Value} (hu : u.Proper) (hv : v.Proper) :
    u.equal u = true ∧ u.equal v = v.equal u ∧
      (u.equal v = true → v.equal w = true → (u.equal w = false ↔ Merged u v w)) :=
  ⟨equal_refl hu, equal_symm hu hv, equal_trans_iff⟩

/-- Objects in a sequence are equal in whatever order their members are. -/
theorem equal_equivalence_of_reordered :
    let u : Value := .array [.object [("a", .number (.int (-1) (by decide))), ("b", .null)]]
    let v : Value := .array [.object [("b", .null), ("a", .number (.int (-1) (by decide)))]]
    u.Proper ∧ v.Proper ∧ u.equal u = true ∧ u.equal v = true ∧ v.equal u = true ∧
      (u.equal u = false ↔ Merged u v u) := by
  intro u v
  have hu : u.Proper := ⟨⟨by decide, trivial, trivial, trivial⟩, trivial⟩
  have hv : v.Proper := ⟨⟨by decide, trivial, trivial, trivial⟩, trivial⟩
  have huv : u.equal v = true := by decide
  obtain ⟨hrefl, hsymm, htrans⟩ := equal_equivalence (w := u) hu hv
  have hvu := hsymm.symm.trans huv
  exact ⟨hu, hv, hrefl, huv, hvu, htrans huv hvu⟩

/-- The integer after `2 ^ 53` is equal to the double `2 ^ 53`. -/
theorem equal_not_transitive :
    let a : Value := .number (.int 9007199254740992 (by decide))
    let x : Value := .number (.float ⟨false, 0x10000000000000, 1075, by decide⟩)
    let b : Value := .number (.int 9007199254740993 (by decide))
    a.equal x = true ∧ x.equal b = true ∧ a.equal b = false := by
  decide +kernel

end Value

end DataBinding
