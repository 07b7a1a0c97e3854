/-
  Comparing numbers.

  `Double.value` is the number that a double denotes.  Doubles are compared by it, two
  integers exactly, and an integer with a double by the double nearest to it.

  * `Double.eq_or_zero_of_value_eq`: only the two zeros denote the same number;
  * `equal_int_iff`: two integers are equal exactly if they are the same, also a negative
    one and one above the signed range, which are compared as doubles;
  * `equal_symm`, `equal_trans_iff`: equality is symmetric, and fails to be transitive
    exactly at two different integers with a double between them;
  * `large_of_toDouble_eq`: these are not smaller than `2 ^ 53`.
-/
import DataBinding.Proofs.Number.Nearest

namespace DataBinding

open Number (twoTo twoTo_pos)

namespace Double

/-! ## What a double denotes -/

/-- The number that a double denotes, in units of the least positive double. -/
def value (x : Double) : Int :=
  if x.negative then -(x.units : Int) else x.units

theorem numericallyEqual_iff {x y : Double} : x.numericallyEqual y = true ↔ x.value = y.value := by
  unfold numericallyEqual value
  cases x.negative <;> cases y.negative <;> simp <;> omega

/-- A magnitude has one significand and exponent. -/
theorem parts_of_units_eq {x y : Double} (h : x.units = y.units) :
    x.significand = y.significand ∧ x.exponent = y.exponent := by
  -- the one with the greater exponent has 53 bits, so that the other would have 54
  have hnot : ∀ {x y : Double}, x.units = y.units → ¬ x.exponent < y.exponent := by
    intro x y h hlt
    obtain ⟨k, hk⟩ := Nat.exists_eq_add_of_lt hlt
    have hpow : twoTo y.exponent = twoTo k * 2 * twoTo x.exponent := by
      rw [hk, Nat.add_assoc, twoTo_add, Number.twoTo_succ, Nat.mul_comm]
    have hbits := y.inRange.2.1.resolve_left (Nat.ne_of_gt (Nat.zero_lt_of_lt hlt))
    rw [units, units, hpow, ← Nat.mul_assoc] at h
    have hcancel := Nat.eq_of_mul_eq_mul_right (twoTo_pos _) h
    have hlow : 0x10000000000000 * (1 * 2) ≤ y.significand * (twoTo k * 2) :=
      Nat.mul_le_mul hbits (Nat.mul_le_mul_right 2 (twoTo_pos k))
    have hhigh := x.inRange.1
    omega
  have hexponent : x.exponent = y.exponent :=
    Nat.le_antisymm (Nat.le_of_not_lt (hnot h.symm)) (Nat.le_of_not_lt (hnot h))
  rw [units, units, hexponent] at h
  exact ⟨Nat.eq_of_mul_eq_mul_right (twoTo_pos _) h, hexponent⟩

/-- A double is determined by its sign and its magnitude. -/
theorem eq_of_units_eq {x y : Double} (hsign : x.negative = y.negative) (h : x.units = y.units) :
    x = y := by
  obtain ⟨hsignificand, hexponent⟩ := parts_of_units_eq h
  obtain ⟨a, s, e, _⟩ := x
  obtain ⟨b, t, f, _⟩ := y
  dsimp only at hsign hsignificand hexponent
  subst hsign hsignificand hexponent
  rfl

/-- **Only the two zeros** are different doubles that denote the same number. -/
theorem eq_or_zero_of_value_eq {x y : Double} (h : x.value = y.value) :
    x = y ∨ x.negative = !y.negative ∧ x.units = 0 ∧ y.units = 0 := by
  by_cases hsign : x.negative = y.negative
  · refine .inl (eq_of_units_eq hsign ?_)
    unfold value at h
    rw [hsign] at h
    split at h <;> omega
  · have hopposite : x.negative = !y.negative := by
      cases hx : x.negative <;> cases hy : y.negative <;> simp [hx, hy] at hsign ⊢
    refine .inr ⟨hopposite, ?_⟩
    unfold value at h
    cases hy : y.negative <;> simp [hopposite, hy] at h <;> omega

end Double

namespace Number

open Double (nearest nearest_of_le le_nearest nearest_pos)

/-! ## Integers as doubles -/

theorem natAbs_lt_twoTo {n : Int}
    (hn : -0x8000000000000000 ≤ n ∧ n < 0x10000000000000000) : n.natAbs < twoTo 64 := by
  change _ < 0x10000000000000000
  omega

/-- The double nearest to an integer. -/
theorem toDouble_int {n : Int} (hn : -0x8000000000000000 ≤ n ∧ n < 0x10000000000000000) :
    (int n hn).toDouble.negative = decide (n < 0) ∧
      (int n hn).toDouble.units = nearest n.natAbs * twoTo 1074 := by
  obtain ⟨x, hx, hsign, hunits⟩ := Double.ofRatio?_integer (decide (n < 0)) (natAbs_lt_twoTo hn)
  rw [toDouble, Double.ofInt?, hx, Option.getD_some]
  exact ⟨hsign, hunits⟩

section

variable {m n : Int} {hm : -0x8000000000000000 ≤ m ∧ m < 0x10000000000000000}
  {hn : -0x8000000000000000 ≤ n ∧ n < 0x10000000000000000} {x y : Double}

/-- Integers with the same nearest double have the same sign, and round to the same
    magnitude. -/
theorem nearest_eq_of_toDouble_eq
    (h : (int m hm).toDouble.value = (int n hn).toDouble.value) :
    (m < 0 ↔ n < 0) ∧ nearest m.natAbs = nearest n.natAbs := by
  obtain ⟨hmsign, hmunits⟩ := toDouble_int hm
  obtain ⟨hnsign, hnunits⟩ := toDouble_int hn
  have hcancel : nearest m.natAbs * twoTo 1074 = nearest n.natAbs * twoTo 1074 →
      nearest m.natAbs = nearest n.natAbs := Nat.eq_of_mul_eq_mul_right (twoTo_pos 1074)
  have hpos : ∀ k : Int, k < 0 → 0 < nearest k.natAbs * twoTo 1074 := fun k hk =>
    Nat.mul_pos (nearest_pos (by omega)) (twoTo_pos _)
  have hmpos := hpos m
  have hnpos := hpos n
  unfold Double.value at h
  rw [hmsign, hmunits, hnsign, hnunits] at h
  generalize nearest m.natAbs * twoTo 1074 = a at *
  generalize nearest n.natAbs * twoTo 1074 = b at *
  by_cases hm0 : m < 0 <;> by_cases hn0 : n < 0 <;> simp [hm0, hn0] at h hmpos hnpos ⊢
  · exact hcancel (by omega)
  · omega
  · omega
  · exact hcancel (by omega)

/-- **Different integers with the same nearest double** are not smaller than `2 ^ 53`. -/
theorem large_of_toDouble_eq (hne : m ≠ n)
    (h : (int m hm).toDouble.value = (int n hn).toDouble.value) :
    0x20000000000000 ≤ m.natAbs ∧ 0x20000000000000 ≤ n.natAbs := by
  obtain ⟨hsign, hnearest⟩ := nearest_eq_of_toDouble_eq h
  have hm := @nearest_of_le m.natAbs
  have hm' := @le_nearest m.natAbs
  have hn := @nearest_of_le n.natAbs
  have hn' := @le_nearest n.natAbs
  omega

/-! ## Equality -/

theorem equal_ints : (int m hm).equal (int n hn) =
    if m < 0x8000000000000000 ∧ n < 0x8000000000000000 ∨ 0 ≤ m ∧ 0 ≤ n then m == n
    else (int m hm).toDouble.numericallyEqual (int n hn).toDouble := by
  unfold equal toInt64? toUInt64?
  by_cases hms : m < 0x8000000000000000 <;> by_cases hns : n < 0x8000000000000000 <;>
    by_cases hm0 : 0 ≤ m <;> by_cases hn0 : 0 ≤ n <;> simp [hms, hns, hm0, hn0]

/-- **Equal integers are the same**, also across the two ranges of 64 bits. -/
theorem equal_int_iff : (int m hm).equal (int n hn) = true ↔ m = n := by
  rw [equal_ints]
  split
  · exact beq_iff_eq
  next hranges =>
    -- one is negative and the other one is not
    rw [Double.numericallyEqual_iff]
    refine ⟨fun h => ?_, fun h => ?_⟩
    · have hsign := (nearest_eq_of_toDouble_eq h).1
      omega
    · omega

theorem equal_float_iff : (float x).equal (float y) = true ↔ x.value = y.value :=
  Double.numericallyEqual_iff

theorem equal_int_float_iff :
    (int m hm).equal (float x) = true ↔ (int m hm).toDouble.value = x.value := by
  rw [← Double.numericallyEqual_iff]
  unfold equal
  cases (int m hm).toInt64? <;> cases (int m hm).toUInt64? <;> rfl

theorem equal_float_int_iff :
    (float x).equal (int m hm) = true ↔ x.value = (int m hm).toDouble.value :=
  Double.numericallyEqual_iff

end

/-- Numbers that are the same as plain data are equal as values. -/
theorem equal_of_same {m n : Number} (h : m.same n = true) : m.equal n = true := by
  cases m with
  | int m hm =>
    cases n with
    | int n hn => exact equal_int_iff.2 (beq_iff_eq.1 h)
    | float y => cases h
  | float x =>
    cases n with
    | int n hn => cases h
    | float y => exact h

/-- **Equality is symmetric.** -/
theorem equal_symm (m n : Number) : m.equal n = n.equal m := by
  rw [Bool.eq_iff_iff]
  cases m with
  | int m hm =>
    cases n with
    | int n hn => rw [equal_int_iff, equal_int_iff, eq_comm]
    | float y => rw [equal_int_float_iff, equal_float_int_iff, eq_comm]
  | float x =>
    cases n with
    | int n hn => rw [equal_int_float_iff, equal_float_int_iff, eq_comm]
    | float y => rw [equal_float_iff, equal_float_iff, eq_comm]

/-- Two different integers and a double between them that is nearest to both. -/
inductive Merged : Number → Number → Number → Prop
  /-- The integers are not smaller than `2 ^ 53`. -/
  | double {m n : Int} {hm : -0x8000000000000000 ≤ m ∧ m < 0x10000000000000000}
      {hn : -0x8000000000000000 ≤ n ∧ n < 0x10000000000000000} {x : Double} (hne : m ≠ n)
      (hlarge : 0x20000000000000 ≤ m.natAbs ∧ 0x20000000000000 ≤ n.natAbs)
      (hmx : (int m hm).toDouble = x) (hnx : (int n hn).toDouble = x) :
      Merged (int m hm) (float x) (int n hn)

/-- A double other than zero that an integer is equal to is the nearest to it. -/
theorem toDouble_eq {m : Int} {hm : -0x8000000000000000 ≤ m ∧ m < 0x10000000000000000} {x : Double}
    (h : (int m hm).toDouble.value = x.value) (hlarge : 0x20000000000000 ≤ m.natAbs) :
    (int m hm).toDouble = x := by
  refine (Double.eq_or_zero_of_value_eq h).resolve_right fun hzero => ?_
  have hunits := (toDouble_int hm).2.symm.trans hzero.2.1
  exact Nat.ne_of_gt (Nat.mul_pos (nearest_pos (by omega)) (twoTo_pos 1074)) hunits

/-- **Equality is transitive** except at two different integers with a double between
    them. -/
theorem equal_trans_iff {l m n : Number} (hlm : l.equal m = true) (hmn : m.equal n = true) :
    l.equal n = false ↔ Merged l m n := by
  constructor
  · intro hln
    rw [← Bool.not_eq_true] at hln
    cases l with
    | int l hl =>
      cases n with
      | int n hn =>
        rw [equal_int_iff] at hln
        cases m with
        | int m hm => exact absurd ((equal_int_iff.1 hlm).trans (equal_int_iff.1 hmn)) hln
        | float y =>
          rw [equal_int_float_iff] at hlm
          rw [equal_float_int_iff] at hmn
          have hlarge := large_of_toDouble_eq hln (hlm.trans hmn)
          exact .double hln hlarge (toDouble_eq hlm hlarge.1) (toDouble_eq hmn.symm hlarge.2)
      | float z =>
        rw [equal_int_float_iff] at hln
        cases m with
        | int m hm =>
          obtain rfl := equal_int_iff.1 hlm
          exact absurd (equal_int_float_iff.1 hmn) hln
        | float y =>
          exact absurd ((equal_int_float_iff.1 hlm).trans (equal_float_iff.1 hmn)) hln
    | float x =>
      cases n with
      | int n hn =>
        rw [equal_float_int_iff] at hln
        cases m with
        | int m hm =>
          obtain rfl := equal_int_iff.1 hmn
          exact absurd (equal_float_int_iff.1 hlm) hln
        | float y =>
          exact absurd ((equal_float_iff.1 hlm).trans (equal_float_int_iff.1 hmn)) hln
      | float z =>
        rw [equal_float_iff] at hln
        cases m with
        | int m hm =>
          exact absurd ((equal_float_int_iff.1 hlm).trans (equal_int_float_iff.1 hmn)) hln
        | float y => exact absurd ((equal_float_iff.1 hlm).trans (equal_float_iff.1 hmn)) hln
  · rintro ⟨hne, -, -, -⟩
    rw [← Bool.not_eq_true, equal_int_iff]
    exact hne

end Number

end DataBinding
