/-
  What the text of a number tells.

  The figure of a number is its sign, which a zero has too, and its exact magnitude.

  * `display_of_figure`: integral numbers below `10 ^ 21` are written as integers, be they
    integers or doubles;
  * `eq_or_integral_of_equal`: different numbers are equal only if they are such numbers;
  * `display_eq_iff`: so equal numbers have the same text exactly if they have the same
    figure.
-/
import DataBinding.Proofs.Number.Comparison
import DataBinding.Number.Text

namespace DataBinding.Number

open Double (nearest nearest_le)

/-- What the text of a number tells: its sign and its magnitude, in units of the least
    positive double. -/
def figure : Number → Bool × Nat
  | int n _ => (decide (n < 0), n.natAbs * twoTo 1074)
  | float x => (x.negative, x.units)

theorem figure_float {x : Double} {k : Nat} (h : x.units = k) :
    (float x).figure = (x.negative, k) := by
  rw [← h]
  rfl

/-- The text of an integer with a sign, which may be that of zero. -/
def integerText (negative : Bool) (k : Nat) : String :=
  (if negative then "-" else "") ++ toString k

theorem toString_inj {j k : Nat} (h : toString j = toString k) : j = k := by
  have hdigits : Nat.toDigits 10 j = Nat.toDigits 10 k := by
    rw [← Nat.toList_repr, ← Nat.toList_repr]
    exact congrArg String.toList h
  calc j = Nat.ofDigitChars 10 (Nat.toDigits 10 j) 0 := Nat.ofDigitChars_ten_toDigits.symm
    _ = Nat.ofDigitChars 10 (Nat.toDigits 10 k) 0 := by rw [hdigits]
    _ = k := Nat.ofDigitChars_ten_toDigits

theorem integerText_inj {a b : Bool} {j k : Nat} :
    integerText a j = integerText b k ↔ a = b ∧ j = k := by
  -- no digit is a sign
  have hsign : ∀ j k : Nat, "-" ++ toString j ≠ "" ++ toString k := by
    intro j k h
    have hhead : '-' ∈ (toString k).toList := by
      rw [String.empty_append] at h
      rw [← h, String.toList_append]
      exact List.mem_append_left _ (List.mem_singleton_self _)
    rw [show toString k = k.repr from rfl, Nat.toList_repr] at hhead
    exact absurd (Nat.isDigit_of_mem_toDigits (by decide) (by decide) hhead) (by decide)
  constructor
  · intro h
    cases a <;> cases b
    · exact ⟨rfl, toString_inj ((String.append_right_inj "").1 h)⟩
    · exact absurd h.symm (hsign k j)
    · exact absurd h (hsign j k)
    · exact ⟨rfl, toString_inj ((String.append_right_inj "-").1 h)⟩
  · rintro ⟨rfl, rfl⟩
    rfl

theorem toString_int (n : Int) : toString n = integerText (decide (n < 0)) n.natAbs := by
  cases n with
  | ofNat m => exact String.empty_append.symm
  | negSucc m =>
    rw [decide_eq_true (Int.negSucc_lt_zero m)]
    rfl

/-- An integral number below `10 ^ 21` is written as an integer. -/
theorem display_of_figure {n : Number} {negative : Bool} {k : Nat}
    (h : n.figure = (negative, k * twoTo 1074)) (hk : k < tenTo 21) :
    n.display = integerText negative k := by
  have hpos := twoTo_pos 1074
  cases n with
  | int n hn =>
    obtain ⟨hsign, hmagnitude⟩ := Prod.mk.inj h
    rw [display, toString_int, hsign, Nat.eq_of_mul_eq_mul_right hpos hmagnitude]
  | float x =>
    obtain ⟨hsign, hunits⟩ := Prod.mk.inj h
    have hwhole : x.wholePart = k := by rw [Double.wholePart, hunits, Nat.mul_div_cancel _ hpos]
    have hintegral : x.isIntegral = true := by
      rw [Double.isIntegral, hunits, Nat.mul_mod_left, decide_eq_true rfl]
    rw [display, hintegral, hwhole, hsign, decide_eq_true hk]
    rfl

theorem natAbs_lt_tenTo {n : Int}
    (hn : -0x8000000000000000 ≤ n ∧ n < 0x10000000000000000) : n.natAbs < tenTo 21 :=
  Nat.lt_trans (natAbs_lt_twoTo hn) (by decide)

/-- A double that an integer is equal to is as large as the one nearest to the integer. -/
theorem units_eq_of_value_eq {n : Int}
    {hn : -0x8000000000000000 ≤ n ∧ n < 0x10000000000000000} {x : Double}
    (h : (int n hn).toDouble.value = x.value) : x.units = nearest n.natAbs * twoTo 1074 := by
  rw [← (toDouble_int hn).2]
  rcases Double.eq_or_zero_of_value_eq h with heq | ⟨-, hzero, hzero'⟩
  · rw [heq]
  · rw [hzero, hzero']

/-- Different numbers are equal only if they are integral and below `10 ^ 21`. -/
theorem eq_or_integral_of_equal {m n : Number} (h : m.equal n = true) :
    m = n ∨ ∃ a b j k, j < tenTo 21 ∧ k < tenTo 21 ∧ m.figure = (a, j * twoTo 1074) ∧
      n.figure = (b, k * twoTo 1074) := by
  have hnearest : ∀ {n : Int}, -0x8000000000000000 ≤ n ∧ n < 0x10000000000000000 →
      nearest n.natAbs < tenTo 21 := fun hn =>
    Nat.lt_of_le_of_lt (nearest_le (natAbs_lt_twoTo hn)) (by decide)
  cases m with
  | int m hm =>
    cases n with
    | int n hn =>
      obtain rfl := equal_int_iff.1 h
      exact .inl rfl
    | float y =>
      have hunits := units_eq_of_value_eq (equal_int_float_iff.1 h)
      exact .inr ⟨_, _, _, _, natAbs_lt_tenTo hm, hnearest hm, rfl, figure_float hunits⟩
  | float x =>
    cases n with
    | int n hn =>
      have hunits := units_eq_of_value_eq (equal_float_int_iff.1 h).symm
      exact .inr ⟨_, _, _, _, hnearest hn, natAbs_lt_tenTo hn, figure_float hunits, rfl⟩
    | float y =>
      rcases Double.eq_or_zero_of_value_eq (equal_float_iff.1 h) with rfl | ⟨-, hx, hy⟩
      · exact .inl rfl
      · exact .inr ⟨x.negative, y.negative, 0, 0, tenTo_pos 21, tenTo_pos 21,
          figure_float (hx.trans (Nat.zero_mul _).symm),
          figure_float (hy.trans (Nat.zero_mul _).symm)⟩

/-- **Equal numbers have the same text** exactly if they have the same figure. -/
theorem display_eq_iff {m n : Number} (h : m.equal n = true) :
    m.display = n.display ↔ m.figure = n.figure := by
  rcases eq_or_integral_of_equal h with rfl | ⟨a, b, j, k, hj, hk, hm, hn⟩
  · exact iff_of_true rfl rfl
  · rw [display_of_figure hm hj, display_of_figure hn hk, integerText_inj, hm, hn, Prod.mk.injEq,
      Nat.mul_right_cancel_iff (twoTo_pos 1074)]

end DataBinding.Number
