/-
  The double nearest to an integer of 64 bits.

  `Double.nearest` rounds an integer to 53 bits, a tie going to the even significand.

  * `ofRatio?_integer`: this is the magnitude of the double nearest to an integer of 64
    bits, which always exists;
  * `nearest_of_le`: integers up to `2 ^ 53` are their own nearest;
  * `le_nearest`, `nearest_le`: larger ones stay beyond `2 ^ 53` and within 64 bits.
-/
import DataBinding.Number.Basic
import Mathlib.Tactic.Common

namespace DataBinding.Double

open Number (twoTo twoTo_pos)

theorem twoTo_add (m n : Nat) : twoTo (m + n) = twoTo m * twoTo n := Nat.pow_add 2 m n

theorem twoTo_le {m n : Nat} (h : m ≤ n) : twoTo m ≤ twoTo n := Nat.pow_le_pow_right (by decide) h

/-! ## Rounding a fraction -/

/-- Rounding goes to one of the two integers around a fraction. -/
theorem roundRatio_mem (num den : Nat) :
    roundRatio num den = num / den ∨ roundRatio num den = num / den + 1 := by
  unfold roundRatio
  dsimp only
  split
  · exact .inr rfl
  · exact .inl rfl

/-- Fractions that are equal are rounded alike. -/
theorem roundRatio_mul_right (num den : Nat) {c : Nat} (hc : 0 < c) :
    roundRatio (num * c) (den * c) = roundRatio num den := by
  have htwice : 2 * (num % den * c) = 2 * (num % den) * c := (Nat.mul_assoc ..).symm
  unfold roundRatio
  dsimp only
  rw [Nat.mul_div_mul_right _ _ hc, Nat.mul_mod_mul_right, htwice]
  simp only [Nat.mul_lt_mul_right hc, Nat.mul_right_cancel_iff hc]

theorem roundRatio_one (n : Nat) : roundRatio n 1 = n := by
  unfold roundRatio
  simp [Nat.mod_one]

/-! ## Integers of 53 bits -/

/-- An integer rounded to 53 bits. -/
def nearest (n : Nat) : Nat :=
  roundRatio n (twoTo (n.log2 - 52)) * twoTo (n.log2 - 52)

/-- An integer of more than 53 bits has a significand of 53 bits, or one more. -/
theorem significand_mem {n : Nat} (hn : n ≠ 0) (hlog : 52 ≤ n.log2) :
    0x10000000000000 ≤ roundRatio n (twoTo (n.log2 - 52)) ∧
      roundRatio n (twoTo (n.log2 - 52)) ≤ 0x20000000000000 := by
  have hpos := twoTo_pos (n.log2 - 52)
  have hlow : twoTo 52 * twoTo (n.log2 - 52) ≤ n := by
    rw [← twoTo_add, Nat.add_sub_cancel' hlog]
    exact Nat.log2_self_le hn
  have hhigh : n < twoTo 53 * twoTo (n.log2 - 52) := by
    rw [← twoTo_add, show 53 + (n.log2 - 52) = n.log2 + 1 by omega]
    exact Nat.lt_log2_self
  have hquotient := (Nat.le_div_iff_mul_le hpos).2 hlow
  have hquotient' := (Nat.div_lt_iff_lt_mul hpos).2 hhigh
  change 0x10000000000000 ≤ _ at hquotient
  change _ < 0x20000000000000 at hquotient'
  rcases roundRatio_mem n (twoTo (n.log2 - 52)) with h | h <;> omega

/-- **An integer up to `2 ^ 53`** is its own nearest. -/
theorem nearest_of_le {n : Nat} (h : n ≤ 0x20000000000000) : nearest n = n := by
  rcases Nat.lt_or_eq_of_le h with hlt | rfl
  · have hlog : n.log2 - 52 = 0 := by
      by_cases hn : n = 0
      · rw [hn]
        rfl
      · have : n.log2 < 53 := (Nat.log2_lt hn).2 hlt
        omega
    rw [nearest, hlog, show twoTo 0 = 1 from rfl, roundRatio_one, Nat.mul_one]
  · decide

/-- A larger integer stays beyond `2 ^ 53`. -/
theorem le_nearest {n : Nat} (h : 0x20000000000000 ≤ n) : 0x20000000000000 ≤ nearest n := by
  have hn : n ≠ 0 := by omega
  have hlog : 53 ≤ n.log2 := (Nat.le_log2 hn).2 h
  obtain ⟨hlow, -⟩ := significand_mem hn (Nat.le_of_succ_le hlog)
  have hexponent : twoTo (n.log2 - 52) = twoTo (n.log2 - 53) * 2 := by
    rw [← Number.twoTo_succ, show n.log2 - 53 + 1 = n.log2 - 52 by omega]
  calc 0x20000000000000 = 0x10000000000000 * (1 * 2) := rfl
    _ ≤ roundRatio n (twoTo (n.log2 - 52)) * (twoTo (n.log2 - 53) * 2) :=
      Nat.mul_le_mul hlow (Nat.mul_le_mul_right _ (twoTo_pos _))
    _ = nearest n := by rw [nearest, hexponent]

/-- An integer of 64 bits stays within 64 bits, or becomes the first of 65. -/
theorem nearest_le {n : Nat} (h : n < twoTo 64) : nearest n ≤ twoTo 64 := by
  rcases Nat.lt_or_ge 0x20000000000000 n with hlarge | hsmall
  · have hn : n ≠ 0 := by omega
    have hlog : 53 ≤ n.log2 := (Nat.le_log2 hn).2 (Nat.le_of_lt hlarge)
    have hlog' : n.log2 < 64 := (Nat.log2_lt hn).2 h
    obtain ⟨-, hhigh⟩ := significand_mem hn (Nat.le_of_succ_le hlog)
    calc nearest n ≤ twoTo 53 * twoTo (n.log2 - 52) := Nat.mul_le_mul_right _ hhigh
      _ = twoTo (n.log2 + 1) := by rw [← twoTo_add, show 53 + (n.log2 - 52) = n.log2 + 1 by omega]
      _ ≤ twoTo 64 := twoTo_le hlog'
  · rw [nearest_of_le hsmall]
    exact Nat.le_of_lt h

theorem nearest_pos {n : Nat} (h : 0 < n) : 0 < nearest n := by
  rcases Nat.lt_or_ge 0x20000000000000 n with hlarge | hsmall
  · exact Nat.lt_of_lt_of_le (by decide) (le_nearest (Nat.le_of_lt hlarge))
  · rwa [nearest_of_le hsmall]

/-! ## The nearest double -/

theorem ofParts?_eq {negative : Bool} {significand exponent : Nat}
    (h : significand < 0x20000000000000 ∧ (exponent = 0 ∨ 0x10000000000000 ≤ significand) ∧
      exponent ≤ 2045) :
    ofParts? negative significand exponent = some ⟨negative, significand, exponent, h⟩ :=
  dif_pos h

/-- The double with a rounded significand and an exponent: a significand with one bit too
    many moves on to the next exponent. -/
theorem ofParts?_rounded (negative : Bool) {significand exponent : Nat}
    (hlow : 0x10000000000000 ≤ significand) (hhigh : significand ≤ 0x20000000000000)
    (hexponent : exponent < 2045) :
    ∃ x, (if significand = 0x20000000000000 then ofParts? negative 0x10000000000000 (exponent + 1)
        else ofParts? negative significand exponent) = some x ∧
      x.negative = negative ∧ x.units = significand * twoTo exponent := by
  split
  next hcarry =>
    refine ⟨_, ofParts?_eq ⟨by decide, .inr (Nat.le_refl _), hexponent⟩, rfl, ?_⟩
    change 0x10000000000000 * twoTo (exponent + 1) = significand * twoTo exponent
    rw [Number.twoTo_succ, hcarry]
    omega
  next hnot =>
    exact ⟨_, ofParts?_eq ⟨by omega, .inr hlow, by omega⟩, rfl, rfl⟩

theorem log2_mul_twoTo {n : Nat} (hn : n ≠ 0) (k : Nat) : (n * twoTo k).log2 = n.log2 + k := by
  rw [Nat.log2_eq_iff (Nat.mul_ne_zero hn (Nat.ne_of_gt (twoTo_pos _)))]
  change twoTo (n.log2 + k) ≤ _ ∧ _ < twoTo (n.log2 + k + 1)
  rw [Nat.add_right_comm, twoTo_add, twoTo_add (n.log2 + 1)]
  exact ⟨Nat.mul_le_mul_right _ (Nat.log2_self_le hn),
    Nat.mul_lt_mul_of_pos_right Nat.lt_log2_self (twoTo_pos _)⟩

/-- The significand of an integer of less than 53 bits is the integer, shifted up. -/
theorem significand_short {n : Nat} (hn : n ≠ 0) (h : n.log2 < 52) :
    let s := roundRatio (n * twoTo 1074) (twoTo (n.log2 + 1074 - 52))
    (0x10000000000000 ≤ s ∧ s ≤ 0x20000000000000) ∧
      s * twoTo (n.log2 + 1074 - 52) = nearest n * twoTo 1074 := by
  intro s
  obtain ⟨k, hk⟩ := Nat.exists_eq_add_of_lt h
  have hsplit : twoTo 1074 = twoTo (k + 1) * twoTo (n.log2 + 1074 - 52) := by
    rw [← twoTo_add, show k + 1 + (n.log2 + 1074 - 52) = 1074 by omega]
  have hround : s = n * twoTo (k + 1) := by
    have := roundRatio_mul_right (n * twoTo (k + 1)) 1 (twoTo_pos (n.log2 + 1074 - 52))
    rwa [Nat.one_mul, roundRatio_one, Nat.mul_assoc, ← hsplit] at this
  have hlow : 0x10000000000000 ≤ n * twoTo (k + 1) := by
    calc 0x10000000000000 = twoTo n.log2 * twoTo (k + 1) := by
          rw [← twoTo_add, show n.log2 + (k + 1) = 52 by omega]
          rfl
      _ ≤ n * twoTo (k + 1) := Nat.mul_le_mul_right _ (Nat.log2_self_le hn)
  have hhigh : n * twoTo (k + 1) < 0x20000000000000 := by
    calc n * twoTo (k + 1) < twoTo (n.log2 + 1) * twoTo (k + 1) :=
          Nat.mul_lt_mul_of_pos_right Nat.lt_log2_self (twoTo_pos _)
      _ = 0x20000000000000 := by
          rw [← twoTo_add, show n.log2 + 1 + (k + 1) = 53 by omega]
          rfl
  have hsmall : n ≤ 0x20000000000000 :=
    Nat.le_trans (Nat.le_mul_of_pos_right n (twoTo_pos (k + 1))) (Nat.le_of_lt hhigh)
  rw [hround]
  refine ⟨⟨hlow, Nat.le_of_lt hhigh⟩, ?_⟩
  rw [nearest_of_le hsmall, Nat.mul_assoc, ← hsplit]

/-- The significand of a longer integer is rounded to 53 bits. -/
theorem significand_long {n : Nat} (hn : n ≠ 0) (h : 52 ≤ n.log2) :
    let s := roundRatio (n * twoTo 1074) (twoTo (n.log2 + 1074 - 52))
    (0x10000000000000 ≤ s ∧ s ≤ 0x20000000000000) ∧
      s * twoTo (n.log2 + 1074 - 52) = nearest n * twoTo 1074 := by
  intro s
  have hsplit : twoTo (n.log2 + 1074 - 52) = twoTo (n.log2 - 52) * twoTo 1074 := by
    rw [← twoTo_add, show n.log2 - 52 + 1074 = n.log2 + 1074 - 52 by omega]
  have hround : s = roundRatio n (twoTo (n.log2 - 52)) := by
    change roundRatio (n * twoTo 1074) (twoTo (n.log2 + 1074 - 52)) = _
    rw [hsplit, roundRatio_mul_right _ _ (twoTo_pos _)]
  rw [hround]
  refine ⟨significand_mem hn h, ?_⟩
  rw [hsplit, ← Nat.mul_assoc, nearest]

/-- **The double nearest to an integer** of 64 bits: it has the sign that is given, and
    the integer rounded to 53 bits as its magnitude. -/
theorem ofRatio?_integer (negative : Bool) {n : Nat} (hn : n < twoTo 64) :
    ∃ x, ofRatio? negative n 1 = some x ∧ x.negative = negative ∧
      x.units = nearest n * twoTo 1074 := by
  rcases Nat.eq_zero_or_pos n with rfl | hpos
  · refine ⟨zero negative, ?_, rfl, ?_⟩
    · unfold ofRatio?
      dsimp only
      rw [Nat.zero_mul, Nat.zero_div, if_neg (by decide)]
      rfl
    · rw [nearest_of_le (Nat.zero_le _), Nat.zero_mul]
      rfl
  have hne : n ≠ 0 := Nat.ne_of_gt hpos
  have hlog : n.log2 < 64 := (Nat.log2_lt hne).2 hn
  have hexponent : n.log2 + 1074 - 52 < 2045 := by omega
  have hlarge : ¬ n * twoTo 1074 < 0x20000000000000 := by
    rw [Nat.not_lt]
    calc 0x20000000000000 = twoTo 53 := rfl
      _ ≤ twoTo 1074 := twoTo_le (by decide)
      _ ≤ n * twoTo 1074 := Nat.le_mul_of_pos_left _ hpos
  obtain ⟨⟨hlow, hhigh⟩, hunits⟩ := (Nat.lt_or_ge n.log2 52).elim (significand_short hne)
    (significand_long hne)
  unfold ofRatio?
  dsimp only
  rw [Nat.div_one, if_neg hlarge, log2_mul_twoTo hne, Nat.one_mul]
  obtain ⟨x, hx, hsign, hx'⟩ := ofParts?_rounded negative hlow hhigh hexponent
  exact ⟨x, hx, hsign, hx'.trans hunits⟩

end DataBinding.Double
