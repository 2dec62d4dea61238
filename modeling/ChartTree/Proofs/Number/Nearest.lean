import ChartTree.Number
import Mathlib.Algebra.Order.Field.Power
import Mathlib.Tactic.FieldSimp
import Mathlib.Tactic.Linarith
import Mathlib.Tactic.NormNum
import Mathlib.Tactic.Positivity

/-! The nearest number to a fraction that is a number. Fractions are compared as rational numbers, so it
does not matter how they are written: the rank that is found is the rank of their value. -/
namespace ChartTree

section
variable {num den : Nat}

theorem shiftFractionPositive (num : Nat) (k : Int) (positive : 0 < den) : 0 < (shiftFraction num den k).2 := by
  cases k with
  | ofNat k => exact positive
  | negSucc k => exact Nat.mul_pos positive (Nat.pow_pos Nat.two_pos)

theorem shiftFractionValue (num den : Nat) (k : Int) :
    ((shiftFraction num den k).1 : ℚ) / (shiftFraction num den k).2 = num / den * 2 ^ k := by
  cases k with
  | ofNat k => simp [shiftFraction, mul_div_right_comm]
  | negSucc k =>
    simp only [shiftFraction, Nat.pow_eq, Nat.cast_mul, Nat.cast_pow, Nat.cast_ofNat, zpow_negSucc]
    rw [div_mul_eq_div_div, div_eq_mul_inv (_ / _)]

theorem shiftedBelow (k : Int) (bottom : 0 < den) :
    (shiftFraction num den (-k)).2 ≤ (shiftFraction num den (-k)).1 ↔ (2 : ℚ) ^ k ≤ num / den := by
  have positive : (0 : ℚ) < (shiftFraction num den (-k)).2 :=
    Nat.cast_pos.mpr (shiftFractionPositive num (-k) bottom)
  have power : (0 : ℚ) < 2 ^ k := by positivity
  rw [← @Nat.cast_le ℚ, ← one_le_div₀ positive, shiftFractionValue, zpow_neg, ← div_eq_mul_inv,
    one_le_div₀ power]

theorem log2Bounds {n : Nat} (positive : 0 < n) :
    (2 : ℚ) ^ (n.log2 : Int) ≤ n ∧ (n : ℚ) < 2 ^ (n.log2 + 1 : Int) := by
  have low := Nat.log2_self_le (Nat.pos_iff_ne_zero.mp positive)
  have high := Nat.lt_log2_self (n := n)
  constructor
  · exact_mod_cast low
  · exact_mod_cast high

theorem guessBounds (top : 0 < num) (bottom : 0 < den) :
    (2 : ℚ) ^ ((num.log2 : Int) - den.log2 - 1) ≤ num / den ∧
      (num / den : ℚ) < 2 ^ ((num.log2 : Int) - den.log2 + 1) := by
  obtain ⟨topLow, topHigh⟩ := log2Bounds top
  obtain ⟨bottomLow, bottomHigh⟩ := log2Bounds bottom
  have positive : (0 : ℚ) < den := Nat.cast_pos.mpr bottom
  constructor
  · rw [le_div_iff₀ positive]
    calc (2 : ℚ) ^ ((num.log2 : Int) - den.log2 - 1) * den
        ≤ 2 ^ ((num.log2 : Int) - den.log2 - 1) * 2 ^ (den.log2 + 1 : Int) := by gcongr
      _ = 2 ^ (num.log2 : Int) := by rw [← zpow_add₀ two_ne_zero]; congr 1; omega
      _ ≤ num := topLow
  · rw [div_lt_iff₀ positive]
    calc (num : ℚ) < 2 ^ (num.log2 + 1 : Int) := topHigh
      _ = 2 ^ ((num.log2 : Int) - den.log2 + 1) * 2 ^ (den.log2 : Int) := by
        rw [← zpow_add₀ two_ne_zero]; congr 1; omega
      _ ≤ 2 ^ ((num.log2 : Int) - den.log2 + 1) * den := by gcongr

/- The guess from the two logarithms is right or one too high. -/
theorem fractionLogBounds (top : 0 < num) (bottom : 0 < den) :
    (2 : ℚ) ^ fractionLog num den ≤ num / den ∧ (num / den : ℚ) < 2 ^ (fractionLog num den + 1) := by
  obtain ⟨low, high⟩ := guessBounds top bottom
  unfold fractionLog
  dsimp only
  split
  · rename_i fits
    exact ⟨(shiftedBelow _ bottom).mp fits, high⟩
  · rename_i short
    rw [shiftedBelow _ bottom, not_le] at short
    exact ⟨low, by rwa [sub_add_cancel]⟩

theorem fractionLogUnique (top : 0 < num) (bottom : 0 < den) {k : Int} (low : (2 : ℚ) ^ k ≤ num / den)
    (high : (num / den : ℚ) < 2 ^ (k + 1)) : fractionLog num den = k := by
  obtain ⟨below, above⟩ := fractionLogBounds top bottom
  have left := (zpow_lt_zpow_iff_right₀ one_lt_two).mp (low.trans_lt above)
  have right := (zpow_lt_zpow_iff_right₀ one_lt_two).mp (below.trans_lt high)
  omega

theorem roundQuotientExact (whole : Nat) (positive : 0 < den) : roundQuotient (whole * den) den = whole := by
  have even : ¬ (den < 0 ∨ (0 = den ∧ whole % 2 = 1)) := by omega
  rw [roundQuotient, Nat.mul_div_cancel _ positive, Nat.mul_mod_left]
  exact if_neg even

theorem Grid.roundExact (g : Grid) {significand : Nat} {step : Int} (bottom : 0 < den)
    (value : (num / den : ℚ) = significand * 2 ^ step)
    (own : max (fractionLog num den - (g.precision - 1 : Nat)) g.least = step) :
    g.round num den = (significand, step) := by
  have positive := shiftFractionPositive num (-step) bottom
  have shifted := shiftFractionValue num den (-step)
  have power : (2 : ℚ) ^ step ≠ 0 := by positivity
  rw [value, zpow_neg, mul_assoc, mul_inv_cancel₀ power, mul_one,
    div_eq_iff (Nat.cast_ne_zero.mpr positive.ne')] at shifted
  have whole : (shiftFraction num den (-step)).1 = significand * (shiftFraction num den (-step)).2 := by
    exact_mod_cast shifted
  unfold round
  dsimp only
  rw [own, whole, roundQuotientExact significand positive]

end

namespace Number

def magnitude (rank : Nat) : ℚ := significand rank * 2 ^ exponent rank

theorem fractionValue (rank : Nat) : ((fraction rank).1 / (fraction rank).2 : ℚ) = magnitude rank := by
  rw [fraction, shiftFractionValue, Nat.cast_one, div_one, magnitude]

theorem fractionPositive (rank : Nat) : 0 < (fraction rank).2 :=
  shiftFractionPositive _ _ Nat.one_pos

theorem significandLow {rank : Nat} (low : rank < binade) : significand rank = rank ∧ exponent rank = -1074 :=
  ⟨if_pos low, if_pos low⟩

theorem significandHigh {rank : Nat} (high : binade ≤ rank) :
    binade ≤ significand rank ∧ significand rank < 2 * binade ∧
      (exponent rank + 1074).toNat * binade + significand rank = rank ∧ -1074 ≤ exponent rank := by
  have split := Nat.div_add_mod rank binade
  have below := Nat.mod_lt rank (show 0 < binade by decide)
  have above : 0 < rank / binade := Nat.div_pos high (by decide)
  rw [significand, exponent, if_neg (by omega), if_neg (by omega)]
  refine ⟨by omega, by omega, ?_, by omega⟩
  have steps : ((rank / binade : Nat) - 1075 + 1074 : Int).toNat = rank / binade - 1 := by omega
  rw [steps, Nat.sub_mul, Nat.one_mul, mul_comm]
  have whole : binade ≤ binade * (rank / binade) := Nat.le_mul_of_pos_right _ above
  omega

theorem significandBounds {rank : Nat} (positive : 0 < rank) (bound : rank < ranks) :
    0 < significand rank ∧ significand rank < 2 ^ 53 ∧ -1074 ≤ exponent rank ∧ exponent rank ≤ 971 := by
  by_cases low : rank < binade
  · obtain ⟨same, least⟩ := significandLow low
    rw [same, least]
    simp only [binade] at low
    omega
  · obtain ⟨least, most, shape, above⟩ := significandHigh (Nat.not_lt.mp low)
    simp only [binade, ranks] at least most shape bound
    omega

theorem magnitudeBounds {rank : Nat} (positive : 0 < rank) (bound : rank < ranks) :
    (2 : ℚ) ^ (-1074 : Int) ≤ magnitude rank ∧ magnitude rank < 2 ^ (1024 : Int) := by
  obtain ⟨nonzero, small, least, most⟩ := significandBounds positive bound
  have one : (1 : ℚ) ≤ significand rank := by exact_mod_cast nonzero
  have under : (significand rank : ℚ) < 2 ^ (53 : Int) := by exact_mod_cast small
  constructor
  · calc (2 : ℚ) ^ (-1074 : Int) ≤ 2 ^ exponent rank := zpow_le_zpow_right₀ one_le_two least
      _ ≤ significand rank * 2 ^ exponent rank := le_mul_of_one_le_left (by positivity) one
  · calc (significand rank * 2 ^ exponent rank : ℚ) ≤ significand rank * 2 ^ (971 : Int) := by
          gcongr
          exact one_le_two
      _ < 2 ^ (53 : Int) * 2 ^ (971 : Int) := by gcongr
      _ = 2 ^ (1024 : Int) := by rw [← zpow_add₀ two_ne_zero]; rfl

theorem magnitudeStep {num den rank : Nat} (top : 0 < num) (bottom : 0 < den)
    (value : (num / den : ℚ) = magnitude rank) :
    max (fractionLog num den - (Grid.double.precision - 1 : Nat)) Grid.double.least = exponent rank := by
  by_cases low : rank < binade
  · obtain ⟨same, least⟩ := significandLow low
    have small : (rank : ℚ) < 2 ^ (52 : Int) := by exact_mod_cast low
    have below : (2 : ℚ) ^ fractionLog num den < 2 ^ (-1022 : Int) := by
      calc (2 : ℚ) ^ fractionLog num den ≤ num / den := (fractionLogBounds top bottom).1
        _ = rank * 2 ^ (-1074 : Int) := by rw [value, magnitude, same, least]
        _ < 2 ^ (52 : Int) * 2 ^ (-1074 : Int) := by gcongr
        _ = 2 ^ (-1022 : Int) := by rw [← zpow_add₀ two_ne_zero]; rfl
    have log := (zpow_lt_zpow_iff_right₀ one_lt_two).mp below
    rw [least]
    simp only [Grid.double]
    omega
  · obtain ⟨least, most, _, above⟩ := significandHigh (Nat.not_lt.mp low)
    have left : (2 : ℚ) ^ (52 : Int) ≤ significand rank := by exact_mod_cast least
    have right : (significand rank : ℚ) < 2 ^ (53 : Int) := by exact_mod_cast most
    have log : fractionLog num den = 52 + exponent rank := by
      apply fractionLogUnique top bottom
      · rw [value, magnitude, zpow_add₀ two_ne_zero]
        gcongr
      · rw [value, magnitude, show 52 + exponent rank + 1 = 53 + exponent rank by omega,
          zpow_add₀ two_ne_zero]
        gcongr
    rw [log]
    simp only [Grid.double]
    omega

theorem nearestRankExact {num den rank : Nat} (bottom : 0 < den) (positive : 0 < rank) (bound : rank < ranks)
    (value : (num / den : ℚ) = magnitude rank) : nearestRank num den = rank := by
  have above : (0 : ℚ) < magnitude rank := lt_of_lt_of_le (by positivity) (magnitudeBounds positive bound).1
  have top : 0 < num := by
    rcases Nat.eq_zero_or_pos num with rfl | top
    · rw [Nat.cast_zero, zero_div] at value
      exact absurd value above.ne
    · exact top
  have rounded := Grid.double.roundExact bottom value (magnitudeStep top bottom value)
  rw [nearestRank, if_neg top.ne', rounded]
  by_cases low : rank < binade
  · obtain ⟨same, least⟩ := significandLow low
    rw [same, least]
    exact Nat.zero_add rank
  · exact (significandHigh (Nat.not_lt.mp low)).2.2.1

end Number
end ChartTree
