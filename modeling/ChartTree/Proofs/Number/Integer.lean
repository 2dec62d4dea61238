import ChartTree.Proofs.Number.Nearest

/-! Integers as numbers. Those of at most 53 bits are magnitudes of the format, so widening loses nothing. -/
namespace ChartTree.Number

def integerRank (n : Nat) : Nat := (n.log2 + 1022) * binade + n * 2 ^ (52 - n.log2)

section
variable {n : Nat}

theorem integerFills (positive : 0 < n) (small : n < 2 ^ 53) :
    n.log2 ≤ 52 ∧ binade ≤ n * 2 ^ (52 - n.log2) ∧ n * 2 ^ (52 - n.log2) < 2 * binade := by
  have low := Nat.log2_self_le (Nat.pos_iff_ne_zero.mp positive)
  have high := Nat.lt_log2_self (n := n)
  have short : n.log2 ≤ 52 := Nat.le_of_lt_succ ((Nat.log2_lt (Nat.pos_iff_ne_zero.mp positive)).mpr small)
  have whole : binade = 2 ^ n.log2 * 2 ^ (52 - n.log2) := by
    rw [← Nat.pow_add, Nat.add_sub_cancel' short]
    rfl
  refine ⟨short, ?_, ?_⟩
  · rw [whole]
    exact Nat.mul_le_mul_right _ low
  · rw [whole, ← Nat.mul_assoc, ← Nat.pow_succ']
    exact Nat.mul_lt_mul_of_pos_right high (Nat.two_pow_pos _)

theorem integerMagnitude (positive : 0 < n) (small : n < 2 ^ 53) :
    0 < integerRank n ∧ integerRank n < ranks ∧ magnitude (integerRank n) = n := by
  obtain ⟨short, least, most⟩ := integerFills positive small
  have split : integerRank n = (n.log2 + 1023) * binade + (n * 2 ^ (52 - n.log2) - binade) := by
    simp only [integerRank, binade] at least most ⊢
    omega
  have quotient : integerRank n / binade = n.log2 + 1023 := by
    rw [split]
    simp only [binade] at least most ⊢
    omega
  have remainder : integerRank n % binade = n * 2 ^ (52 - n.log2) - binade := by
    rw [split]
    simp only [binade] at least most ⊢
    omega
  have high : binade ≤ integerRank n := by
    rw [split]
    simp only [binade] at least most ⊢
    omega
  refine ⟨?_, ?_, ?_⟩
  · simp only [binade] at high
    omega
  · rw [split]
    simp only [binade, ranks] at least most ⊢
    omega
  · have filled : significand (integerRank n) = n * 2 ^ (52 - n.log2) := by
      rw [significand, if_neg high.not_gt, remainder, Nat.add_sub_cancel' least]
    have step : exponent (integerRank n) = -((52 - n.log2 : Nat) : Int) := by
      rw [exponent, if_neg high.not_gt, quotient]
      omega
    rw [magnitude, filled, step, zpow_neg, zpow_natCast]
    push_cast
    exact mul_inv_cancel_right₀ (by positivity) (n : ℚ)

end

theorem wholeInteger {negative : Bool} {rank : Fin ranks} {n : Nat} (value : magnitude rank.val = n)
    (proper : negative = true → rank.val ≠ 0) :
    (finite negative rank).integer? = some (if negative then -(n : Int) else n) := by
  have bottom := fractionPositive rank.val
  have whole : (fraction rank.val).1 = n * (fraction rank.val).2 := by
    have same := (fractionValue rank.val).trans value
    rw [div_eq_iff (Nat.cast_ne_zero.mpr bottom.ne')] at same
    exact_mod_cast same
  have signed : ¬ (negative && rank.val == 0) = true := by
    rw [Bool.and_eq_true, beq_iff_eq]
    exact fun zero => proper zero.1 zero.2
  rw [integer?, if_neg signed]
  dsimp only
  rw [whole, if_pos (Nat.mul_mod_left ..), Nat.mul_div_cancel _ bottom]

theorem integerOfInt {i : Int} (small : i.natAbs < 2 ^ 53) : (ofInt i).integer? = some i := by
  rcases eq_or_ne i 0 with rfl | nonzero
  · have nothing : magnitude 0 = (0 : Nat) := by simp [magnitude, significand, binade]
    exact @wholeInteger false ⟨0, by decide⟩ 0 nothing fun same => absurd same Bool.false_ne_true
  · obtain ⟨above, below, value⟩ := integerMagnitude (Int.natAbs_pos.mpr nonzero) small
    have found : nearestRank i.natAbs 1 = integerRank i.natAbs :=
      nearestRankExact Nat.one_pos above below (by rw [value, Nat.cast_one, div_one])
    have number : ofInt i = finite (i < 0) ⟨integerRank i.natAbs, below⟩ := by
      rw [ofInt, ofFraction?, dif_pos (found ▸ below)]
      simp only [found, Option.getD_some]
    rw [number, @wholeInteger _ ⟨_, below⟩ _ value fun _ => above.ne']
    by_cases sign : i < 0
    · rw [if_pos (decide_eq_true sign)]
      exact congrArg some (by omega)
    · rw [if_neg (by simpa using sign)]
      exact congrArg some (by omega)

end ChartTree.Number
