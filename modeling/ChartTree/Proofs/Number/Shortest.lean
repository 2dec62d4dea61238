import ChartTree.Number.Decimal
import ChartTree.Proofs.Number.Nearest

/-! The decimal notations that are written are read back as the number they were written for. A notation is
read by its value alone, and a value that is a number is read as that number. -/
namespace ChartTree

namespace Decimal

def value (d : Decimal) : ℚ := d.digits * 10 ^ d.exponent

/- Zero has one normal form, and the digits of every other one do not end in a zero. -/
inductive Normal : Decimal → Prop where
  | zero : Normal ⟨0, 0⟩
  | digits {d : Decimal} (last : d.digits % 10 ≠ 0) : Normal d

theorem stripNormal (digits : Nat) (exponent : Int) : (strip digits exponent).Normal := by
  fun_induction strip digits exponent with
  | case1 exponent => exact .zero
  | case2 digits exponent some last ih => exact ih
  | case3 digits exponent some last => exact .digits last

theorem stripValue (digits : Nat) (exponent : Int) :
    (strip digits exponent).value = digits * 10 ^ exponent := by
  fun_induction strip digits exponent with
  | case1 exponent => simp [value]
  | case2 digits exponent some last ih =>
    have whole : ((digits / 10 : Nat) : ℚ) * 10 = digits := by
      exact_mod_cast Nat.div_mul_cancel (Nat.dvd_of_mod_eq_zero last)
    rw [ih, zpow_add_one₀ (by norm_num), ← whole, mul_assoc, mul_comm (10 : ℚ)]
  | case3 digits exponent some last => rfl

theorem stripLess (digits : Nat) (exponent : Int) : (strip digits exponent).digits ≤ digits := by
  fun_induction strip digits exponent with
  | case1 exponent => exact Nat.le_refl 0
  | case2 digits exponent some last ih => exact ih.trans (Nat.div_le_self digits 10)
  | case3 digits exponent some last => exact Nat.le_refl digits

theorem normalValue (d : Decimal) : d.normal.value = d.value := stripValue ..

theorem normalNormal (d : Decimal) : d.normal.Normal := stripNormal ..

theorem normalLess (d : Decimal) : d.normal.digits ≤ d.digits := stripLess ..

theorem valueZero (d : Decimal) : d.value = 0 ↔ d.digits = 0 := by
  have power : (10 : ℚ) ^ d.exponent ≠ 0 := zpow_ne_zero _ (by norm_num)
  rw [value, mul_eq_zero, Nat.cast_eq_zero, or_iff_left power]

theorem normalZero {d : Decimal} (normal : d.Normal) (zero : d.digits = 0) : d = ⟨0, 0⟩ := by
  cases normal with
  | zero => rfl
  | digits last => rw [zero] at last; contradiction

theorem exponentLeast {a b : Decimal} (last : a.digits % 10 ≠ 0) (same : a.value = b.value) :
    b.exponent ≤ a.exponent := by
  by_contra higher
  obtain ⟨gap, shift⟩ : ∃ gap : Nat, b.exponent = a.exponent + (gap + 1 : Nat) :=
    ⟨(b.exponent - a.exponent - 1).toNat, by omega⟩
  have power : (10 : ℚ) ^ a.exponent ≠ 0 := zpow_ne_zero _ (by norm_num)
  rw [value, value, shift, zpow_add₀ (by norm_num), zpow_natCast, mul_comm ((10 : ℚ) ^ a.exponent),
    ← mul_assoc, mul_right_cancel_iff_of_pos (by positivity)] at same
  have digits : a.digits = b.digits * 10 ^ (gap + 1) := by exact_mod_cast same
  rw [pow_succ, ← mul_assoc] at digits
  omega

theorem normalUnique {a b : Decimal} (left : a.Normal) (right : b.Normal) (same : a.value = b.value) :
    a = b := by
  have zeros : a.digits = 0 ↔ b.digits = 0 := by rw [← valueZero, ← valueZero, same]
  cases left with
  | zero => exact (normalZero right (zeros.mp rfl)).symm
  | digits lastLeft =>
    cases right with
    | zero => exact absurd (zeros.mpr rfl) fun zero => by omega
    | digits lastRight =>
      have exponent : a.exponent = b.exponent :=
        Int.le_antisymm (exponentLeast lastRight same.symm) (exponentLeast lastLeft same)
      rw [value, value, exponent, mul_right_cancel_iff_of_pos (by positivity)] at same
      have digits : a.digits = b.digits := by exact_mod_cast same
      cases a
      cases b
      cases exponent
      cases digits
      rfl

theorem toNumberSame {a b : Decimal} (negative : Bool) (same : a.value = b.value) :
    a.toNumber? negative = b.toNumber? negative := by
  have normal : a.normal = b.normal :=
    normalUnique a.normalNormal b.normalNormal (by rw [normalValue, normalValue, same])
  rw [toNumber?, toNumber?, normal]

theorem fractionValue (d : Decimal) : (d.fraction.1 / d.fraction.2 : ℚ) = d.value := by
  obtain ⟨digits, exponent⟩ := d
  cases exponent with
  | ofNat k => simp [fraction, value]
  | negSucc k => simp [fraction, value, zpow_negSucc, div_eq_mul_inv]

theorem fractionPositive (d : Decimal) : 0 < d.fraction.2 := by
  obtain ⟨digits, exponent⟩ := d
  cases exponent with
  | ofNat k => exact Nat.one_pos
  | negSucc k => exact Nat.pow_pos (by decide)

/- Powers of ten are compared with powers of two through eight. -/
theorem eighthsBelow {k : Int} (positive : 0 ≤ k) : (2 : ℚ) ^ (3 * k) ≤ 10 ^ k := by
  rw [zpow_mul]
  exact zpow_le_zpow_left₀ positive (by norm_num) (by norm_num)

theorem eighthsAbove {k : Int} (negative : k ≤ 0) : (10 : ℚ) ^ k ≤ 2 ^ (3 * k) := by
  have flipped := inv_anti₀ (by positivity) (eighthsBelow (Int.neg_nonneg_of_nonpos negative))
  rwa [← zpow_neg, ← zpow_neg, neg_neg, mul_neg, neg_neg] at flipped

theorem notTooLarge {d : Decimal} (small : d.value < 2 ^ (1024 : Int)) : d.tooLarge = false := by
  rw [Bool.eq_false_iff]
  intro large
  simp only [tooLarge, Bool.and_eq_true, bne_iff_ne, decide_eq_true_eq] at large
  obtain ⟨nonzero, high⟩ := large
  have one : (1 : ℚ) ≤ d.digits := by exact_mod_cast Nat.pos_of_ne_zero nonzero
  have above : (2 : ℚ) ^ (1024 : Int) ≤ d.value := by
    calc (2 : ℚ) ^ (1024 : Int) ≤ 2 ^ (3 * d.exponent) := zpow_le_zpow_right₀ one_le_two (by omega)
      _ ≤ 10 ^ d.exponent := eighthsBelow (by omega)
      _ ≤ d.digits * 10 ^ d.exponent := le_mul_of_one_le_left (by positivity) one
  exact absurd small above.not_gt

theorem notTooSmall {d : Decimal} (large : (2 : ℚ) ^ (-1074 : Int) ≤ d.value) : d.tooSmall = false := by
  rw [Bool.eq_false_iff]
  intro small
  simp only [tooSmall, Bool.or_eq_true, beq_iff_eq, decide_eq_true_eq] at small
  rcases small with zero | low
  · rw [d.valueZero.mpr zero] at large
    exact absurd large (not_le.mpr (by positivity))
  · have digits := Nat.lt_log2_self (n := d.digits)
    have under : (d.digits : ℚ) < 2 ^ (d.digits.log2 + 1 : Int) := by exact_mod_cast digits
    have below : d.value < 2 ^ (-1074 : Int) := by
      calc (d.digits * 10 ^ d.exponent : ℚ) ≤ d.digits * 2 ^ (3 * d.exponent) := by
            gcongr
            exact eighthsAbove (by omega)
        _ < 2 ^ (d.digits.log2 + 1 : Int) * 2 ^ (3 * d.exponent) := by gcongr
        _ = 2 ^ (d.digits.log2 + 1 + 3 * d.exponent) := (zpow_add₀ two_ne_zero _ _).symm
        _ ≤ 2 ^ (-1074 : Int) := zpow_le_zpow_right₀ one_le_two (by omega)
    exact absurd large below.not_ge

theorem toNumberExact {d : Decimal} {rank : Fin ranks} (negative : Bool) (positive : 0 < rank.val)
    (value : d.value = Number.magnitude rank.val) : d.toNumber? negative = some (.finite negative rank) := by
  obtain ⟨least, most⟩ := Number.magnitudeBounds positive rank.isLt
  rw [← value, ← normalValue] at least most
  have nearest : Number.nearestRank d.normal.fraction.1 d.normal.fraction.2 = rank.val :=
    Number.nearestRankExact d.normal.fractionPositive positive rank.isLt
      (by rw [fractionValue, normalValue, value])
  unfold toNumber? Number.ofFraction?
  simp only [notTooLarge most, notTooSmall least, nearest]
  exact dif_pos rank.isLt

theorem toNumberSigned {d : Decimal} {rank : Fin ranks} (negative : Bool)
    (read : d.toNumber? false = some (.finite false rank)) :
    d.toNumber? negative = some (.finite negative rank) := by
  unfold toNumber? Number.ofFraction? at read ⊢
  dsimp only at read ⊢
  split at read
  · cases read
  · rename_i small
    rw [if_neg small]
    split at read
    · rename_i tiny
      rw [if_pos tiny]
      cases read
      rfl
    · rename_i ample
      rw [if_neg ample]
      split at read
      · rename_i inside
        rw [dif_pos inside]
        cases read
        rfl
      · cases read

theorem exactValue (rank : Nat) : (exact rank).value = Number.magnitude rank := by
  unfold exact
  split
  · rename_i k step
    rw [normalValue, value, Number.magnitude, step]
    simp
  · rename_i k step
    have ten : (10 : ℚ) ^ (k + 1) = 2 ^ (k + 1) * 5 ^ (k + 1) := by rw [← mul_pow]; norm_num
    rw [normalValue, value, Number.magnitude, step, zpow_negSucc, zpow_negSucc, ten, Nat.pow_eq]
    push_cast
    field_simp

theorem withDigitsFrom {tie : Tie} {rank : Fin ranks} {count : Nat} {d : Decimal}
    (found : withDigits? tie rank count = some d) :
    let num := (Number.fraction rank.val).1
    let den := (Number.fraction rank.val).2
    let (near, far) := neighbours tie num den (scale num den - count)
    ∃ e, d = e.normal ∧ readsBack rank e = true ∧ (e = near ∨ e = far) := by
  unfold withDigits? at found
  dsimp only at found ⊢
  split at found
  · rename_i back
    cases found
    exact ⟨_, rfl, back, .inl rfl⟩
  · split at found
    · rename_i back
      cases found
      exact ⟨_, rfl, back, .inr rfl⟩
    · cases found

theorem exactNormal (rank : Nat) : (exact rank).Normal := by
  unfold exact
  split <;> exact normalNormal _

theorem shortestNormal (tie : Tie) (rank : Fin ranks) : (shortest tie rank).Normal := by
  unfold shortest
  split
  · exact .zero
  · cases found : (List.range 17).findSome? fun i => withDigits? tie rank (i + 1) with
    | none => exact exactNormal rank.val
    | some d =>
      obtain ⟨count, -, written⟩ := List.exists_of_findSome?_eq_some found
      obtain ⟨e, rfl, -⟩ := withDigitsFrom written
      exact e.normalNormal

theorem shortestReads (tie : Tie) (rank : Fin ranks) (negative : Bool) :
    (shortest tie rank).toNumber? negative = some (.finite negative rank) := by
  apply toNumberSigned
  unfold shortest
  split
  · rename_i zero
    have same : rank = ⟨0, by decide⟩ := Fin.ext zero
    rw [same]
    simp [toNumber?, normal, strip, tooLarge, tooSmall, Number.zero]
  · rename_i nonzero
    cases found : (List.range 17).findSome? fun i => withDigits? tie rank (i + 1) with
    | none => exact toNumberExact false (Nat.pos_of_ne_zero nonzero) (exactValue rank.val)
    | some d =>
      obtain ⟨count, -, written⟩ := List.exists_of_findSome?_eq_some found
      obtain ⟨e, rfl, back, -⟩ := withDigitsFrom written
      exact (toNumberSame false e.normalValue).trans (beq_iff_eq.mp back)

theorem placesAbove (n : Nat) : n < 10 ^ places n :=
  (Nat.length_toDigits_le_iff (by decide) Nat.length_toDigits_pos).mp (Nat.le_refl (places n))

theorem placesBelow {n : Nat} (positive : 0 < n) : 10 ^ (places n - 1) ≤ n := by
  rcases Nat.lt_or_ge 1 (places n) with long | short
  · by_contra less
    have shorter := (Nat.length_toDigits_le_iff (by decide) (Nat.sub_pos_of_lt long)).mpr (Nat.not_le.mp less)
    unfold places at long shorter
    omega
  · rw [Nat.sub_eq_zero_of_le short]
    exact positive

theorem scaleAbove {num den : Nat} (top : 0 < num) (bottom : 0 < den) :
    (num / den : ℚ) < 10 ^ scale num den := by
  have positive : (0 : ℚ) < den := Nat.cast_pos.mpr bottom
  rw [div_lt_iff₀ positive]
  unfold scale
  split
  · have whole := (Nat.div_lt_iff_lt_mul bottom).mp (placesAbove (num / den))
    exact_mod_cast whole
  · rename_i less
    have quotient : 0 < (den - 1) / num := Nat.div_pos (by omega) top
    have part : 10 ^ (places ((den - 1) / num) - 1) * num < den := by
      have below := (Nat.le_div_iff_mul_le top).mp (placesBelow quotient)
      omega
    have written : 0 < places ((den - 1) / num) := Nat.length_toDigits_pos
    rw [show (1 - places ((den - 1) / num) : Int) = -((places ((den - 1) / num) - 1 : Nat) : Int) by omega,
      zpow_neg, zpow_natCast, ← div_eq_inv_mul, lt_div_iff₀ (by positivity), mul_comm]
    exact_mod_cast part

theorem neighboursBounded (tie : Tie) {num den : Nat} (count : Nat) (top : 0 < num) (bottom : 0 < den) :
    (neighbours tie num den (scale num den - count)).1.digits ≤ 10 ^ count ∧
      (neighbours tie num den (scale num den - count)).2.digits ≤ 10 ^ count := by
  suffices low : ∀ n d : Nat, 0 < d → (n / d : ℚ) = num / den * 10 ^ (count - scale num den) →
      n / d + 1 ≤ 10 ^ count by
    unfold neighbours
    cases shift : scale num den - count with
    | ofNat k =>
      have fits := low num (den * 10 ^ k) (Nat.mul_pos bottom (Nat.pow_pos (by decide))) (by
        rw [← neg_sub, shift, Int.ofNat_eq_natCast, zpow_neg, zpow_natCast, Nat.cast_mul, div_mul_eq_div_div,
          div_eq_mul_inv (_ / _)]
        push_cast
        rfl)
      dsimp only [Nat.pow_eq]
      split
      · exact ⟨Nat.le_of_succ_le fits, fits⟩
      · exact ⟨fits, Nat.le_of_succ_le fits⟩
    | negSucc k =>
      have fits := low (num * 10 ^ (k + 1)) den bottom (by
        rw [← neg_sub, shift, Int.neg_negSucc, zpow_natCast, Nat.cast_mul, mul_div_right_comm]
        push_cast
        rfl)
      dsimp only [Nat.pow_eq]
      split
      · exact ⟨Nat.le_of_succ_le fits, fits⟩
      · exact ⟨fits, Nat.le_of_succ_le fits⟩
  intro n d positive value
  have below : (n / d : ℚ) < 10 ^ (count : Int) := by
    calc (n / d : ℚ) = num / den * 10 ^ (count - scale num den) := value
      _ < 10 ^ scale num den * 10 ^ (count - scale num den) := by
        gcongr
        exact scaleAbove top bottom
      _ = 10 ^ (count : Int) := by rw [← zpow_add₀ (by norm_num), add_sub_cancel]
  rw [div_lt_iff₀ (Nat.cast_pos.mpr positive)] at below
  have whole : n < 10 ^ count * d := by exact_mod_cast below
  exact (Nat.div_lt_iff_lt_mul positive).mpr whole

theorem withDigitsBounded {tie : Tie} {rank : Fin ranks} {count : Nat} {d : Decimal} (positive : 0 < rank.val)
    (found : withDigits? tie rank count = some d) : d.digits ≤ 10 ^ count := by
  have top : 0 < (Number.fraction rank.val).1 := by
    have value := Number.fractionValue rank.val
    rcases Nat.eq_zero_or_pos (Number.fraction rank.val).1 with zero | top
    · rw [zero, Nat.cast_zero, zero_div] at value
      have bound := (Number.magnitudeBounds positive rank.isLt).1
      rw [← value] at bound
      exact absurd bound (not_le.mpr (by positivity))
    · exact top
  obtain ⟨near, far⟩ := neighboursBounded tie count top (Number.fractionPositive rank.val)
  obtain ⟨e, rfl, -, rfl | rfl⟩ := withDigitsFrom found
  · exact (normalLess _).trans near
  · exact (normalLess _).trans far

theorem exactBounded {rank : Nat} (positive : 0 < rank) (bound : rank < ranks) :
    (exact rank).digits < 10 ^ digitLimit := by
  obtain ⟨-, small, least, most⟩ := Number.significandBounds positive bound
  unfold exact
  split
  · rename_i k step
    rw [step, Int.ofNat_eq_natCast, Nat.cast_le_ofNat] at most
    have power : 2 ^ k ≤ 2 ^ 971 := by
      gcongr
      decide
    calc _ ≤ Number.significand rank * 2 ^ k := normalLess _
      _ ≤ 2 ^ 53 * 2 ^ 971 := Nat.mul_le_mul small.le power
      _ < 10 ^ digitLimit := by decide +kernel
  · rename_i k step
    rw [step] at least
    have power : 5 ^ (k + 1) ≤ 5 ^ 1074 := by
      gcongr
      · decide
      · omega
    calc _ ≤ Number.significand rank * 5 ^ (k + 1) := normalLess _
      _ ≤ 2 ^ 53 * 5 ^ 1074 := Nat.mul_le_mul small.le power
      _ < 10 ^ digitLimit := by decide +kernel

theorem shortestBounded (tie : Tie) (rank : Fin ranks) : (shortest tie rank).digits < 10 ^ digitLimit := by
  unfold shortest
  split
  · exact Nat.pow_pos (by decide)
  · rename_i positive
    replace positive := Nat.pos_of_ne_zero positive
    cases found : (List.range 17).findSome? fun i => withDigits? tie rank (i + 1) with
    | none => exact exactBounded positive rank.isLt
    | some d =>
      obtain ⟨i, within, written⟩ := List.exists_of_findSome?_eq_some found
      calc d.digits ≤ 10 ^ (i + 1) := withDigitsBounded positive written
        _ ≤ 10 ^ 17 := Nat.pow_le_pow_right (by decide) (List.mem_range.mp within)
        _ < 10 ^ digitLimit := by decide +kernel

end Decimal
end ChartTree
