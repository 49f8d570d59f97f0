import DocQuery.Number.Decimal
import DocQuery.Proofs.Number.Rounding

namespace DocQuery.Decimal

theorem ofDigits_eq (ds : List Char) : ofDigits ds = Nat.ofDigitChars 10 ds 0 :=
  Nat.ofDigitChars_eq_foldl.symm

/-- The digits of a natural spell it. -/
theorem ofDigits_digits (n : Nat) : ofDigits (digits n) = n := by
  rw [ofDigits_eq]
  exact Nat.ofDigitChars_ten_toDigits

/-- A zero at the end multiplies by ten. -/
theorem ofDigits_append_zeros (ds : List Char) (count : Nat) :
    ofDigits (ds ++ List.replicate count '0') = ofDigits ds * 10 ^ count := by
  rw [ofDigits_eq, ofDigits_eq, Nat.ofDigitChars_append,
    Nat.ofDigitChars_replicate_zero, Nat.mul_comm]

/-- Zeros in front spell nothing. -/
theorem ofDigits_zeros_append (count : Nat) (ds : List Char) :
    ofDigits (List.replicate count '0' ++ ds) = ofDigits ds := by
  rw [ofDigits_eq, ofDigits_eq, Nat.ofDigitChars_append,
    Nat.ofDigitChars_replicate_zero, Nat.mul_zero]

theorem isDigit_of_mem_digits {n : Nat} {c : Char} (hc : c ∈ digits n) : c.isDigit = true :=
  Nat.isDigit_of_mem_toDigits (by decide) (by decide) hc

theorem length_digits_pos (n : Nat) : 0 < (digits n).length := Nat.length_toDigits_pos

/-- A count of digits bounds a natural by the power of ten with so many zeros. -/
theorem length_digits_le_iff {n count : Nat} (hcount : 0 < count) :
    (digits n).length ≤ count ↔ n < 10 ^ count := Nat.length_toDigits_le_iff (by decide) hcount

theorem lt_length_digits_iff {n count : Nat} (hn : 0 < n) :
    count < (digits n).length ↔ 10 ^ count ≤ n := by
  rcases Nat.eq_zero_or_pos count with rfl | hcount
  · exact iff_of_true (length_digits_pos n) hn
  · rw [← Nat.not_le, length_digits_le_iff hcount, Nat.not_lt]

private theorem length_digits_mul_pow {n : Nat} (hn : 0 < n) (count : Nat) :
    (digits (n * 10 ^ count)).length = (digits n).length + count := by
  have hpower : 0 < 10 ^ count := Nat.pow_pos (by decide)
  have hpos := length_digits_pos n
  apply Nat.le_antisymm
  · rw [length_digits_le_iff (by omega), Nat.pow_add]
    exact Nat.mul_lt_mul_of_pos_right ((length_digits_le_iff hpos).mp (Nat.le_refl _)) hpower
  · have hlast : (digits n).length + count = (digits n).length - 1 + count + 1 := by omega
    rw [hlast, Nat.add_one_le_iff, lt_length_digits_iff (Nat.mul_pos hn hpower), Nat.pow_add]
    exact Nat.mul_le_mul_right _ ((lt_length_digits_iff hn).mp (by omega))

/-- Zeros at the end of a coefficient count as places of the exponent. -/
theorem toDouble_mul_pow (negative : Bool) (coefficient : Nat) (exponent : Int) (count : Nat) :
    toDouble ⟨negative, coefficient * 10 ^ count, exponent⟩ =
      toDouble ⟨negative, coefficient, exponent + count⟩ := by
  rcases Nat.eq_zero_or_pos coefficient with rfl | hcoefficient
  · simp [toDouble]
  · have hpower : 0 < 10 ^ count := Nat.pow_pos (by decide)
    have hzero : coefficient * 10 ^ count = 0 ↔ coefficient = 0 := by
      rw [Nat.mul_eq_zero, or_iff_left (Nat.ne_of_gt hpower)]
    have hplace : ((digits (coefficient * 10 ^ count)).length : Int) + exponent =
        (digits coefficient).length + (exponent + count) := by
      rw [length_digits_mul_pow hcoefficient]
      omega
    -- a power of ten is cancelled on both sides of the quotient
    obtain ⟨common, hnum, hden⟩ : ∃ common,
        count + exponent.toNat = (exponent + count).toNat + common ∧
        (-exponent).toNat = (-(exponent + count)).toNat + common :=
      ⟨(-exponent).toNat - (-(exponent + count)).toNat, by omega, by omega⟩
    have hratio : Double.ofRatio negative (coefficient * 10 ^ count * Nat.pow 10 exponent.toNat)
          (Nat.pow 10 (-exponent).toNat) =
        Double.ofRatio negative (coefficient * Nat.pow 10 (exponent + count).toNat)
          (Nat.pow 10 (-(exponent + count)).toNat) := by
      have hnum' : coefficient * 10 ^ count * Nat.pow 10 exponent.toNat =
          coefficient * 10 ^ (exponent + count).toNat * 10 ^ common := by
        change coefficient * 10 ^ count * 10 ^ exponent.toNat = _
        rw [Nat.mul_assoc, ← Nat.pow_add, hnum, Nat.pow_add, Nat.mul_assoc]
      have hden' : Nat.pow 10 (-exponent).toNat =
          10 ^ (-(exponent + count)).toNat * 10 ^ common := by
        change 10 ^ (-exponent).toNat = _
        rw [hden, Nat.pow_add]
      rw [hnum', hden']
      exact Double.ofRatio_mul_mul negative _ _ (Nat.pow_pos (by decide))
    simp only [toDouble, hzero, hplace, hratio]

/-- Zeros that are moved into the exponent leave the number that a decimal is read as. -/
theorem toDouble_dropTrailingZeros (d : Decimal) : d.dropTrailingZeros.toDouble = d.toDouble := by
  obtain ⟨count, hzeros⟩ := withoutFinalZeros_append_zeros (digits d.coefficient)
  have hcoefficient : ofDigits (withoutFinalZeros (digits d.coefficient)) *
      10 ^ count = d.coefficient := by
    rw [← ofDigits_append_zeros, hzeros, ofDigits_digits]
  have hcount : (digits d.coefficient).length - (withoutFinalZeros (digits d.coefficient)).length =
      count := by
    have hlength := congrArg List.length hzeros
    rw [List.length_append, List.length_replicate] at hlength
    omega
  unfold dropTrailingZeros
  dsimp only
  split
  · rfl
  · rw [hcount, ← toDouble_mul_pow, hcoefficient]

theorem negative_dropTrailingZeros (d : Decimal) : d.dropTrailingZeros.negative = d.negative := by
  unfold dropTrailingZeros
  dsimp only
  split <;> rfl

end DocQuery.Decimal
