import DocQuery.Proofs.Number.Worth

namespace DocQuery.Double

variable {num den : Nat}

/-- A quotient less than a half away from an integer rounds to it. -/
theorem roundHalfEven_eq {quotient : Nat} (hlow : 2 * (quotient * den) < 2 * num + den)
    (hhigh : 2 * num < 2 * (quotient * den) + den) : roundHalfEven num den = quotient := by
  have hden : 0 < den := by omega
  have hsplit : num / den * den + num % den = num := Nat.div_add_mod' num den
  have hrest := Nat.mod_lt num hden
  -- the quotient before rounding is the integer, or the one before it
  have hle : num / den ≤ quotient := by
    refine Nat.le_of_not_lt fun hlt => ?_
    have hnext := Nat.mul_le_mul_right den (Nat.succ_le_of_lt hlt)
    rw [Nat.add_one_mul] at hnext
    omega
  have hge : quotient ≤ num / den + 1 := by
    refine Nat.le_of_not_lt fun hlt => ?_
    have hnext := Nat.mul_le_mul_right den (Nat.succ_le_of_lt hlt)
    rw [Nat.add_one_mul, Nat.add_one_mul] at hnext
    omega
  obtain hbelow | habove : num / den = quotient ∨ num / den + 1 = quotient := by omega
  · rw [hbelow] at hsplit
    have hdown : 2 * (num % den) < den := by omega
    have hnot : ¬ den < 2 * (num % den) := Nat.not_lt.mpr (Nat.le_of_lt hdown)
    have hne : (2 * (num % den) == den) = false := beq_eq_false_iff_ne.mpr (Nat.ne_of_lt hdown)
    simp [roundHalfEven, hnot, hne, hbelow]
  · rw [← habove, Nat.add_one_mul (num / den)] at hlow
    have hup : den < 2 * (num % den) := by omega
    simp [roundHalfEven, hup, habove]

/-- Rounding goes up by one at most. -/
theorem roundHalfEven_le (num den : Nat) : roundHalfEven num den ≤ num / den + 1 := by
  unfold roundHalfEven
  dsimp only
  split <;> omega

/-- A common factor changes no rounding. -/
theorem roundHalfEven_mul_mul (num den : Nat) {factor : Nat} (hfactor : 0 < factor) :
    roundHalfEven (num * factor) (den * factor) = roundHalfEven num den := by
  have hup : den * factor < 2 * (num % den * factor) ↔ den < 2 * (num % den) := by
    rw [← Nat.mul_assoc]
    exact Nat.mul_lt_mul_right hfactor
  have htie : 2 * (num % den * factor) = den * factor ↔ 2 * (num % den) = den := by
    rw [← Nat.mul_assoc]
    exact Nat.mul_left_inj (Nat.ne_of_gt hfactor)
  simp only [roundHalfEven, Nat.mul_div_mul_right _ _ hfactor, Nat.mul_mod_mul_right,
    hup, beq_eq_decide, htie]

/-- The number of a quotient does not depend on how it is reduced. -/
theorem ofRatio_mul_mul (negative : Bool) (num den : Nat) {factor : Nat} (hfactor : 0 < factor) :
    ofRatio negative (num * factor) (den * factor) = ofRatio negative num den := by
  have hscaled : num * factor * unitsPerOne = num * unitsPerOne * factor := Nat.mul_right_comm _ _ _
  have hden : ∀ power, den * factor * power = den * power * factor :=
    fun power => Nat.mul_right_comm _ _ _
  simp only [ofRatio, hscaled, hden, Nat.mul_div_mul_right _ _ hfactor,
    roundHalfEven_mul_mul _ _ hfactor]

/-- How far a number of units is scaled down. -/
theorem log2_sub_eq {units exponent : Nat}
    (hlow : exponent = 0 ∨ fractionWeight * 2 ^ exponent ≤ units)
    (hhigh : units < 2 * fractionWeight * 2 ^ exponent) : units.log2 - 52 = exponent := by
  have htwo : (2 : Nat) ^ 53 = 2 * fractionWeight := by decide
  have hone : (2 : Nat) ^ 52 = fractionWeight := by decide
  by_cases hzero : units = 0
  · subst hzero
    have hpower : 0 < fractionWeight * 2 ^ exponent :=
      Nat.mul_pos (by decide) (Nat.two_pow_pos exponent)
    have : exponent = 0 := by omega
    subst this
    decide
  · have hlt : units.log2 < 53 + exponent := by
      rw [Nat.log2_lt hzero, Nat.pow_add, htwo]
      exact hhigh
    rcases hlow with rfl | hlow
    · omega
    · have hle : 52 + exponent ≤ units.log2 := by
        rw [Nat.le_log2 hzero, Nat.pow_add, hone]
        exact hlow
      omega

/-- Scaled down so that 53 bits stand before the point, a quotient rounds to the significand that it
    is less than a half away from. -/
theorem ofRatio_eq_of_scaled {exponent significand : Nat} (negative : Bool)
    (hbits : exponent = 0 ∨ fractionWeight * 2 ^ exponent * den ≤ num * unitsPerOne)
    (hhigh : num * unitsPerOne < 2 * fractionWeight * 2 ^ exponent * den)
    (habove : 2 * (significand * 2 ^ exponent * den) < 2 * (num * unitsPerOne) + 2 ^ exponent * den)
    (hbelow : 2 * (num * unitsPerOne) <
      2 * (significand * 2 ^ exponent * den) + 2 ^ exponent * den) :
    ofRatio negative num den = ofMagnitude negative (exponent * fractionWeight + significand) := by
  have hden : 0 < den := Nat.pos_of_ne_zero fun hzero => by simp [hzero] at hhigh
  have hscale : (num * unitsPerOne / den).log2 - 52 = exponent := by
    refine log2_sub_eq (hbits.imp_right (Nat.le_div_iff_mul_le hden).mpr) ?_
    exact (Nat.div_lt_iff_lt_mul hden).mpr hhigh
  have hround : roundHalfEven (num * unitsPerOne) (den * Nat.pow 2 exponent) = significand := by
    have hpower : den * Nat.pow 2 exponent = 2 ^ exponent * den := Nat.mul_comm _ _
    rw [Nat.mul_assoc] at habove hbelow
    rw [hpower]
    exact roundHalfEven_eq habove hbelow
  simp only [ofRatio, hscale, hround]

/-- A quotient just below a power of two has one more bit before the point, and rounds up to the
    power. -/
theorem ofRatio_eq_of_lt_power {exponent : Nat} (negative : Bool)
    (habove : 2 ^ 54 * (fractionWeight * (2 ^ (exponent + 1) * den)) <
      2 ^ 54 * (num * unitsPerOne) + fractionWeight * (2 ^ (exponent + 1) * den))
    (hlt : num * unitsPerOne < fractionWeight * (2 ^ (exponent + 1) * den)) :
    ofRatio negative num den = ofMagnitude negative ((exponent + 1 + 1) * fractionWeight) := by
  have hpower : 2 ^ (exponent + 1) * den = 2 * (2 ^ exponent * den) := by
    rw [Nat.pow_succ', Nat.mul_assoc]
  have hcarry : (exponent + 1 + 1) * fractionWeight =
      exponent * fractionWeight + 2 * fractionWeight := by
    rw [Nat.add_mul, Nat.add_mul]
    omega
  rw [hcarry]
  simp only [hpower, fractionWeight] at *
  apply ofRatio_eq_of_scaled negative
  all_goals simp only [Nat.mul_assoc, fractionWeight] at *; omega

/-- A quotient less than one part in `2 ^ 54` away from what a magnitude is worth rounds to it. -/
theorem ofRatio_eq_of_near {m : Nat} (negative : Bool)
    (habove : 2 ^ 54 * (unitsOf m * den) < 2 ^ 54 * (num * unitsPerOne) + unitsOf m * den)
    (hbelow : 2 ^ 54 * (num * unitsPerOne) < 2 ^ 54 * (unitsOf m * den) + unitsOf m * den) :
    ofRatio negative num den = ofMagnitude negative m := by
  by_cases hm : fractionWeight ≤ m
  · obtain ⟨exponent, fraction, hfraction, rfl⟩ := exists_exponent hm
    rw [unitsOf_add exponent hfraction, Nat.mul_assoc] at habove hbelow
    have hhigh := Nat.mul_le_mul_right (2 ^ exponent * den)
      (show fractionWeight + fraction ≤ 2 * fractionWeight - 1 by omega)
    by_cases hbits : exponent = 0 ∨ fractionWeight * 2 ^ exponent * den ≤ num * unitsPerOne
    · have hlow :=
        Nat.mul_le_mul_right (2 ^ exponent * den) (Nat.le_add_right fractionWeight fraction)
      rw [Nat.add_one_mul, Nat.add_assoc]
      apply ofRatio_eq_of_scaled negative hbits
      all_goals simp only [Nat.mul_assoc] at *; simp only [fractionWeight] at *; omega
    · obtain ⟨hexponent, hlt⟩ := not_or.mp hbits
      obtain ⟨lower, rfl⟩ := Nat.exists_eq_add_one_of_ne_zero hexponent
      rw [Nat.mul_assoc, Nat.not_le] at hlt
      -- the next number is too far above the power
      have hzero : fraction = 0 := by
        refine Nat.eq_zero_of_not_pos fun hpos => ?_
        have hnext :=
          Nat.mul_le_mul_right (2 ^ (lower + 1) * den) (Nat.add_le_add_left hpos fractionWeight)
        rw [Nat.add_mul] at hnext
        simp only [fractionWeight] at *
        omega
      subst hzero
      rw [Nat.add_zero] at habove ⊢
      exact ofRatio_eq_of_lt_power negative habove hlt
  · rw [unitsOf_of_lt (Nat.lt_of_not_le hm)] at habove hbelow
    have hsmall := Nat.mul_le_mul_right den (Nat.le_of_lt (Nat.lt_of_not_le hm))
    simp only [fractionWeight] at hsmall
    have hexact : ofRatio negative num den = ofMagnitude negative (0 * fractionWeight + m) := by
      apply ofRatio_eq_of_scaled negative (.inl rfl)
      all_goals simp only [Nat.pow_zero, Nat.mul_one, Nat.one_mul, fractionWeight]; omega
    rwa [Nat.zero_mul, Nat.zero_add] at hexact

/-- The magnitude that a quotient of units rounds to, where it is finite. -/
def roundedMagnitude (units den : Nat) : Nat :=
  ((units / den).log2 - 52) * fractionWeight + roundHalfEven units
    (den * 2 ^ ((units / den).log2 - 52))

theorem ofRatio_eq (negative : Bool) (num den : Nat) :
    ofRatio negative num den = ofMagnitude negative (roundedMagnitude (num * unitsPerOne) den) :=
  rfl

/-- A quotient with few bits before the point rounds to no large magnitude. -/
theorem roundedMagnitude_le {units den exponent : Nat} (hhigh : units / den < 2 ^ (53 + exponent)) :
    roundedMagnitude units den ≤ (exponent + 2) * fractionWeight := by
  have htwo : (2 : Nat) ^ 53 = 2 * fractionWeight := by decide
  have hround := roundHalfEven_le units (den * 2 ^ ((units / den).log2 - 52))
  rw [← Nat.div_div_eq_div_mul] at hround
  unfold roundedMagnitude
  generalize units / den = quotient at *
  have hscale : quotient.log2 - 52 ≤ exponent := by
    by_cases hzero : quotient = 0
    · subst hzero
      exact Nat.zero_le _
    · have := (Nat.log2_lt hzero).mpr hhigh
      omega
  have hbits : quotient / 2 ^ (quotient.log2 - 52) < 2 ^ 53 := by
    refine (Nat.div_lt_iff_lt_mul (Nat.two_pow_pos _)).mpr ?_
    rw [← Nat.pow_add]
    exact Nat.lt_of_lt_of_le Nat.lt_log2_self (Nat.pow_le_pow_right (by decide) (by omega))
  have hweight := Nat.mul_le_mul_right fractionWeight hscale
  rw [Nat.add_mul]
  omega

@[inherit_doc roundedMagnitude_le]
theorem magnitude_ofRatio_le {exponent : Nat} (negative : Bool)
    (hhigh : num * unitsPerOne < 2 * fractionWeight * 2 ^ exponent * den) :
    (ofRatio negative num den).magnitude ≤ (exponent + 2) * fractionWeight := by
  have htwo : (2 : Nat) ^ 53 = 2 * fractionWeight := by decide
  have hden : 0 < den := Nat.pos_of_ne_zero fun hzero => by simp [hzero] at hhigh
  rw [ofRatio_eq]
  refine Nat.le_trans (Nat.min_le_left _ _) (roundedMagnitude_le ?_)
  rw [Nat.pow_add, htwo]
  exact (Nat.div_lt_iff_lt_mul hden).mpr hhigh

end DocQuery.Double
