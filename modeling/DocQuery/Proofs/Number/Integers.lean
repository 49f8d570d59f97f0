import DocQuery.Proofs.Number.Rounding

namespace DocQuery.Double

section Rounding

variable {m n den : Nat}

private theorem div_le_roundHalfEven (num den : Nat) : num / den ≤ roundHalfEven num den := by
  unfold roundHalfEven
  dsimp only
  split <;> omega

private theorem roundHalfEven_mono (hle : m ≤ n) (den : Nat) :
    roundHalfEven m den ≤ roundHalfEven n den := by
  rcases Nat.lt_or_eq_of_le (Nat.div_le_div_right (c := den) hle) with hlt | heq
  · exact Nat.le_trans (roundHalfEven_le m den) (Nat.le_trans hlt (div_le_roundHalfEven n den))
  · have hrest : m % den ≤ n % den := by
      have hm := Nat.div_add_mod m den
      have hn := Nat.div_add_mod n den
      rw [heq] at hm
      omega
    simp only [roundHalfEven, heq, Bool.or_eq_true, Bool.and_eq_true, decide_eq_true_eq, beq_iff_eq]
    split
    · next hup =>
      -- what is past the middle, or at it below an odd number, is so for the larger one too
      rw [if_pos]
      rcases hup with hup | ⟨htie, hodd⟩
      · exact .inl (by omega)
      · rcases Nat.lt_or_eq_of_le hrest with hlt | hsame
        · exact .inl (by omega)
        · exact .inr ⟨hsame ▸ htie, hodd⟩
    · split <;> omega

/-- A quotient with many bits before the point rounds to no small magnitude. -/
theorem le_roundedMagnitude {exponent : Nat} (hlow : 2 ^ (52 + exponent) ≤ m / den) :
    (exponent + 1) * fractionWeight ≤ roundedMagnitude m den := by
  have hone : (2 : Nat) ^ 52 = fractionWeight := by decide
  have hround := div_le_roundHalfEven m (den * 2 ^ ((m / den).log2 - 52))
  rw [← Nat.div_div_eq_div_mul] at hround
  unfold roundedMagnitude
  generalize m / den = quotient at *
  have hne : quotient ≠ 0 := Nat.ne_of_gt (Nat.lt_of_lt_of_le (Nat.two_pow_pos _) hlow)
  have hlog := (Nat.le_log2 hne).mpr hlow
  have hbits : fractionWeight ≤ quotient / 2 ^ (quotient.log2 - 52) := by
    rw [← hone, Nat.le_div_iff_mul_le (Nat.two_pow_pos _), ← Nat.pow_add]
    exact Nat.le_trans (Nat.pow_le_pow_right (by decide) (by omega)) (Nat.log2_self_le hne)
  have hweight :=
    Nat.mul_le_mul_right fractionWeight (show exponent ≤ quotient.log2 - 52 by omega)
  rw [Nat.succ_mul]
  exact Nat.add_le_add hweight (Nat.le_trans hbits hround)

private theorem log2_mono (hle : m ≤ n) : m.log2 ≤ n.log2 := by
  by_cases hm : m = 0
  · subst hm
    exact Nat.zero_le _
  · have hn : n ≠ 0 := by omega
    exact (Nat.le_log2 hn).mpr (Nat.le_trans (Nat.log2_self_le hm) hle)

/-- A larger quotient never rounds to a smaller magnitude. Where it has more bits before the point,
    the smaller one does not get past the first number that has as many. -/
theorem roundedMagnitude_mono (hle : m ≤ n) (den : Nat) :
    roundedMagnitude m den ≤ roundedMagnitude n den := by
  have hquotient : m / den ≤ n / den := Nat.div_le_div_right hle
  by_cases hbits : n / den < 2 ^ (53 + ((m / den).log2 - 52))
  · have hsame : (n / den).log2 - 52 = (m / den).log2 - 52 := by
      have hlog := log2_mono hquotient
      by_cases hzero : n / den = 0
      · rw [hzero, Nat.le_zero.mp (Nat.le_trans hquotient (Nat.le_of_eq hzero))]
      · have hlt := (Nat.log2_lt hzero).mpr hbits
        omega
    unfold roundedMagnitude
    rw [hsame]
    exact Nat.add_le_add_left (roundHalfEven_mono hle _) _
  · have hlow : 2 ^ (52 + ((m / den).log2 - 52 + 1)) ≤ n / den := by
      rw [← Nat.add_assoc, Nat.add_right_comm]
      exact Nat.le_of_not_lt hbits
    have hhigh : m / den < 2 ^ (53 + ((m / den).log2 - 52)) :=
      Nat.lt_of_lt_of_le Nat.lt_log2_self (Nat.pow_le_pow_right (by decide) (by omega))
    exact Nat.le_trans (roundedMagnitude_le hhigh) (le_roundedMagnitude hlow)

end Rounding

section Exact

/-- A number of at least the least normal one is doubled by raising its exponent. -/
theorem unitsOf_add_fractionWeight {m : Nat} (hm : fractionWeight ≤ m) :
    unitsOf (m + fractionWeight) = unitsOf m * 2 := by
  obtain ⟨exponent, fraction, hfraction, rfl⟩ := exists_exponent hm
  rw [Nat.add_right_comm, ← Nat.succ_mul, unitsOf_add (exponent + 1) hfraction,
    unitsOf_add exponent hfraction, Nat.pow_succ, Nat.mul_assoc]

/-- Every integer up to `2 ^ 53` times a power of two is what some magnitude is worth. -/
theorem exists_unitsOf_eq {n : Nat} (hn : n ≤ 2 ^ 53) (power : Nat) :
    ∃ m, unitsOf m = n * 2 ^ power := by
  have htwo : (2 : Nat) ^ 53 = 2 * fractionWeight := by decide
  induction power generalizing n with
  | zero =>
    rw [Nat.pow_zero, Nat.mul_one]
    by_cases hsmall : n < fractionWeight
    · exact ⟨n, unitsOf_of_lt hsmall⟩
    · rcases Nat.lt_or_eq_of_le hn with hlt | rfl
      · refine ⟨(0 + 1) * fractionWeight + (n - fractionWeight), ?_⟩
        rw [unitsOf_add 0 (by omega), Nat.pow_zero, Nat.mul_one]
        omega
      · exact ⟨(1 + 1) * fractionWeight + 0, unitsOf_add 1 (by decide)⟩
  | succ power ih =>
    by_cases hsmall : n < fractionWeight
    · obtain ⟨m, hm⟩ := ih (n := 2 * n) (by omega)
      exact ⟨m, by rw [hm, Nat.pow_succ', Nat.mul_left_comm, Nat.mul_assoc]⟩
    · obtain ⟨m, hm⟩ := ih hn
      have hlarge : fractionWeight ≤ unitsOf m := by
        rw [hm]
        exact Nat.le_trans (Nat.le_of_not_lt hsmall)
          (Nat.le_mul_of_pos_right n (Nat.two_pow_pos power))
      have hnormal : fractionWeight ≤ m := by
        refine Nat.le_of_not_lt fun hlt => ?_
        rw [unitsOf_of_lt hlt] at hlarge
        omega
      exact ⟨m + fractionWeight,
        by rw [unitsOf_add_fractionWeight hnormal, hm, Nat.pow_succ, Nat.mul_assoc]⟩

/-- Where integers up to `2 ^ 53` differ, so do the magnitudes that they round to, and these are
    finite. -/
theorem roundedMagnitude_lt {m n : Nat} (hlt : m < n) (hn : n ≤ 2 ^ 53) :
    roundedMagnitude (m * unitsPerOne) 1 < roundedMagnitude (n * unitsPerOne) 1 ∧
      roundedMagnitude (n * unitsPerOne) 1 < infinityMagnitude := by
  obtain ⟨power, hone⟩ : ∃ power, unitsPerOne = 2 ^ power := ⟨1074, by decide +kernel⟩
  obtain ⟨small, hsmall⟩ := exists_unitsOf_eq (Nat.le_trans (Nat.le_of_lt hlt) hn) power
  obtain ⟨large, hlarge⟩ := exists_unitsOf_eq hn power
  have hexact : ∀ m, roundedMagnitude (unitsOf m) 1 = m := by
    intro m
    simp only [roundedMagnitude, Nat.div_one, Nat.one_mul]
    exact shift_add_roundHalfEven m
  constructor
  · rw [hone, ← hsmall, ← hlarge, hexact, hexact]
    refine unitsOf_strictMono.lt_iff_lt.mp ?_
    rw [hsmall, hlarge]
    exact Nat.mul_lt_mul_of_pos_right hlt (Nat.two_pow_pos _)
  · have hbound : 2 ^ 53 * unitsPerOne < 2 ^ (53 + 1075) := by decide +kernel
    have hhigh : n * unitsPerOne / 1 < 2 ^ (53 + 1075) := by
      rw [Nat.div_one]
      exact Nat.lt_of_le_of_lt (Nat.mul_le_mul_right _ hn) hbound
    exact Nat.lt_of_le_of_lt (roundedMagnitude_le hhigh) (by decide)

end Exact

section Integers

variable {i j : Int}

/-- The magnitude that an integer rounds to. -/
theorem magnitude_ofInt (i : Int) :
    (ofInt i).magnitude = min (roundedMagnitude (i.natAbs * unitsPerOne) 1) infinityMagnitude := by
  rw [ofInt, ofRatio_eq, ofMagnitude]

theorem negative_ofInt (i : Int) : (ofInt i).negative = decide (i < 0) := rfl

theorem isNaN_ofInt (i : Int) : (ofInt i).isNaN = false := by
  rw [isNaN, magnitude_ofInt]
  exact decide_eq_false (Nat.not_lt.mpr (Nat.min_le_right _ _))

/-- A larger integer, by its absolute value, gets no smaller magnitude. -/
theorem magnitude_ofInt_mono (hle : i.natAbs ≤ j.natAbs) :
    (ofInt i).magnitude ≤ (ofInt j).magnitude := by
  have hround := roundedMagnitude_mono (Nat.mul_le_mul_right unitsPerOne hle) 1
  rw [magnitude_ofInt, magnitude_ofInt]
  exact Nat.le_min.mpr ⟨Nat.le_trans (Nat.min_le_left _ _) hround, Nat.min_le_right _ _⟩

/-- Up to `2 ^ 53` a larger integer gets a larger magnitude. -/
theorem magnitude_ofInt_lt (hlt : i.natAbs < j.natAbs) (hj : j.natAbs ≤ 2 ^ 53) :
    (ofInt i).magnitude < (ofInt j).magnitude := by
  obtain ⟨hround, hfinite⟩ := roundedMagnitude_lt hlt hj
  rw [magnitude_ofInt, magnitude_ofInt, Nat.min_eq_left (Nat.le_of_lt hfinite)]
  exact Nat.lt_of_le_of_lt (Nat.min_le_left _ _) hround

private theorem magnitude_ofInt_pos (hi : i ≠ 0) : 0 < (ofInt i).magnitude := by
  have hone := magnitude_ofInt_lt (i := 0) (j := 1) (by decide) (by decide)
  have hle := magnitude_ofInt_mono (i := 1) (j := i) (by omega)
  omega

/-- The place of an integer among the numbers. No integer rounds to the negative zero. -/
theorem key_ofInt (i : Int) :
    (ofInt i).key = if i < 0 then -((ofInt i).magnitude : Int) else (ofInt i).magnitude := by
  rw [key, negative_ofInt]
  simp only [decide_eq_true_eq]

private theorem totalKey_ofInt (i : Int) :
    (ofInt i).totalKey =
      if i < 0 then -1 - ((ofInt i).magnitude : Int) else (ofInt i).magnitude := by
  rw [totalKey, negative_ofInt]
  simp only [decide_eq_true_eq]

/-- A larger integer never becomes a smaller number. -/
theorem key_ofInt_mono (hle : i ≤ j) : (ofInt i).key ≤ (ofInt j).key := by
  have hup := @magnitude_ofInt_mono i j
  have hdown := @magnitude_ofInt_mono j i
  rw [key_ofInt, key_ofInt]
  split <;> split <;> omega

/-- The sign and the magnitude are all there is to a number. -/
theorem eq_of_magnitude_eq {a b : Double} (hnegative : a.negative = b.negative)
    (hmagnitude : a.magnitude = b.magnitude) : a = b := by
  cases a
  cases b
  cases hnegative
  cases hmagnitude
  rfl

private theorem key_ofInt_eq_iff : (ofInt i).key = (ofInt j).key ↔ ofInt i = ofInt j := by
  refine ⟨fun hkey => ?_, congrArg key⟩
  have hi := @magnitude_ofInt_pos i
  have hj := @magnitude_ofInt_pos j
  rw [key_ofInt, key_ofInt] at hkey
  refine eq_of_magnitude_eq ?_ ?_
  · rw [negative_ofInt, negative_ofInt, decide_eq_decide]
    split at hkey <;> split at hkey <;> omega
  · split at hkey <;> split at hkey <;> omega

/-- On integers the total order of bit patterns is the order of values. -/
theorem totalCompare_ofInt (i j : Int) :
    (ofInt i).totalCompare (ofInt j) = compare (ofInt i).key (ofInt j).key := by
  have hi := @magnitude_ofInt_pos i
  have hj := @magnitude_ofInt_pos j
  rw [totalCompare, totalKey_ofInt, totalKey_ofInt, key_ofInt, key_ofInt]
  apply compare_congr <;> split <;> split <;> omega

/-- Numbers of integers compare as the integers do, except that those that are the same number are
    equal. -/
theorem compare_key_ofInt (i j : Int) :
    compare (ofInt i).key (ofInt j).key = if ofInt i = ofInt j then .eq else compare i j := by
  split
  · next hsame => rw [hsame, Int.compare_eq_eq]
  · next hne =>
    have hkey := mt key_ofInt_eq_iff.mp hne
    have hup := @key_ofInt_mono i j
    have hdown := @key_ofInt_mono j i
    apply compare_congr
    · omega
    · exact ⟨fun heq => absurd heq hkey, fun heq => absurd (congrArg ofInt heq) hne⟩

/-- Up to `2 ^ 53` integers keep their order as numbers. -/
theorem key_ofInt_lt (hlt : i < j) (hi : i.natAbs ≤ 2 ^ 53) (hj : j.natAbs ≤ 2 ^ 53) :
    (ofInt i).key < (ofInt j).key := by
  have hup := @magnitude_ofInt_lt i j
  have hdown := @magnitude_ofInt_lt j i
  have hpos := @magnitude_ofInt_pos i
  rw [key_ofInt, key_ofInt]
  split <;> split <;> omega

/-- A small integer differs from its neighbour, and what lies past the neighbour does not come
    back. -/
theorem natAbs_of_ofInt_eq_of_lt (hsame : ofInt i = ofInt j) (hlt : i < j) :
    2 ^ 53 ≤ i.natAbs ∧ 2 ^ 53 ≤ j.natAbs ∧ (2 ^ 53 < i.natAbs ∨ 2 ^ 53 < j.natAbs) := by
  have hkey := congrArg key hsame
  have hboth := @key_ofInt_lt i j hlt
  have hnext := @key_ofInt_lt i (i + 1) (by omega)
  have habove := @key_ofInt_mono (i + 1) j (by omega)
  have hprevious := @key_ofInt_lt (j - 1) j (by omega)
  have hbelow := @key_ofInt_mono i (j - 1) (by omega)
  omega

/-- Distinct integers that become the same number are both at least `2 ^ 53` in absolute value, and
    one of them is larger. -/
theorem natAbs_of_ofInt_eq (hsame : ofInt i = ofInt j) (hne : i ≠ j) :
    2 ^ 53 ≤ i.natAbs ∧ 2 ^ 53 ≤ j.natAbs ∧ (2 ^ 53 < i.natAbs ∨ 2 ^ 53 < j.natAbs) := by
  rcases Int.lt_or_gt_of_ne hne with hlt | hgt
  · exact natAbs_of_ofInt_eq_of_lt hsame hlt
  · obtain ⟨hj, hi, hlarge⟩ := natAbs_of_ofInt_eq_of_lt hsame.symm hgt
    exact ⟨hi, hj, hlarge.symm⟩

end Integers

end DocQuery.Double
