import DocQuery.Proofs.Number.Decimal

namespace DocQuery.Double

variable {d : Double}

private theorem ofMagnitude_magnitude (hd : d.isFinite = true) :
    ofMagnitude d.negative d.magnitude = d := by
  have hfinite : d.magnitude < infinityMagnitude := of_decide_eq_true hd
  have hmin : min d.magnitude infinityMagnitude = d.magnitude :=
    Nat.min_eq_left (Nat.le_of_lt hfinite)
  cases d
  simp only [ofMagnitude, hmin]

private theorem units_pos (hd : d.magnitude ≠ 0) : 0 < d.units := by
  rw [units_eq]
  exact Nat.lt_of_le_of_lt (Nat.zero_le _) (unitsOf_strictMono (Nat.pos_of_ne_zero hd))

/-- Finite numbers lie below `2 ^ 1024`. -/
theorem units_lt (hd : d.isFinite = true) : d.units < 2 ^ 1024 * unitsPerOne := by
  have hfinite : d.magnitude < infinityMagnitude := of_decide_eq_true hd
  have hinfinity : infinityMagnitude = (2046 + 1) * fractionWeight + 0 := by decide
  have hlt := unitsOf_strictMono hfinite
  rw [hinfinity, unitsOf_add 2046 (by decide)] at hlt
  have hpower : (fractionWeight + 0) * 2 ^ 2046 = 2 ^ 1024 * unitsPerOne := by decide +kernel
  rwa [hpower] at hlt

/-- The exponent of the first digit places the value between two powers of ten. -/
theorem exists_decimalExponent (hd : d.isFinite = true) (hzero : d.magnitude ≠ 0) :
    ∃ place : Nat, place ≤ 708 ∧ d.decimalExponent = (place : Int) - 400 ∧
      10 ^ place * unitsPerOne ≤ d.units * Nat.pow 10 400 ∧
      d.units * Nat.pow 10 400 < 10 ^ (place + 1) * unitsPerOne := by
  have hone : 0 < unitsPerOne := by decide +kernel
  have hscale : 0 < Nat.pow 10 400 := by decide +kernel
  have hleast : unitsPerOne ≤ Nat.pow 10 400 := by decide +kernel
  have hgreatest : 2 ^ 1024 * unitsPerOne * Nat.pow 10 400 ≤ 10 ^ 709 *
      unitsPerOne := by decide +kernel
  have hpos : 0 < d.units * Nat.pow 10 400 / unitsPerOne :=
    Nat.div_pos (Nat.le_trans hleast (Nat.le_mul_of_pos_left _ (units_pos hzero))) hone
  have hlt : d.units * Nat.pow 10 400 / unitsPerOne < 10 ^ 709 :=
    (Nat.div_lt_iff_lt_mul hone).mpr
      (Nat.lt_of_lt_of_le (Nat.mul_lt_mul_of_pos_right (units_lt hd) hscale) hgreatest)
  have hlength := Decimal.length_digits_pos (d.units * Nat.pow 10 400 / unitsPerOne)
  refine ⟨(Decimal.digits (d.units * Nat.pow 10 400 / unitsPerOne)).length - 1, ?_, ?_, ?_, ?_⟩
  · have := (Decimal.length_digits_le_iff (by decide)).mpr hlt
    omega
  · unfold decimalExponent
    omega
  · exact (Nat.le_div_iff_mul_le hone).mp ((Decimal.lt_length_digits_iff hpos).mp (by omega))
  · rw [← Nat.div_lt_iff_lt_mul hone, ← Decimal.length_digits_le_iff (Nat.succ_pos _)]
    omega

section Places

variable {value unit first up count down scale : Nat}

private theorem pow_mul_places (hplaces : first + up = count + down + scale) (unit : Nat) :
    10 ^ count * (unit * 10 ^ down) * 10 ^ scale = 10 ^ first * unit * 10 ^ up := by
  calc 10 ^ count * (unit * 10 ^ down) * 10 ^ scale
      = 10 ^ (count + down + scale) * unit := by
        rw [Nat.pow_add, Nat.pow_add, Nat.mul_comm unit, ← Nat.mul_assoc, Nat.mul_right_comm]
    _ = 10 ^ first * unit * 10 ^ up := by rw [← hplaces, Nat.pow_add, Nat.mul_right_comm]

private theorem pow_mul_le (hplaces : first + up = count + down + scale)
    (hle : 10 ^ first * unit ≤ value * Nat.pow 10 scale) :
    10 ^ count * (unit * Nat.pow 10 down) ≤ value * Nat.pow 10 up := by
  refine Nat.le_of_mul_le_mul_right ?_ (Nat.pow_pos (n := scale) (show 0 < 10 by decide))
  calc 10 ^ count * (unit * 10 ^ down) * 10 ^ scale
      = 10 ^ first * unit * 10 ^ up := pow_mul_places hplaces unit
    _ ≤ value * 10 ^ scale * 10 ^ up := Nat.mul_le_mul_right _ hle
    _ = value * 10 ^ up * 10 ^ scale := Nat.mul_right_comm _ _ _

private theorem lt_pow_mul (hplaces : first + up = count + down + scale)
    (hlt : value * Nat.pow 10 scale < 10 ^ first * unit) :
    value * Nat.pow 10 up < 10 ^ count * (unit * Nat.pow 10 down) := by
  refine Nat.lt_of_mul_lt_mul_right (a := 10 ^ scale) ?_
  calc value * 10 ^ up * 10 ^ scale
      = value * 10 ^ scale * 10 ^ up := Nat.mul_right_comm _ _ _
    _ < 10 ^ first * unit * 10 ^ up := Nat.mul_lt_mul_of_pos_right hlt (Nat.pow_pos (by decide))
    _ = 10 ^ count * (unit * 10 ^ down) * 10 ^ scale := (pow_mul_places hplaces unit).symm

end Places

/-- At the sixteenth place after the first digit, seventeen digits stand before the point. -/
theorem seventeen_digits (hd : d.isFinite = true) (hzero : d.magnitude ≠ 0) {place : Int}
    (hplace : place = d.decimalExponent - 16) :
    10 ^ 16 * (unitsPerOne * Nat.pow 10 place.toNat) ≤ d.units * Nat.pow 10 (-place).toNat ∧
      d.units * Nat.pow 10 (-place).toNat < 10 ^ 17 * (unitsPerOne * Nat.pow 10 place.toNat) := by
  obtain ⟨first, -, hfirst, hlow, hhigh⟩ := exists_decimalExponent hd hzero
  refine ⟨pow_mul_le ?_ hlow, lt_pow_mul ?_ hhigh⟩
  all_goals clear hlow hhigh; omega

/-- A decimal within half a unit in the last of seventeen places reads back as the number. -/
theorem toDouble_eq_of_near (hd : d.isFinite = true) (hzero : d.magnitude ≠ 0) {place : Int}
    (hplace : place = d.decimalExponent - 16) {num den coefficient : Nat}
    (hnum : num = d.units * Nat.pow 10 (-place).toNat)
    (hden : den = unitsPerOne * Nat.pow 10 place.toNat)
    (habove : 2 * num ≤ 2 * (coefficient * den) + den)
    (hbelow : 2 * (coefficient * den) ≤ 2 * num + den) :
    (⟨d.negative, coefficient, place⟩ : Decimal).toDouble = d := by
  obtain ⟨hlow, hhigh⟩ := seventeen_digits hd hzero hplace
  rw [← hnum, ← hden] at hlow hhigh
  have hpos : 0 < den := by omega
  have hfew : coefficient ≤ 10 ^ 17 := by
    refine Nat.le_of_not_lt fun hmany => ?_
    have hnext := Nat.mul_le_mul_right den (Nat.succ_le_of_lt hmany)
    rw [Nat.add_one_mul] at hnext
    omega
  have hsome : coefficient ≠ 0 := by
    rintro rfl
    omega
  obtain ⟨first, hfirst, hexponent, -, -⟩ := exists_decimalExponent hd hzero
  have hlength : (Decimal.digits coefficient).length ≤ 18 :=
    (Decimal.length_digits_le_iff (by decide)).mpr (by omega)
  have hlong : 16 < (Decimal.digits coefficient).length := by
    refine (Decimal.lt_length_digits_iff (Nat.pos_of_ne_zero hsome)).mpr ?_
    refine Nat.le_of_not_lt fun hfewer => ?_
    have hnext := Nat.mul_le_mul_right den (Nat.succ_le_of_lt hfewer)
    rw [Nat.add_one_mul] at hnext
    omega
  have hratio : ofRatio d.negative (coefficient * Nat.pow 10 place.toNat)
      (Nat.pow 10 (-place).toNat) = ofMagnitude d.negative d.magnitude := by
    have hscaled : coefficient * Nat.pow 10 place.toNat * unitsPerOne = coefficient * den := by
      rw [hden, Nat.mul_assoc, Nat.mul_comm (Nat.pow 10 place.toNat)]
    apply ofRatio_eq_of_near
    · rw [hscaled, ← units_eq, ← hnum]
      omega
    · rw [hscaled, ← units_eq, ← hnum]
      omega
  simp only [Decimal.toDouble, hsome, false_or]
  rw [if_neg (by omega), if_neg (by omega), hratio, ofMagnitude_magnitude hd]

/-- What is found at a place reads back as the number. -/
theorem toDouble_of_onGrid? {tie : Tie} {place : Int} {t : Decimal}
    (ht : d.onGrid? tie place = some t) :
    t.toDouble = d ∧ t.negative = d.negative := by
  unfold onGrid? at ht
  dsimp only at ht
  split at ht
  · next hbelow habove =>
    cases ht
    split
    · exact ⟨eq_of_beq habove, rfl⟩
    · exact ⟨eq_of_beq hbelow, rfl⟩
  · next hbelow _ =>
    cases ht
    exact ⟨eq_of_beq hbelow, rfl⟩
  · next _ habove =>
    cases ht
    exact ⟨eq_of_beq habove, rfl⟩
  · cases ht

/-- A decimal is found at a place if one of the two neighbours reads back as the number. -/
theorem isSome_onGrid?_of_neighbour {tie : Tie} {place : Int} {num den coefficient : Nat}
    (hnum : num = d.units * Nat.pow 10 (-place).toNat)
    (hden : den = unitsPerOne * Nat.pow 10 place.toNat)
    (hneighbour : coefficient = num / den ∨ coefficient = num / den + 1)
    (hread : (⟨d.negative, coefficient, place⟩ : Decimal).toDouble = d) :
    (d.onGrid? tie place).isSome := by
  unfold onGrid?
  rw [← hnum, ← hden]
  dsimp only
  split
  · rfl
  · rfl
  · rfl
  · next hbelow habove =>
    rcases hneighbour with rfl | rfl
    · exact absurd hread (ne_of_beq_false hbelow)
    · exact absurd hread (ne_of_beq_false habove)

/-- Seventeen digits suffice: one of the two neighbours with so many reads back as the number. -/
theorem isSome_onGrid? (hd : d.isFinite = true) (hzero : d.magnitude ≠ 0) (tie : Tie) :
    (d.onGrid? tie (d.decimalExponent - 16)).isSome := by
  obtain ⟨num, hnum⟩ : ∃ num, num = d.units * Nat.pow 10 (-(d.decimalExponent - 16)).toNat :=
    ⟨_, rfl⟩
  obtain ⟨den, hden⟩ : ∃ den, den = unitsPerOne * Nat.pow 10 (d.decimalExponent - 16).toNat :=
    ⟨_, rfl⟩
  have hpos : 0 < den := hden ▸ Nat.mul_pos (by decide +kernel) (Nat.pow_pos (by decide))
  have hsplit : num / den * den + num % den = num := Nat.div_add_mod' num den
  have hrest := Nat.mod_lt num hpos
  by_cases hnear : 2 * (num % den) ≤ den
  · apply isSome_onGrid?_of_neighbour hnum hden (.inl rfl)
    apply toDouble_eq_of_near hd hzero rfl hnum hden <;> omega
  · apply isSome_onGrid?_of_neighbour hnum hden (.inr rfl)
    apply toDouble_eq_of_near hd hzero rfl hnum hden
    · rw [Nat.add_one_mul (num / den)]
      omega
    · rw [Nat.add_one_mul (num / den)]
      omega

/-- The fewest digits are those of the number. -/
theorem toDouble_shortest (hd : d.isFinite = true) (tie : Tie) :
    (d.shortest tie).toDouble = d ∧ (d.shortest tie).negative = d.negative := by
  unfold shortest
  split
  · next hzero =>
    refine ⟨?_, rfl⟩
    rw [Decimal.toDouble, if_pos (.inl rfl), ← hzero]
    exact ofMagnitude_magnitude hd
  · next hzero =>
    dsimp only
    rw [Decimal.toDouble_dropTrailingZeros, Decimal.negative_dropTrailingZeros]
    obtain ⟨t, ht⟩ : ∃ t, (List.range 17).findSome?
        (fun (n : Nat) => d.onGrid? tie (d.decimalExponent - (n : Int))) = some t := by
      rw [← Option.isSome_iff_exists, List.findSome?_isSome_iff]
      exact ⟨16, by decide, isSome_onGrid? hd hzero tie⟩
    obtain ⟨n, -, hn⟩ := List.exists_of_findSome?_eq_some ht
    rw [ht]
    exact toDouble_of_onGrid? hn

end DocQuery.Double
