import Mathlib.Algebra.Group.Nat.Defs
import Mathlib.Order.Monotone.Basic
import DocQuery.Number.Decimal

namespace DocQuery.Double

/-- What a magnitude is worth. -/
def unitsOf (magnitude : Nat) : Nat :=
  (if magnitude < fractionWeight then magnitude else fractionWeight + magnitude % fractionWeight) *
    2 ^ (magnitude / fractionWeight - 1)

/-- What a finite number is worth. -/
def worth (d : Double) : Int := if d.negative then -(d.units : Int) else d.units

theorem units_eq (d : Double) : d.units = unitsOf d.magnitude := rfl

/-- A magnitude without exponent bits is worth itself. -/
theorem unitsOf_of_lt {m : Nat} (hm : m < fractionWeight) : unitsOf m = m := by
  have hshift : m / fractionWeight - 1 = 0 := by rw [Nat.div_eq_of_lt hm]
  rw [unitsOf, if_pos hm, hshift, Nat.pow_zero, Nat.mul_one]

/-- Each step of the exponent doubles what the fraction is worth. -/
theorem unitsOf_add (exponent : Nat) {fraction : Nat} (hfraction : fraction < fractionWeight) :
    unitsOf ((exponent + 1) * fractionWeight + fraction)
      = (fractionWeight + fraction) * 2 ^ exponent := by
  have hlarge : ¬ (exponent + 1) * fractionWeight + fraction < fractionWeight := by
    rw [Nat.succ_mul]
    omega
  have hexponent : ((exponent + 1) * fractionWeight + fraction) /
      fractionWeight - 1 = exponent := by
    rw [Nat.add_comm, Nat.add_mul_div_right _ _ (by decide), Nat.div_eq_of_lt hfraction]
    omega
  have hrest : ((exponent + 1) * fractionWeight + fraction) % fractionWeight = fraction := by
    rw [Nat.add_comm, Nat.add_mul_mod_self_right, Nat.mod_eq_of_lt hfraction]
  rw [unitsOf, if_neg hlarge, hexponent, hrest]

/-- Every other magnitude is an exponent and a fraction. -/
theorem exists_exponent {m : Nat} (hm : fractionWeight ≤ m) :
    ∃ exponent fraction, fraction < fractionWeight ∧
      m = (exponent + 1) * fractionWeight + fraction := by
  refine ⟨m / fractionWeight - 1, m % fractionWeight, Nat.mod_lt _ (by decide), ?_⟩
  have hpos : 0 < m / fractionWeight := Nat.div_pos hm (by decide)
  rw [Nat.sub_add_cancel hpos, Nat.mul_comm]
  exact (Nat.div_add_mod m fractionWeight).symm

private theorem unitsOf_lt_succ (m : Nat) : unitsOf m < unitsOf (m + 1) := by
  by_cases hm : fractionWeight ≤ m
  · obtain ⟨exponent, fraction, hfraction, rfl⟩ := exists_exponent hm
    rw [unitsOf_add exponent hfraction]
    by_cases hnext : fraction + 1 < fractionWeight
    · rw [Nat.add_assoc, unitsOf_add exponent hnext]
      exact Nat.mul_lt_mul_of_pos_right (by omega) (Nat.two_pow_pos exponent)
    · -- the fraction runs over into the exponent
      have hcarry : (exponent + 1) * fractionWeight + fraction + 1
          = (exponent + 1 + 1) * fractionWeight + 0 := by
        rw [Nat.succ_mul (exponent + 1)]
        omega
      have hdouble : (fractionWeight + 0) * 2 ^ (exponent + 1)
          = (fractionWeight + fractionWeight) * 2 ^ exponent := by
        rw [Nat.pow_succ, Nat.add_zero, ← Nat.two_mul fractionWeight, Nat.mul_comm (2 ^ exponent),
          Nat.mul_left_comm, Nat.mul_assoc]
      rw [hcarry, unitsOf_add (exponent + 1) (by decide), hdouble]
      exact Nat.mul_lt_mul_of_pos_right (by omega) (Nat.two_pow_pos exponent)
  · rw [unitsOf_of_lt (Nat.lt_of_not_le hm)]
    by_cases hnext : m + 1 < fractionWeight
    · rw [unitsOf_of_lt hnext]
      exact Nat.lt_succ_self m
    · have hfirst : m + 1 = (0 + 1) * fractionWeight + 0 := by omega
      rw [hfirst, unitsOf_add 0 (by decide)]
      omega

/-- Of two magnitudes the larger one is worth more. -/
theorem unitsOf_strictMono : StrictMono unitsOf := strictMono_nat_of_lt_succ unitsOf_lt_succ

/-- Numbers compare alike if they are less alike and equal alike. -/
theorem compare_congr {a b a' b' : Int} (hlt : a < b ↔ a' < b') (heq : a = b ↔ a' = b') :
    compare a b = compare a' b' := by
  change compareOfLessAndEq a b = compareOfLessAndEq a' b'
  simp only [compareOfLessAndEq, hlt, heq]

/-- Finite numbers have the order of what they are worth. -/
theorem compare_worth (a b : Double) : compare a.worth b.worth = compare a.key b.key := by
  have hlt : unitsOf a.magnitude < unitsOf b.magnitude ↔ a.magnitude < b.magnitude :=
    unitsOf_strictMono.lt_iff_lt
  have heq : unitsOf a.magnitude = unitsOf b.magnitude ↔ a.magnitude = b.magnitude :=
    unitsOf_strictMono.injective.eq_iff
  -- only zero is worth nothing, whatever its sign
  have hzero : ∀ m, unitsOf m = 0 ↔ m = 0 :=
    fun m => unitsOf_strictMono.injective.eq_iff (b := 0)
  have ha := hzero a.magnitude
  have hb := hzero b.magnitude
  simp only [worth, key, units_eq]
  apply compare_congr
  · cases a.negative <;> cases b.negative <;> simp only [Bool.false_eq_true,
      if_true, if_false] <;> omega
  · cases a.negative <;> cases b.negative <;> simp only [Bool.false_eq_true,
      if_true, if_false] <;> omega

private theorem worth_ofMagnitude {m : Nat} (hm : m < infinityMagnitude) (negative : Bool) :
    (ofMagnitude negative m).worth = if negative then -(unitsOf m : Int) else unitsOf m := by
  have hmagnitude : (ofMagnitude negative m).magnitude = m := Nat.min_eq_left (Nat.le_of_lt hm)
  rw [worth, units_eq, hmagnitude]
  rfl

private theorem roundHalfEven_mul {den : Nat} (hden : 0 < den) (quotient : Nat) :
    roundHalfEven (quotient * den) den = quotient := by
  have hrest : quotient * den % den = 0 := Nat.mul_mod_left quotient den
  have hquotient : quotient * den / den = quotient := Nat.mul_div_cancel quotient hden
  have hne : (0 == den) = false := beq_eq_false_iff_ne.mpr (Nat.ne_of_lt hden)
  simp [roundHalfEven, hrest, hquotient, hne]

private theorem log2_unitsOf_of_lt {m : Nat} (hm : m < fractionWeight) : m.log2 - 52 = 0 := by
  by_cases hzero : m = 0
  · subst hzero
    decide
  · have hlog : m.log2 < 52 := (Nat.log2_lt hzero).mpr hm
    omega

private theorem log2_unitsOf_add {fraction : Nat} (hfraction : fraction < fractionWeight)
    (exponent : Nat) :
    ((fractionWeight + fraction) * 2 ^ exponent).log2 = 52 + exponent := by
  have hpower := Nat.two_pow_pos exponent
  have hne : (fractionWeight + fraction) * 2 ^ exponent ≠ 0 :=
    Nat.ne_of_gt (Nat.mul_pos (by omega) hpower)
  have hone : (2 : Nat) ^ 52 = fractionWeight := by decide
  have htwo : (2 : Nat) ^ 53 = fractionWeight + fractionWeight := by decide
  refine (Nat.log2_eq_iff hne).mpr ⟨?_, ?_⟩
  · rw [Nat.pow_add, hone]
    exact Nat.mul_le_mul_right _ (by omega)
  · have hnext : 52 + exponent + 1 = 53 + exponent := by omega
    rw [hnext, Nat.pow_add, htwo]
    exact Nat.mul_lt_mul_of_pos_right (by omega) hpower

/-- A number of units that a magnitude is worth is not rounded. -/
theorem shift_add_roundHalfEven (m : Nat) :
    ((unitsOf m).log2 - 52) * fractionWeight
      + roundHalfEven (unitsOf m) (Nat.pow 2 ((unitsOf m).log2 - 52)) = m := by
  by_cases hm : fractionWeight ≤ m
  · obtain ⟨exponent, fraction, hfraction, rfl⟩ := exists_exponent hm
    have hshift : 52 + exponent - 52 = exponent := by omega
    rw [unitsOf_add exponent hfraction, log2_unitsOf_add hfraction, hshift]
    change exponent * fractionWeight
      + roundHalfEven ((fractionWeight + fraction) * 2 ^ exponent) (2 ^ exponent) = _
    rw [roundHalfEven_mul (Nat.two_pow_pos exponent), Nat.succ_mul, Nat.add_assoc]
  · have hlt := Nat.lt_of_not_le hm
    have hround : roundHalfEven (m * 1) 1 = m := roundHalfEven_mul Nat.one_pos m
    rw [unitsOf_of_lt hlt, log2_unitsOf_of_lt hlt, Nat.zero_mul, Nat.zero_add]
    rwa [Nat.mul_one] at hround

/-- A natural that a magnitude is worth is converted to it. -/
theorem ofRatio_eq_ofMagnitude {m num : Nat} (hnum : num * unitsPerOne = unitsOf m)
    (negative : Bool) :
    ofRatio negative num 1 = ofMagnitude negative m := by
  simp only [ofRatio, hnum, Nat.div_one, Nat.one_mul, shift_add_roundHalfEven]

/-- An integer that some number is worth is converted to a number that is worth it. -/
theorem worth_ofInt {i : Int} {d : Double} (hd : d.toInt? = some i) :
    (ofInt i).isFinite = true ∧ (ofInt i).worth = i * unitsPerOne := by
  unfold toInt? at hd
  split at hd
  · next hvalue =>
    rw [Bool.and_eq_true, beq_iff_eq] at hvalue
    obtain ⟨hfinite, hrest⟩ := hvalue
    have hunits : d.units / unitsPerOne * unitsPerOne = d.units := by
      rw [Nat.mul_comm]
      exact Nat.mul_div_cancel' (Nat.dvd_of_mod_eq_zero hrest)
    have habs : i.natAbs = d.units / unitsPerOne := by
      cases hd
      cases d.negative
      · exact Int.natAbs_natCast _
      · exact (Int.natAbs_neg _).trans (Int.natAbs_natCast _)
    have hfits : d.magnitude < infinityMagnitude := of_decide_eq_true hfinite
    have hconverted : ofInt i = ofMagnitude (decide (i < 0)) d.magnitude :=
      ofRatio_eq_ofMagnitude (by rw [habs, hunits, units_eq]) _
    have hmagnitude : (ofMagnitude (decide (i < 0)) d.magnitude).magnitude = d.magnitude :=
      Nat.min_eq_left (Nat.le_of_lt hfits)
    refine ⟨?_, ?_⟩
    · rw [hconverted, isFinite, hmagnitude]
      exact hfinite
    · rw [hconverted, worth_ofMagnitude hfits, ← units_eq, ← hunits, ← habs, Int.natCast_mul]
      by_cases hneg : i < 0
      · rw [if_pos (decide_eq_true hneg),
          Int.ofNat_natAbs_of_nonpos (Int.le_of_lt hneg), Int.neg_mul, Int.neg_neg]
      · rw [if_neg (by simpa using hneg), Int.natAbs_of_nonneg (Int.not_lt.mp hneg)]
  · cases hd

theorem isNaN_of_isFinite {d : Double} (hd : d.isFinite = true) : d.isNaN = false := by
  have hlt : d.magnitude < infinityMagnitude := of_decide_eq_true hd
  exact decide_eq_false (Nat.lt_asymm hlt)

theorem sameValue_self {d : Double} (hd : d.isNaN = false) : d.sameValue d = true := by
  simp [sameValue, hd]

/-- A NaN has no order with any number. -/
theorem compare?_eq_of_isNaN {a b : Double} (hnan : (a.isNaN || b.isNaN) = true) :
    a.compare? b = none := by
  rw [compare?, if_pos hnan]

/-- Numbers compare as what they are worth, unless one is a NaN. -/
theorem compare?_eq {a b : Double} (ha : a.isNaN = false) (hb : b.isNaN = false) :
    a.compare? b = some (compare a.worth b.worth) := by
  rw [compare?, ha, hb, compare_worth]
  rfl

/-- Numbers compare as equal exactly if they have the same value. -/
theorem compare?_beq_eq (a b : Double) : (a.compare? b == some .eq) = b.sameValue a := by
  have hkey : (compare a.key b.key == .eq) = (b.key == a.key) := by
    rw [Bool.eq_iff_iff, beq_iff_eq, beq_iff_eq, Int.compare_eq_eq, eq_comm]
  unfold compare? sameValue
  cases a.isNaN <;> cases b.isNaN <;> first | rfl | exact hkey

end DocQuery.Double
