namespace DocQuery

/-- A comparison that agrees with a first one where that decides, and else with a second one. -/
theorem eq_then_of {whole first rest : Ordering} (hlt : first = .lt → whole = .lt)
    (hgt : first = .gt → whole = .gt) (heq : first = .eq → whole = rest) :
    whole = first.then rest := by
  cases first with
  | lt => exact hlt rfl
  | eq => exact heq rfl
  | gt => exact hgt rfl

theorem compare_natCast (m n : Nat) : compare (m : Int) (n : Int) = compare m n := by
  rw [Int.compare_eq_ite_lt, Nat.compare_eq_ite_lt]
  simp only [Int.ofNat_lt]

/-- Numbers with a last place of a base compare by what stands before that place first. -/
theorem compare_place {base x y : Nat} {a b : Int} (hx : x < base) (hy : y < base) :
    compare (base * a + x) (base * b + y) = (compare a b).then (compare x y) := by
  have hbelow : ∀ {a b : Int}, a < b → base * a + base ≤ base * b := by
    intro a b hab
    have hmul := Int.mul_le_mul_of_nonneg_left hab (Int.natCast_nonneg base)
    rwa [Int.mul_add, Int.mul_one] at hmul
  refine eq_then_of (fun hlt => ?_) (fun hgt => ?_) (fun heq => ?_)
  · have hab := hbelow (Int.compare_eq_lt.mp hlt)
    exact Int.compare_eq_lt.mpr (by omega)
  · have hba := hbelow (Int.compare_eq_gt.mp hgt)
    exact Int.compare_eq_gt.mpr (by omega)
  · obtain rfl := Int.compare_eq_eq.mp heq
    rw [← compare_natCast, Int.compare_eq_ite_lt, Int.compare_eq_ite_lt]
    simp only [Int.add_lt_add_iff_left]

/-- Naturals compare by what stands before the last place of a base first. -/
theorem compare_div_mod {base : Nat} (hbase : 0 < base) (m n : Nat) :
    compare m n = (compare (m / base) (n / base)).then (compare (m % base) (n % base)) := by
  have hplace := compare_place (a := ((m / base : Nat) : Int)) (b := ((n / base : Nat) : Int))
    (Nat.mod_lt m hbase) (Nat.mod_lt n hbase)
  rw [compare_natCast] at hplace
  rw [← hplace, ← compare_natCast, ← Int.natCast_mul, ← Int.natCast_mul,
    ← Int.natCast_add, ← Int.natCast_add, Nat.div_add_mod, Nat.div_add_mod]

namespace Text

private theorem compare_eq_compareOfLessAndEq (cs ds : List Char) :
    compare cs ds = compareOfLessAndEq cs ds := by
  induction cs generalizing ds with
  | nil => cases ds <;> rfl
  | cons c cs ih =>
    cases ds with
    | nil => rfl
    | cons d ds =>
      have hfirst : compare c d = compareOfLessAndEq c d := rfl
      rw [List.compare_cons_cons, ih, hfirst]
      simp only [compareOfLessAndEq, List.cons_lt_cons_iff, List.cons.injEq]
      by_cases hlt : c < d
      · simp [hlt]
      · by_cases heq : c = d <;> simp [hlt, heq]

/-- Texts compare as their characters do, one after the other. -/
theorem compare_ofList (cs ds : List Char) :
    compare (String.ofList cs) (String.ofList ds) = compare cs ds := by
  have htext : compare (String.ofList cs) (String.ofList ds) =
      compareOfLessAndEq (String.ofList cs) (String.ofList ds) := rfl
  rw [compare_eq_compareOfLessAndEq, htext]
  simp only [compareOfLessAndEq, String.lt_iff, String.toList_ofList, String.ofList_inj]

/-- What two texts begin with alike does not count. -/
theorem compare_cons_self (c : Char) (cs ds : List Char) :
    compare (c :: cs) (c :: ds) = compare cs ds := by
  rw [List.compare_cons_cons, Std.ReflOrd.compare_self, Ordering.eq_then]

/-- Texts whose first parts have one length compare by these parts first. -/
theorem compare_append {cs ds : List Char} (hlength : cs.length = ds.length)
    (rest others : List Char) :
    compare (cs ++ rest) (ds ++ others) = (compare cs ds).then (compare rest others) := by
  induction cs generalizing ds with
  | nil =>
    obtain rfl := List.eq_nil_of_length_eq_zero hlength.symm
    rfl
  | cons c cs ih =>
    cases ds with
    | nil => cases hlength
    | cons d ds =>
      simp only [List.cons_append, List.compare_cons_cons, ih (Nat.succ.inj hlength),
        Ordering.then_assoc]

end Text

end DocQuery
