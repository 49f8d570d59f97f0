import Mathlib
import DocQuery.Proofs.Text.Order
import DocQuery.Time.Date

namespace DocQuery.Date

/-- The number of days of a year. -/
def yearLength (year : Int) : Nat := if isLeapYear year then 366 else 365

/-- A year starts when all days of the year before it are over. -/
theorem daysBeforeYear_succ (year : Int) :
    daysBeforeYear (year + 1) = daysBeforeYear year + yearLength year := by
  unfold daysBeforeYear yearLength isLeapYear
  simp only [decide_eq_true_eq]
  split <;> omega

/-- Later years start on later days. -/
theorem daysBeforeYear_mono {year later : Int} (hle : year ≤ later) :
    daysBeforeYear year ≤ daysBeforeYear later := by
  rcases Int.lt_or_eq_of_le hle with hlt | rfl
  · unfold daysBeforeYear
    omega
  · exact Int.le_refl _

/-- The average length of a year gives the year of a day up to a neighbour, and the neighbours are
    tried. -/
theorem daysBeforeYear_yearOfDay (days : Int) :
    daysBeforeYear (yearOfDay days) ≤ days ∧ days < daysBeforeYear (yearOfDay days + 1) := by
  have hbefore : ∀ guess : Int, 146097 * guess ≤ 400 * days →
      daysBeforeYear (guess - 1) ≤ days := by
    intro guess hguess
    unfold daysBeforeYear
    omega
  have hafter : ∀ guess : Int, 400 * days < 146097 * (guess + 1) →
      days < daysBeforeYear (guess + 1 + 1) := by
    intro guess hguess
    unfold daysBeforeYear
    omega
  unfold yearOfDay
  dsimp only
  split
  · next hlt =>
    rw [Int.sub_add_cancel]
    exact ⟨hbefore _ (by omega), hlt⟩
  · split
    · next hle => exact ⟨hle, hafter _ (by omega)⟩
    · omega

theorem sum_monthLengths (year : Int) : (monthLengths year).sum = yearLength year := by
  unfold monthLengths yearLength
  split <;> rfl

private theorem daysBeforeMonth_eq_sum (year : Int) (month : Nat) :
    daysBeforeMonth year month = ((monthLengths year).take (month - 1)).sum := rfl

/-- The days fill the months before, and those left over fit into the next one. -/
theorem fillMonths_spec {lengths : List Nat} {days : Nat} (hdays : days < lengths.sum) :
    (lengths.take (fillMonths lengths days).1).sum + (fillMonths lengths days).2 = days ∧
      (fillMonths lengths days).2 < lengths.getD (fillMonths lengths days).1 0 := by
  induction lengths generalizing days with
  | nil => cases hdays
  | cons length rest ih =>
    rw [fillMonths]
    split
    · next hlt => exact ⟨Nat.zero_add days, hlt⟩
    · next hle =>
      rw [List.sum_cons] at hdays
      obtain ⟨hsum, hleft⟩ := ih (by omega : days - length < rest.sum)
      simp only [List.take_succ_cons, List.sum_cons, List.getD_cons_succ]
      exact ⟨by omega, hleft⟩

/-- The day of a number exists and has that number. -/
theorem ofNumber_spec (n : Int) : (ofNumber n).number = n ∧ (ofNumber n).isValid = true := by
  have hyear := daysBeforeYear_yearOfDay (n + daysBeforeYear 1970)
  have hdays :
      (n + daysBeforeYear 1970 - daysBeforeYear (yearOfDay (n + daysBeforeYear 1970))).toNat <
      (monthLengths (yearOfDay (n + daysBeforeYear 1970))).sum := by
    rw [sum_monthLengths]
    rw [daysBeforeYear_succ] at hyear
    omega
  obtain ⟨hsum, hleft⟩ := fillMonths_spec hdays
  constructor
  · simp only [number, ofNumber, daysBeforeMonth_eq_sum, Nat.add_sub_cancel]
    omega
  · simp only [isValid, ofNumber, Nat.add_sub_cancel, decide_eq_true_eq]
    omega

/-- Every number is that of its day. -/
theorem number_ofNumber (n : Int) : (ofNumber n).number = n := (ofNumber_spec n).1

/-- Every number has a day that exists. -/
theorem isValid_ofNumber (n : Int) : (ofNumber n).isValid = true := (ofNumber_spec n).2

theorem isValid_iff {d : Date} : d.isValid = true ↔
    1 ≤ d.month ∧ 1 ≤ d.day ∧ d.day ≤ (monthLengths d.year).getD (d.month - 1) 0 :=
  decide_eq_true_iff

theorem length_monthLengths (year : Int) : (monthLengths year).length = 12 := rfl

theorem month_le_of_isValid {d : Date} (hd : d.isValid = true) : d.month ≤ 12 := by
  obtain ⟨-, hday, hlength⟩ := isValid_iff.mp hd
  refine Nat.le_of_not_lt fun hmonth => ?_
  rw [List.getD_eq_default _ _ (by rw [length_monthLengths]; omega)] at hlength
  omega

theorem day_le_of_isValid {d : Date} (hd : d.isValid = true) : d.day ≤ 31 := by
  obtain ⟨hmonth, -, hlength⟩ := isValid_iff.mp hd
  have hlong : ∀ length ∈ monthLengths d.year, length ≤ 31 := by
    unfold monthLengths
    split <;> decide
  have hlt : d.month - 1 < (monthLengths d.year).length := by
    have hle := month_le_of_isValid hd
    rw [length_monthLengths]
    omega
  rw [List.getD_eq_getElem _ _ hlt] at hlength
  exact Nat.le_trans hlength (hlong _ (List.getElem_mem hlt))

private theorem sum_take_succ (lengths : List Nat) (k : Nat) :
    (lengths.take (k + 1)).sum = (lengths.take k).sum + lengths.getD k 0 := by
  rw [List.take_add_one, List.sum_append, List.getD_eq_getElem?_getD]
  cases lengths[k]? <;> simp

/-- The days of a month end before those of a later month of the year begin. -/
theorem daysBeforeMonth_add_day_le {d : Date} (hd : d.isValid = true) {later : Nat}
    (hlater : d.month < later) :
    daysBeforeMonth d.year d.month + d.day ≤ daysBeforeMonth d.year later := by
  obtain ⟨hmonth, -, hday⟩ := isValid_iff.mp hd
  obtain ⟨between, hbetween⟩ :=
    Nat.exists_eq_add_of_le (show d.month - 1 + 1 ≤ later - 1 by omega)
  rw [daysBeforeMonth_eq_sum, daysBeforeMonth_eq_sum, hbetween, List.take_add,
    List.sum_append, sum_take_succ]
  omega

/-- A day lies between the start of its year and that of the next. -/
theorem number_bounds {d : Date} (hd : d.isValid = true) :
    daysBeforeYear d.year ≤ d.number + daysBeforeYear 1970 ∧
      d.number + daysBeforeYear 1970 < daysBeforeYear (d.year + 1) := by
  have hmonth := month_le_of_isValid hd
  have hend : daysBeforeMonth d.year d.month + d.day ≤ daysBeforeMonth d.year 13 :=
    daysBeforeMonth_add_day_le hd (by omega)
  have hyear : daysBeforeMonth d.year 13 = yearLength d.year := sum_monthLengths d.year
  obtain ⟨-, hday, -⟩ := isValid_iff.mp hd
  rw [daysBeforeYear_succ, number]
  omega

/-- Days compare by the year, then by the month, then by the day. -/
instance : Ord Date where
  compare d e := (compare d.year e.year).then ((compare d.month e.month).then (compare d.day e.day))

variable {d e : Date}

theorem compare_eq_iff : compare d e = .eq ↔ d = e := by
  obtain ⟨year, month, day⟩ := d
  obtain ⟨year', month', day'⟩ := e
  change (compare year year').then ((compare month month').then (compare day day')) = .eq ↔ _
  rw [Ordering.then_eq_eq, Ordering.then_eq_eq, Int.compare_eq_eq, Nat.compare_eq_eq,
    Nat.compare_eq_eq, mk.injEq]

theorem compare_of_year_gt (hyear : e.year < d.year) : compare d e = .gt := by
  change (compare d.year e.year).then ((compare d.month e.month).then (compare d.day e.day)) = .gt
  rw [Int.compare_eq_gt.mpr hyear, Ordering.gt_then]

private theorem number_lt_of_year_lt (hd : d.isValid = true) (he : e.isValid = true)
    (hyear : d.year < e.year) :
    d.number < e.number := by
  have hnext := daysBeforeYear_mono hyear
  have hd := number_bounds hd
  have he := number_bounds he
  omega

private theorem number_lt_of_month_lt (hd : d.isValid = true) (he : e.isValid = true)
    (hyear : d.year = e.year) (hmonth : d.month < e.month) : d.number < e.number := by
  have hnext := daysBeforeMonth_add_day_le hd hmonth
  have hday := (isValid_iff.mp he).2.1
  rw [number, number, ← hyear]
  omega

/-- Days that exist compare as their numbers do. -/
theorem compare_number (hd : d.isValid = true) (he : e.isValid = true) :
    compare d.number e.number = compare d e := by
  refine eq_then_of (fun hlt => ?_) (fun hgt => ?_) fun hyear =>
    eq_then_of (fun hlt => ?_) (fun hgt => ?_) fun hmonth => ?_
  · exact Int.compare_eq_lt.mpr (number_lt_of_year_lt hd he (Int.compare_eq_lt.mp hlt))
  · exact Int.compare_eq_gt.mpr (number_lt_of_year_lt he hd (Int.compare_eq_gt.mp hgt))
  · have hyear := Int.compare_eq_eq.mp hyear
    exact Int.compare_eq_lt.mpr (number_lt_of_month_lt hd he hyear (Nat.compare_eq_lt.mp hlt))
  · have hyear := Int.compare_eq_eq.mp hyear
    exact Int.compare_eq_gt.mpr (number_lt_of_month_lt he hd hyear.symm (Nat.compare_eq_gt.mp hgt))
  · rw [number, number, Int.compare_eq_eq.mp hyear, Nat.compare_eq_eq.mp hmonth,
      ← compare_natCast, Int.compare_eq_ite_lt, Int.compare_eq_ite_lt]
    simp only [Int.sub_lt_sub_right_iff, Int.add_lt_add_iff_left]

/-- Days that exist are told apart by their numbers. -/
theorem number_inj (hd : d.isValid = true) (he : e.isValid = true) :
    d.number = e.number ↔ d = e := by
  rw [← compare_eq_iff, ← compare_number hd he, Int.compare_eq_eq]

/-- Days compare as their numbers do. -/
theorem compare_ofNumber (m n : Int) : compare (ofNumber m) (ofNumber n) = compare m n := by
  rw [← compare_number (isValid_ofNumber m) (isValid_ofNumber n),
    number_ofNumber, number_ofNumber]

end DocQuery.Date
