import DocQuery.Proofs.Time.Date
import DocQuery.Proofs.Time.Digits

namespace DocQuery.Instant

/-- Instants compare by the second, then by the milliseconds since it began. -/
instance : Ord Instant where
  compare t u := (compare t.second u.second).then (compare t.milli u.milli)

/-- Whether the instant is in a leap second only at the end of a minute. -/
def IsProper (t : Instant) : Prop := 1000 ≤ t.milli → t.second % 60 = 59

instance : DecidablePred IsProper := fun t =>
  inferInstanceAs (Decidable (1000 ≤ t.milli → t.second % 60 = 59))

variable {t u : Instant}

theorem compare_eq_then (t u : Instant) :
    compare t u = (compare t.second u.second).then (compare t.milli u.milli) := rfl

theorem compare_eq_iff : compare t u = .eq ↔ t = u := by
  rw [compare_eq_then, Ordering.then_eq_eq, Int.compare_eq_eq, Nat.compare_eq_eq]
  obtain ⟨second, milli, hmilli⟩ := t
  obtain ⟨second', milli', hmilli'⟩ := u
  rw [mk.injEq]

instance : Std.TransOrd Instant :=
  inferInstanceAs (Std.TransCmp (compareLex (compareOn second) (compareOn milli)))

section Days

private theorem compare_sign {sign c : Char} (hsign : sign = '-' ∨ sign = '+')
    (hc : c.isDigit = true) :
    compare sign c = .lt := by
  have hlt : sign < c := by
    have hzero := (Char.isDigit_iff_toNat.mp hc).1
    have hbelow : sign.toNat < '0'.toNat := by rcases hsign with rfl | rfl <;> decide
    exact UInt32.lt_iff_toNat_lt.mpr (Nat.lt_of_lt_of_le hbelow hzero)
  exact if_pos hlt

variable {year later : Int}

/-- The years from 0 to 9999 have four digits and no sign. -/
theorem yearText_of_le (hle : 0 ≤ year) (hyear : year ≤ 9999) :
    yearText year = padded 4 year.toNat :=
  if_pos ⟨hle, hyear⟩

/-- The digits of a year come behind the sign of another one. -/
theorem compare_yearText_of_signed (hyear : year < 0 ∨ 9999 < year) (hle : 0 ≤ later)
    (hlater : later ≤ 9999) (rest others : List Char) :
    compare (yearText year ++ rest) (yearText later ++ others) = .lt := by
  have hsmall : later.toNat < 10 ^ (3 + 1) := by omega
  obtain ⟨hlength, hdigits, -⟩ := eq_padded_iff.mp ⟨hsmall, rfl⟩
  obtain ⟨c, cs, hcs⟩ := List.exists_cons_of_length_eq_add_one hlength
  have hsigned : yearText year = (if year < 0 then '-' else '+') :: padded 4 year.natAbs :=
    if_neg (by omega)
  have hc := hdigits c (hcs ▸ List.mem_cons_self)
  have hsign : (if year < 0 then '-' else '+') = '-' ∨ (if year < 0 then '-' else '+') = '+' := by
    split
    · exact .inl rfl
    · exact .inr rfl
  rw [hsigned, yearText_of_le hle hlater, hcs, List.cons_append, List.cons_append,
    List.compare_cons_cons, compare_sign hsign hc, Ordering.lt_then]

private theorem compare_yearText (hyear : year ≤ 9999) (hle : 0 ≤ later)
    (hlater : later ≤ 9999) (rest others : List Char) :
    compare (yearText year ++ rest) (yearText later ++ others) =
      (compare year later).then (compare rest others) := by
  by_cases hneg : year < 0
  · rw [compare_yearText_of_signed (.inl hneg) hle hlater,
      Int.compare_eq_lt.mpr (by omega), Ordering.lt_then]
  · have hsmall : year.toNat < 10 ^ (3 + 1) := by omega
    have hsmall' : later.toNat < 10 ^ (3 + 1) := by omega
    rw [yearText_of_le (by omega) hyear, yearText_of_le hle hlater,
      compare_padded_append hsmall hsmall',
      ← compare_natCast, Int.toNat_of_nonneg (by omega), Int.toNat_of_nonneg hle]

variable {d e : Date}

theorem dayText_append (d : Date) (rest : List Char) :
    dayText d ++ rest =
      yearText d.year ++ ('-' :: (padded 2 d.month ++ ('-' :: (padded 2 d.day ++ rest)))) := by
  simp only [dayText, List.append_assoc, List.cons_append]

/-- Texts that begin with days compare by these first. -/
theorem compare_dayText (hd : d.isValid = true) (he : e.isValid = true) (hyear : d.year ≤ 9999)
    (hle : 0 ≤ e.year) (hlater : e.year ≤ 9999) (rest others : List Char) :
    compare (dayText d ++ rest) (dayText e ++ others) =
      (compare d e).then (compare rest others) := by
  have hmonth : d.month < 10 ^ (1 + 1) :=
    Nat.lt_of_le_of_lt (Date.month_le_of_isValid hd) (by decide)
  have hmonth' : e.month < 10 ^ (1 + 1) :=
    Nat.lt_of_le_of_lt (Date.month_le_of_isValid he) (by decide)
  have hday : d.day < 10 ^ (1 + 1) := Nat.lt_of_le_of_lt (Date.day_le_of_isValid hd) (by decide)
  have hday' : e.day < 10 ^ (1 + 1) := Nat.lt_of_le_of_lt (Date.day_le_of_isValid he) (by decide)
  rw [dayText_append, dayText_append, compare_yearText hyear hle hlater, Text.compare_cons_self,
    compare_padded_append hmonth hmonth', Text.compare_cons_self, compare_padded_append hday hday',
    ← Ordering.then_assoc, ← Ordering.then_assoc, Ordering.then_assoc (compare d.year _)]
  rfl

/-- A day of a year that has a sign comes before one of a year that has none. -/
theorem compare_dayText_of_signed (hyear : d.year < 0 ∨ 9999 < d.year) (hle : 0 ≤ e.year)
    (hlater : e.year ≤ 9999) (rest others : List Char) :
    compare (dayText d ++ rest) (dayText e ++ others) = .lt := by
  rw [dayText_append, dayText_append, compare_yearText_of_signed hyear hle hlater]

end Days

section Times

private theorem compare_date (t u : Instant) :
    compare t.date u.date = compare (t.second / 86400) (u.second / 86400) :=
  Date.compare_ofNumber _ _

/-- The day of an instant exists. -/
theorem isValid_date (t : Instant) : t.date.isValid = true := Date.isValid_ofNumber _

theorem secondOfDay_lt (t : Instant) : t.secondOfDay < 86400 := by
  rw [secondOfDay]
  omega

theorem hour_lt (t : Instant) : t.hour < 24 := by
  have hlt := t.secondOfDay_lt
  rw [hour]
  omega

/-- A leap second belongs to the last second of a minute. -/
theorem IsProper.secondOfDay_mod (ht : t.IsProper) (hmilli : 1000 ≤ t.milli) :
    t.secondOfDay % 60 = 59 := by
  have hproper := ht hmilli
  rw [secondOfDay]
  omega

private theorem compare_second (t u : Instant) :
    compare t.second u.second =
      (compare t.date u.date).then (compare t.secondOfDay u.secondOfDay) := by
  have hsplit : ∀ t : Instant, t.second = (86400 : Nat) * (t.second / 86400) + t.secondOfDay := by
    intro t
    rw [secondOfDay]
    omega
  rw [compare_date, ← compare_place (secondOfDay_lt t) (secondOfDay_lt u), ← hsplit, ← hsplit]

/-- Instants of different days compare by these. -/
theorem compare_of_date_ne (hne : t.date ≠ u.date) : compare t u = compare t.date u.date := by
  rw [compare_eq_then, compare_second, Ordering.then_assoc]
  cases hdate : compare t.date u.date with
  | lt | gt => rfl
  | eq => exact absurd (Date.compare_eq_iff.mp hdate) hne

/-- A second of the day compares by the hour, then by the minute, then by the second of the
    minute. -/
theorem compare_secondOfDay (t u : Instant) :
    compare t.secondOfDay u.secondOfDay =
      (compare t.hour u.hour).then
        ((compare (t.secondOfDay / 60 % 60) (u.secondOfDay / 60 % 60)).then
        (compare (t.secondOfDay % 60) (u.secondOfDay % 60))) := by
  rw [compare_div_mod (show 0 < 60 by decide),
    compare_div_mod (show 0 < 60 by decide) (t.secondOfDay / 60),
    Nat.div_div_eq_div_mul, Nat.div_div_eq_div_mul, Ordering.then_assoc]
  rfl

/-- A leap second that ends a minute compares as a second of its own. -/
theorem compare_leap {s s' m m' : Nat} (hs : s < 60) (hs' : s' < 60) (hm : m < 2000)
    (hm' : m' < 2000) (hleap : 1000 ≤ m → s = 59) (hleap' : 1000 ≤ m' → s' = 59) :
    (compare (s + m / 1000) (s' + m' / 1000)).then (compare (m % 1000) (m' % 1000)) =
      (compare s s').then (compare m m') := by
  have hsplit := compare_div_mod (show 0 < 1000 by decide) (1000 * s + m) (1000 * s' + m')
  simp only [Nat.mul_add_div (show 1000 > 0 by decide), Nat.mul_add_mod] at hsplit
  rw [← hsplit]
  refine eq_then_of (fun hlt => ?_) (fun hgt => ?_) (fun heq => ?_)
  · have hlt := Nat.compare_eq_lt.mp hlt
    exact Nat.compare_eq_lt.mpr (by omega)
  · have hgt := Nat.compare_eq_gt.mp hgt
    exact Nat.compare_eq_gt.mpr (by omega)
  · rw [Nat.compare_eq_eq.mp heq, Nat.compare_eq_ite_lt, Nat.compare_eq_ite_lt]
    simp only [Nat.add_lt_add_iff_left]

end Times

/-- What stands behind the day in the text of an instant. -/
def clockText (t : Instant) : List Char :=
  'T' :: (padded 2 t.hour ++ ':' :: (t.minuteText ++ '.' :: (t.fraction ++ ['Z'])))

/-- The text of an instant is that of its day, and behind it that of its time. -/
theorem text_eq (t : Instant) : t.text = String.ofList (dayText t.date ++ t.clockText) := by
  simp only [text, textWith, clockText, List.append_assoc, List.cons_append]

private theorem compare_clockText (ht : t.IsProper) (hu : u.IsProper) :
    compare t.clockText u.clockText =
      (compare t.secondOfDay u.secondOfDay).then (compare t.milli u.milli) := by
  have hhour : ∀ t : Instant, t.hour < 10 ^ (1 + 1) := fun t => Nat.lt_trans t.hour_lt (by decide)
  have hminute : ∀ t : Instant, t.secondOfDay / 60 % 60 < 10 ^ (1 + 1) := fun t => by omega
  have hsecond : ∀ t : Instant, t.secondOfDay % 60 + t.milli / 1000 < 10 ^ (1 + 1) := fun t => by
    have hlt := t.milli_lt
    omega
  have hfraction : ∀ t : Instant, t.milli % 1000 < 10 ^ (2 + 1) :=
    fun t => Nat.mod_lt t.milli (by decide)
  simp only [clockText, minuteText, fraction, List.append_assoc, List.cons_append,
    Text.compare_cons_self]
  rw [compare_padded_append (hhour t) (hhour u), Text.compare_cons_self,
    compare_padded_append (hminute t) (hminute u), Text.compare_cons_self,
    compare_padded_append (hsecond t) (hsecond u), Text.compare_cons_self,
    compare_padded_append (hfraction t) (hfraction u), Std.ReflOrd.compare_self, Ordering.then_eq,
    compare_leap (Nat.mod_lt _ (by decide))
      (Nat.mod_lt _ (by decide)) t.milli_lt u.milli_lt ht.secondOfDay_mod
      hu.secondOfDay_mod, compare_secondOfDay, Ordering.then_assoc, Ordering.then_assoc]

/-- Up to year 9999 texts compare as instants do. -/
theorem compare_text (ht : t.IsProper) (hu : u.IsProper) (hyear : t.date.year ≤ 9999)
    (hle : 0 ≤ u.date.year) (hlater : u.date.year ≤ 9999) :
    compare t.text u.text = compare t u := by
  rw [text_eq, text_eq, Text.compare_ofList,
    compare_dayText t.isValid_date u.isValid_date hyear hle hlater, compare_clockText ht hu,
    compare_eq_then, compare_second, Ordering.then_assoc]

/-- Before a leap second the count of milliseconds has the same order. -/
theorem compare_epochMillis (ht : t.milli < 1000) (hu : u.milli < 1000) :
    compare t.epochMillis u.epochMillis = compare t u := compare_place ht hu

end DocQuery.Instant
