import DocQuery.Proofs.Time.Instant

namespace DocQuery.Instant

private theorem skipOne?_eq_some_iff {choices cs rest : List Char} :
    skipOne? choices cs = some rest ↔ ∃ c ∈ choices, cs = c :: rest := by
  cases cs with
  | nil => simp [skipOne?]
  | cons c cs =>
    simp only [skipOne?, Option.ite_none_right_eq_some, Option.some.injEq, List.cons.injEq]
    constructor
    · rintro ⟨hc, rfl⟩
      exact ⟨c, hc, rfl, rfl⟩
    · rintro ⟨_, hc, rfl, rfl⟩
      exact ⟨hc, rfl⟩

private theorem skipOne?_singleton_iff {c : Char} {cs rest : List Char} :
    skipOne? [c] cs = some rest ↔ cs = c :: rest := by
  rw [skipOne?_eq_some_iff]
  constructor
  · rintro ⟨other, hother, hcs⟩
    exact List.mem_singleton.mp hother ▸ hcs
  · exact fun hcs => ⟨c, List.mem_cons_self, hcs⟩

/-- An offset is a whole number of minutes, less than a day. -/
theorem readOffset?_spec {cs : List Char} {offset : Int} (hread : readOffset? cs = some offset) :
    offset % 60 = 0 ∧ -86400 < offset ∧ offset < 86400 := by
  unfold readOffset? at hread
  split at hread
  · cases hread
    decide
  · cases hread
    decide
  · next sign _ _ _ =>
    simp only [Option.bind_eq_bind, Option.bind_eq_some_iff, Prod.exists] at hread
    obtain ⟨hours, rest, -, rest, -, minutes, rest, -, hread⟩ := hread
    split at hread
    · next hbounds =>
      obtain ⟨hhours, hminutes, -⟩ := hbounds
      split at hread
      · cases hread
        omega
      · split at hread
        · cases hread
          omega
        · cases hread
    · cases hread
  · cases hread

/-- A local time lies in its day, in which the offset moves it, and a leap second ends a minute
    there. -/
theorem ofLocal?_spec {date : Date} {hour minute second milli : Nat} {offset : Int} {t : Instant}
    (hlocal : ofLocal? date hour minute second milli offset = some t) :
    date.isValid = true ∧ ∃ clock : Int, 0 ≤ clock ∧ clock < 86400 ∧
      (1000 ≤ t.milli → clock % 60 = 59) ∧
      t.second = 86400 * date.number + (clock - offset) := by
  unfold ofLocal? at hlocal
  split at hlocal
  · next hvalid =>
    obtain ⟨hdate, hhour, hminute, hsecond⟩ := hvalid
    cases hlocal
    refine ⟨hdate, ((3600 * hour + 60 * minute + min second 59 : Nat) : Int),
      by omega, by omega, ?_, rfl⟩
    simp only [ofDay]
    split <;> omega
  · cases hlocal

/-- The days that a text may begin with if it is read as an instant. -/
structure IsWrittenDay (s : String) (t : Instant) (day : Date) : Prop where
  starts : dayText day <+: s.toList
  valid : day.isValid = true
  nonneg : 0 ≤ day.year
  le : day.year ≤ 9999
  /-- The day is at most one day away from that of the instant. -/
  near : t.date.number - 1 ≤ day.number ∧ day.number ≤ t.date.number + 1

/-- What is read is a day, one of three characters, a time of day, perhaps a fraction, and an
    offset, with as many digits for each number as it has. -/
theorem readRfc3339?_eq_some_iff {s : String} {t : Instant} :
    readRfc3339? s = some t ↔
      ∃ (year month day hour minute second milli : Nat) (offset : Int) (separator : Char)
        (rest zone : List Char),
        (year < 10 ^ 4 ∧ month < 10 ^ 2 ∧ day < 10 ^ 2 ∧ hour < 10 ^ 2 ∧
          minute < 10 ^ 2 ∧ second < 10 ^ 2) ∧
        separator ∈ ['T', 't', ' '] ∧
        s.toList = padded 4 year ++ '-' :: (padded 2 month ++ '-' :: (padded 2 day ++ separator ::
          (padded 2 hour ++ ':' :: (padded 2 minute ++ ':' :: (padded 2 second ++ rest))))) ∧
        readFraction? rest = some (milli, zone) ∧ readOffset? zone = some offset ∧
        ofLocal? ⟨year, month, day⟩ hour minute second milli offset = some t := by
  simp only [readRfc3339?, Option.bind_eq_bind, Option.bind_eq_some_iff, Prod.exists]
  constructor
  · rintro ⟨year, _, hyear, _, hdash, month, _, hmonth, _, hdash', day, _, hday, _,
      hseparator, hour, _, hhour, _,
      hcolon, minute, _, hminute, _, hcolon', second, rest, hsecond, milli, zone, hmilli,
      offset, hoffset, hlocal⟩
    obtain ⟨hyearLt, htext⟩ := fixedDigits?_eq_some_iff.mp hyear
    obtain rfl := skipOne?_singleton_iff.mp hdash
    obtain ⟨hmonthLt, rfl⟩ := fixedDigits?_eq_some_iff.mp hmonth
    obtain rfl := skipOne?_singleton_iff.mp hdash'
    obtain ⟨hdayLt, rfl⟩ := fixedDigits?_eq_some_iff.mp hday
    obtain ⟨separator, hchoice, rfl⟩ := skipOne?_eq_some_iff.mp hseparator
    obtain ⟨hhourLt, rfl⟩ := fixedDigits?_eq_some_iff.mp hhour
    obtain rfl := skipOne?_singleton_iff.mp hcolon
    obtain ⟨hminuteLt, rfl⟩ := fixedDigits?_eq_some_iff.mp hminute
    obtain rfl := skipOne?_singleton_iff.mp hcolon'
    obtain ⟨hsecondLt, rfl⟩ := fixedDigits?_eq_some_iff.mp hsecond
    exact ⟨year, month, day, hour, minute, second, milli, offset, separator, rest, zone,
      ⟨hyearLt, hmonthLt, hdayLt, hhourLt, hminuteLt, hsecondLt⟩, hchoice, htext,
      hmilli, hoffset, hlocal⟩
  · rintro ⟨year, month, day, hour, minute, second, milli, offset, separator, rest, zone,
      ⟨hyear, hmonth, hday, hhour, hminute, hsecond⟩, hseparator, htext,
      hmilli, hoffset, hlocal⟩
    exact ⟨year, _, fixedDigits?_eq_some_iff.mpr ⟨hyear, htext⟩, _,
      skipOne?_singleton_iff.mpr rfl,
      month, _, fixedDigits?_eq_some_iff.mpr ⟨hmonth, rfl⟩, _, skipOne?_singleton_iff.mpr rfl,
      day, _, fixedDigits?_eq_some_iff.mpr ⟨hday, rfl⟩, _,
      skipOne?_eq_some_iff.mpr ⟨separator, hseparator, rfl⟩,
      hour, _, fixedDigits?_eq_some_iff.mpr ⟨hhour, rfl⟩, _, skipOne?_singleton_iff.mpr rfl,
      minute, _, fixedDigits?_eq_some_iff.mpr ⟨hminute, rfl⟩, _, skipOne?_singleton_iff.mpr rfl,
      second, rest, fixedDigits?_eq_some_iff.mpr ⟨hsecond, rfl⟩,
      milli, zone, hmilli, offset, hoffset, hlocal⟩

/-- A text that is read as an instant begins with a day, and the instant is proper. -/
theorem readRfc3339?_spec {s : String} {t : Instant} (hread : readRfc3339? s = some t) :
    t.IsProper ∧ ∃ day, IsWrittenDay s t day := by
  obtain ⟨year, month, day, hour, minute, second, milli, offset, separator, rest, zone,
    ⟨hyear, -⟩, -, htext, -, hoffset, hlocal⟩ := readRfc3339?_eq_some_iff.mp hread
  obtain ⟨hvalid, clock, hclock, hclock', hleap, hsecond⟩ := ofLocal?_spec hlocal
  obtain ⟨hminutes, hoffset, hoffset'⟩ := readOffset?_spec hoffset
  have hnumber : t.date.number = t.second / 86400 := Date.number_ofNumber _
  have hle : (year : Int) ≤ 9999 := by omega
  refine ⟨fun hmilli => ?_, ⟨year, month, day⟩,
    ⟨?_, hvalid, Int.natCast_nonneg year, hle, ?_⟩⟩
  · have hlast := hleap hmilli
    omega
  · refine ⟨separator ::
      (padded 2 hour ++ ':' :: (padded 2 minute ++ ':' :: (padded 2 second ++ rest))), ?_⟩
    rw [dayText_append, yearText_of_le (Int.natCast_nonneg year) hle, htext]
    rfl
  · omega

private theorem readFraction?_fraction (t : Instant) :
    readFraction? ('.' :: (t.fraction ++ ['Z'])) = some (t.milli % 1000, ['Z']) := by
  have hmilli : t.milli % 1000 < 10 ^ (2 + 1) := Nat.mod_lt t.milli (by decide)
  obtain ⟨hlength, hdigits, hvalue⟩ :=
    eq_padded_iff.mp ⟨hmilli, (rfl : t.fraction = padded 3 (t.milli % 1000))⟩
  have htake : (t.fraction ++ ['Z']).takeWhile Char.isDigit = t.fraction := by
    rw [List.takeWhile_append_of_pos hdigits]
    exact List.append_nil _
  have hdrop : (t.fraction ++ ['Z']).dropWhile Char.isDigit = ['Z'] := by
    rw [List.dropWhile_append_of_pos hdigits]
    rfl
  have hne : t.fraction.isEmpty = false := by
    rw [List.isEmpty_eq_false_iff]
    exact List.ne_nil_of_length_eq_add_one hlength
  simp only [readFraction?, htake, hdrop, hne, fractionMillis, List.take_left' hlength,
    hvalue, Bool.false_eq_true, if_false]

/-- The day and the time of an instant are those of the instant. -/
theorem ofLocal?_date {t : Instant} (ht : t.IsProper) :
    ofLocal? t.date t.hour (t.secondOfDay / 60 % 60) (t.secondOfDay % 60 + t.milli / 1000)
      (t.milli % 1000) 0 = some t := by
  have hmilli := t.milli_lt
  have hclock := t.secondOfDay_lt
  have hday : t.second = 86400 * t.date.number + t.secondOfDay := by
    rw [date, Date.number_ofNumber, secondOfDay]
    omega
  have hleap := ht.secondOfDay_mod
  unfold ofLocal?
  rw [hour]
  split
  · obtain ⟨second, milli, hlt⟩ := t
    simp only [ofDay, Option.some.injEq, mk.injEq] at hmilli hclock hday hleap ⊢
    constructor
    · omega
    · split <;> omega
  · next hnot => exact absurd ⟨t.isValid_date, by omega, by omega, by omega⟩ hnot

/-- The text of an instant from year 0 to year 9999 is read as the instant. -/
theorem readRfc3339?_text {t : Instant} (ht : t.IsProper) (hle : 0 ≤ t.date.year)
    (hyear : t.date.year ≤ 9999) :
    readRfc3339? t.text = some t := by
  have hmonth := Date.month_le_of_isValid t.isValid_date
  have hday := Date.day_le_of_isValid t.isValid_date
  have hhour := t.hour_lt
  have hmilli := t.milli_lt
  have hdate : t.date = ⟨t.date.year.toNat, t.date.month, t.date.day⟩ := by
    rw [Int.toNat_of_nonneg hle]
  refine readRfc3339?_eq_some_iff.mpr
    ⟨t.date.year.toNat, t.date.month, t.date.day, _, _, _, _, 0, 'T', _, _,
    ?_, by decide, ?_, readFraction?_fraction t, rfl, hdate ▸ ofLocal?_date ht⟩
  · omega
  · rw [text_eq, String.toList_ofList, dayText_append, yearText_of_le hle hyear,
      clockText, minuteText, List.append_assoc, List.cons_append]

namespace IsWrittenDay

variable {s : String} {t u : Instant} {day : Date}

/-- An instant of a year with a sign is written as a text that comes before. -/
theorem compare_text_of_signed (hday : IsWrittenDay s t day)
    (hyear : u.date.year < 0 ∨ 9999 < u.date.year) :
    compare u.text s = .lt := by
  obtain ⟨rest, hrest⟩ := hday.starts
  have hs : s = String.ofList (dayText day ++ rest) := by rw [hrest, String.ofList_toList]
  rw [hs, text_eq, Text.compare_ofList, compare_dayText_of_signed hyear hday.nonneg hday.le]

/-- Days on which neither the text nor the instant lies are on the same side of both. -/
theorem compare_date (hday : IsWrittenDay s t day) (hne : u.date ≠ day)
    (hne' : u.date ≠ t.date) :
    compare u.date day = compare u.date t.date := by
  have hnear := hday.near
  have hnumber := mt (Date.number_inj u.isValid_date hday.valid).mp hne
  have hnumber' := mt (Date.number_inj u.isValid_date t.isValid_date).mp hne'
  rw [← Date.compare_number u.isValid_date hday.valid,
    ← Date.compare_number u.isValid_date t.isValid_date]
  rcases Int.lt_or_gt_of_ne hnumber with hlt | hgt
  · rw [Int.compare_eq_lt.mpr hlt, Int.compare_eq_lt.mpr (by omega)]
  · rw [Int.compare_eq_gt.mpr hgt, Int.compare_eq_gt.mpr (by omega)]

/-- A text that begins with a day compares by that day, and then by what stands behind it. -/
theorem compare_text_eq_then (hday : IsWrittenDay s t day) (hyear : u.date.year ≤ 9999)
    {rest : List Char} (hrest : s.toList = dayText day ++ rest) :
    compare u.text s = (compare u.date day).then (compare u.clockText rest) := by
  have hs : s = String.ofList (dayText day ++ rest) := by rw [← hrest, String.ofList_toList]
  rw [hs, text_eq, Text.compare_ofList,
    compare_dayText u.isValid_date hday.valid hyear hday.nonneg hday.le]

/-- Away from the day of the text and the day of the instant texts compare as instants do. -/
theorem compare_text (hday : IsWrittenDay s t day) (hyear : u.date.year ≤ 9999)
    (hne : u.date ≠ day) (hne' : u.date ≠ t.date) : compare u.text s = compare u t := by
  obtain ⟨rest, hrest⟩ := hday.starts
  rw [hday.compare_text_eq_then hyear hrest.symm, compare_of_date_ne hne',
    ← hday.compare_date hne hne']
  cases hdate : compare u.date day with
  | lt | gt => rfl
  | eq => exact absurd (Date.compare_eq_iff.mp hdate) hne

end IsWrittenDay

/-- The text of an instant is read as no other one. -/
theorem eq_of_readRfc3339?_text {t u : Instant} (hu : u.IsProper)
    (hread : readRfc3339? u.text = some t) :
    u = t ∧ 0 ≤ u.date.year ∧ u.date.year ≤ 9999 := by
  obtain ⟨-, day, hday⟩ := readRfc3339?_spec hread
  have hyear : ¬ (u.date.year < 0 ∨ 9999 < u.date.year) := by
    intro hsigned
    have hlt := hday.compare_text_of_signed hsigned
    rw [Std.ReflOrd.compare_self] at hlt
    cases hlt
  have hle : 0 ≤ u.date.year := by omega
  have hle' : u.date.year ≤ 9999 := by omega
  exact ⟨Option.some.inj ((readRfc3339?_text hu hle hle').symm.trans hread), hle, hle'⟩

/-- Whether the year of an instant is written in four digits and without a sign. -/
def HasPlainYear (t : Instant) : Prop := 0 ≤ t.date.year ∧ t.date.year ≤ 9999

instance : DecidablePred HasPlainYear := fun t =>
  inferInstanceAs (Decidable (0 ≤ t.date.year ∧ t.date.year ≤ 9999))

/-- An offset takes an instant out of the plain years only from the first or the last of their
    days. -/
theorem IsWrittenDay.eq_first_or_last {s : String} {t : Instant} {day : Date}
    (hday : IsWrittenDay s t day) (hyear : ¬ t.HasPlainYear) :
    day = ⟨0, 1, 1⟩ ∨ day = ⟨9999, 12, 31⟩ := by
  have hnear := hday.near
  have hbounds := Date.number_bounds hday.valid
  have hbounds' := Date.number_bounds t.isValid_date
  have hfirst := Date.daysBeforeYear_mono hday.nonneg
  have hlast := Date.daysBeforeYear_mono (Int.add_le_add_right hday.le 1)
  rcases not_and_or.mp hyear with hneg | hlate
  · have hbefore := Date.daysBeforeYear_mono (show t.date.year + 1 ≤ 0 by omega)
    refine .inl ((Date.number_inj hday.valid (by decide)).mp ?_)
    have hnumber : Date.number ⟨0, 1, 1⟩ =
        Date.daysBeforeYear 0 - Date.daysBeforeYear 1970 := by decide
    omega
  · have hafter := Date.daysBeforeYear_mono (show (9999 : Int) + 1 ≤ t.date.year by omega)
    refine .inr ((Date.number_inj hday.valid (by decide)).mp ?_)
    have hnumber : Date.number ⟨9999, 12, 31⟩ =
        Date.daysBeforeYear (9999 + 1) - 1 - Date.daysBeforeYear 1970 := by
      decide
    omega

/-- Only the texts of instants with plain years are read, and they are read as these instants. -/
theorem readRfc3339?_text_eq {t : Instant} (ht : t.IsProper) :
    readRfc3339? t.text = if t.HasPlainYear then some t else none := by
  split
  · next hyear => exact readRfc3339?_text ht hyear.1 hyear.2
  · next hyear =>
    refine Option.eq_none_iff_forall_ne_some.mpr fun u hu => hyear ?_
    exact (eq_of_readRfc3339?_text ht hu).2

end DocQuery.Instant
