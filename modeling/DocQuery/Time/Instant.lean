import DocQuery.Number.Decimal
import DocQuery.Time.Date

namespace DocQuery

/-- A UTC second, counted from the start of 1970, and the milliseconds since it began. A leap second
    is the last second of a minute gone on for more than 1000 milliseconds. -/
structure Instant where
  second : Int
  milli : Nat
  milli_lt : milli < 2000
deriving DecidableEq

namespace Instant

/-- The start of 1970. -/
def epoch : Instant := ⟨0, 0, by decide⟩

instance : Inhabited Instant := ⟨epoch⟩

/-- Milliseconds since the start of 1970. A leap second counts as the first of the next minute. -/
def epochMillis (t : Instant) : Int := 1000 * t.second + t.milli

/-- The instant of a count of milliseconds. It is never in a leap second. -/
def ofEpochMillis (millis : Int) : Instant :=
  ⟨millis / 1000, (millis % 1000).toNat, by omega⟩

/-- Milliseconds from the start of 1970 to the start of a year. -/
def yearStart (year : Int) : Int := 86400000 * Date.number ⟨year, 1, 1⟩

/-- The instant of a count of milliseconds, or the first or the last millisecond of the years that
    dates may name, if the count lies outside of them. -/
def ofEpochMillisClamped (millis : Int) : Instant :=
  ofEpochMillis (max (yearStart Date.firstYear) (min millis (yearStart (Date.lastYear + 1) - 1)))

/-- The instant of a time of day, in seconds since midnight, on a day. -/
def ofDay (date : Date) (secondOfDay : Int) (milli : Nat) (milli_lt : milli < 2000) : Instant :=
  ⟨86400 * date.number + secondOfDay, milli, milli_lt⟩

/-- The day of an instant. -/
def date (t : Instant) : Date := Date.ofNumber (t.second / 86400)

/-- Seconds since midnight. -/
def secondOfDay (t : Instant) : Nat := (t.second % 86400).toNat

/-- A natural with zeros in front up to a width. -/
def padded (width n : Nat) : List Char :=
  List.replicate (width - (Decimal.digits n).length) '0' ++ Decimal.digits n

/-- A year in four digits. One outside 0 to 9999 carries its sign. -/
def yearText (year : Int) : List Char :=
  if 0 ≤ year ∧ year ≤ 9999 then padded 4 year.toNat
  else (if year < 0 then '-' else '+') :: padded 4 year.natAbs

/-- The text of a day. -/
def dayText (d : Date) : List Char :=
  yearText d.year ++ '-' :: padded 2 d.month ++ '-' :: padded 2 d.day

/-- The hour of the day. -/
def hour (t : Instant) : Nat := t.secondOfDay / 3600

/-- The text of the minute and the second. A leap second is written as second 60. -/
def minuteText (t : Instant) : List Char :=
  padded 2 (t.secondOfDay / 60 % 60) ++ ':' :: padded 2 (t.secondOfDay % 60 + t.milli / 1000)

/-- The digits of the fraction of the second. -/
def fraction (t : Instant) : List Char := padded 3 (t.milli % 1000)

/-- The text of an instant: date, time and the letter of UTC. Behind the second stands the text that
    is given for its fraction. -/
def textWith (fractionText : List Char) (t : Instant) : String :=
  String.ofList <|
    dayText t.date ++ 'T' :: padded 2 t.hour ++ ':' :: t.minuteText ++ fractionText ++ ['Z']

/-- The text of an instant to the millisecond. -/
def text (t : Instant) : String := t.textWith ('.' :: t.fraction)

/-- The text of an instant with only the digits of its fraction that are needed. -/
def shortText (t : Instant) : String :=
  t.textWith <| match Decimal.withoutFinalZeros t.fraction with
    | [] => []
    | digits => '.' :: digits

end Instant

end DocQuery
