namespace DocQuery

/-- A day by year, month and day of the month. Year 0 comes before year 1. -/
structure Date where
  year : Int
  month : Nat
  day : Nat
deriving DecidableEq, Repr

namespace Date

/-- The first year that a date outside of a document may name. -/
def firstYear : Int := -262143

/-- The last year that a date outside of a document may name. -/
def lastYear : Int := 262142

/-- Whether a year has a 29 February. -/
def isLeapYear (year : Int) : Bool :=
  decide (year % 4 = 0 ∧ (year % 100 ≠ 0 ∨ year % 400 = 0))

/-- The lengths of the months of a year. -/
def monthLengths (year : Int) : List Nat :=
  [31, if isLeapYear year then 29 else 28, 31, 30, 31, 30, 31, 31, 30, 31, 30, 31]

/-- Whether the month exists and has the day. -/
def isValid (d : Date) : Bool :=
  decide (1 ≤ d.month ∧ 1 ≤ d.day ∧ d.day ≤ (monthLengths d.year).getD (d.month - 1) 0)

/-- The number of days from 1 January of year 0 to 1 January of a year. -/
def daysBeforeYear (year : Int) : Int :=
  365 * year + (year + 3) / 4 - (year + 99) / 100 + (year + 399) / 400

/-- The number of days from the start of a year to the start of a month. -/
def daysBeforeMonth (year : Int) (month : Nat) : Nat :=
  ((monthLengths year).take (month - 1)).foldr (· + ·) 0

/-- The number of a day. Day 0 is 1 January 1970. -/
def number (d : Date) : Int :=
  daysBeforeYear d.year + daysBeforeMonth d.year d.month + d.day - 1 - daysBeforeYear 1970

/-- Splits a number of days among months of the given lengths: the months that are full, and the
    days left over. -/
def fillMonths : List Nat → Nat → Nat × Nat
  | [], days => (0, days)
  | length :: rest, days =>
    if days < length then (0, days)
    else
      let (full, left) := fillMonths rest (days - length)
      (full + 1, left)

/-- The year that holds a day counted from 1 January of year 0. The average length of a year gives
    it up to a neighbour. -/
def yearOfDay (days : Int) : Int :=
  let guess := 400 * days / 146097
  if days < daysBeforeYear guess then guess - 1
  else if daysBeforeYear (guess + 1) ≤ days then guess + 1
  else guess

/-- The day of a number. -/
def ofNumber (n : Int) : Date :=
  let days := n + daysBeforeYear 1970
  let year := yearOfDay days
  let (full, left) := fillMonths (monthLengths year) (days - daysBeforeYear year).toNat
  ⟨year, full + 1, left + 1⟩

end Date

end DocQuery
