import DocQuery.Text.Blank
import DocQuery.Time.Instant

namespace DocQuery.Instant

/-- Reads exactly as many digits as asked. -/
def fixedDigits? (count : Nat) (cs : List Char) : Option (Nat × List Char) :=
  let ds := cs.take count
  if ds.length = count ∧ ds.all Char.isDigit
    then some (Decimal.ofDigits ds, cs.drop count) else none

/-- Reads at least one digit and no more than `most`. -/
def someDigits? (most : Nat) (cs : List Char) : Option (Nat × List Char) :=
  let ds := (cs.take most).takeWhile Char.isDigit
  if ds.isEmpty then none else some (Decimal.ofDigits ds, cs.drop ds.length)

/-- Steps over one of the given characters. -/
def skipOne? (choices : List Char) : List Char → Option (List Char)
  | c :: rest => if c ∈ choices then some rest else none
  | [] => none

/-- The milliseconds of a fraction of a second, the digits after the third dropped. -/
def fractionMillis (ds : List Char) : Nat := Decimal.ofDigits ((ds ++ ['0', '0', '0']).take 3)

/-- The instant of a local day and time at an offset in seconds, if the day and the time exist.
    Second 60 is a leap second. -/
def ofLocal? (date : Date) (hour minute second milli : Nat) (offset : Int) : Option Instant :=
  if date.isValid ∧ hour ≤ 23 ∧ minute ≤ 59 ∧ second ≤ 60 then
    let seconds : Int := (3600 * hour + 60 * minute + min second 59 : Nat)
    some (ofDay date (seconds - offset) (milli % 1000 + if second = 60 then 1000 else 0)
      (by split <;> omega))
  else none

/-- Reads an offset from UTC, in seconds, which ends the text: a letter, or a sign with hours below
    24 and minutes. -/
def readOffset? (cs : List Char) : Option Int := do
  match cs with
  | ['Z'] | ['z'] => some 0
  | sign :: rest =>
    let (hours, rest) ← fixedDigits? 2 rest
    let rest ← skipOne? [':'] rest
    let (minutes, rest) ← fixedDigits? 2 rest
    if hours ≤ 23 ∧ minutes ≤ 59 ∧ rest = [] then
      let seconds : Int := (3600 * hours + 60 * minutes : Nat)
      if sign = '+' then some seconds
      else if sign = '-' ∨ sign = '\u2212' then some (-seconds)
      else none
    else none
  | [] => none

/-- Reads the fraction of a second, if there is a point, as milliseconds. -/
def readFraction? (cs : List Char) : Option (Nat × List Char) :=
  match cs with
  | '.' :: rest =>
    let ds := rest.takeWhile Char.isDigit
    if ds.isEmpty then none else some (fractionMillis ds, rest.dropWhile Char.isDigit)
  | rest => some (0, rest)

/-- Reads a date and time with an offset, as RFC 3339 writes them. -/
def readRfc3339? (s : String) : Option Instant := do
  let (year, cs) ← fixedDigits? 4 s.toList
  let (month, cs) ← fixedDigits? 2 (← skipOne? ['-'] cs)
  let (day, cs) ← fixedDigits? 2 (← skipOne? ['-'] cs)
  let (hour, cs) ← fixedDigits? 2 (← skipOne? ['T', 't', ' '] cs)
  let (minute, cs) ← fixedDigits? 2 (← skipOne? [':'] cs)
  let (second, cs) ← fixedDigits? 2 (← skipOne? [':'] cs)
  let (milli, cs) ← readFraction? cs
  let offset ← readOffset? cs
  ofLocal? ⟨year, month, day⟩ hour minute second milli offset

/-- Reads a year after blanks: up to four digits, or a sign and any number of digits. -/
def readYear? (cs : List Char) : Option (Int × List Char) :=
  match cs.dropWhile Text.isBlank with
  | '-' :: rest => (someDigits? rest.length rest).map fun (n, rest) => (-(n : Int), rest)
  | '+' :: rest => (someDigits? rest.length rest).map fun (n, rest) => ((n : Int), rest)
  | rest => (someDigits? 4 rest).map fun (n, rest) => ((n : Int), rest)

/-- Reads a number of one or two digits after blanks. -/
def readShort? (cs : List Char) : Option (Nat × List Char) :=
  someDigits? 2 (cs.dropWhile Text.isBlank)

/-- Reads a date with numbers that may be short. -/
def readDate? (cs : List Char) : Option (Date × List Char) := do
  let (year, cs) ← readYear? cs
  let (month, cs) ← readShort? (← skipOne? ['-'] cs)
  let (day, cs) ← readShort? (← skipOne? ['-'] cs)
  if Date.firstYear ≤ year ∧ year ≤ Date.lastYear
    then some (⟨year, month, day⟩, cs) else none

/-- Reads a date and time in UTC without an offset. -/
def readDateTime? (s : String) : Option Instant := do
  let (date, cs) ← readDate? s.toList
  let (hour, cs) ← readShort? (← skipOne? ['T'] cs)
  let (minute, cs) ← readShort? (← skipOne? [':'] cs)
  let (second, cs) ← readShort? (← skipOne? [':'] cs)
  if cs = [] then ofLocal? date hour minute second 0 0 else none

/-- Reads a date alone, as its midnight. -/
def readMidnight? (s : String) : Option Instant := do
  let (date, cs) ← readDate? s.toList
  if cs = [] then ofLocal? date 0 0 0 0 0 else none

/-- Reads a bound: RFC 3339, or else a date and time, or else a date. -/
def readBound? (s : String) : Option Instant :=
  readRfc3339? s <|> readDateTime? s <|> readMidnight? s

end DocQuery.Instant
